import SomeipTunnel.E2e.Header

/-!
# What a protector writes is what a checker accepts

`Profile.write_eq`: writing the header changes only the bytes of the header, and a checker then reads
a matching check value, the expected data id and the counter. The length is written with 16 bits by
the profiles 04 and 07, so that a longer buffer is not identified. A fresh checker therefore accepts
a protected buffer exactly if it has fewer than `2 ^ 16` bytes or the profile is 05
(`protected_accepted_iff`).
-/

namespace SomeipTunnel.E2e

open Crc

/-! ### Writing the header -/

/-- The buffer outside `n` bytes from an index on is as it was. -/
def SameOutside (index n : ℕ) (buffer buffer' : List UInt8) : Prop :=
  buffer'.length = buffer.length ∧ ∀ k, k < index ∨ index + n ≤ k → buffer'[k]? = buffer[k]?

/-- The length field tells the length of the buffer; profile 05 has none. -/
def Profile.lengthFits : Profile → List UInt8 → Bool
  | .p04, buffer => decide (buffer.length < 2 ^ 16)
  | .p05, _ => true
  | .p07, buffer => decide (buffer.length < 2 ^ 16)

theorem toNat_ofNat_eq_iff (n : ℕ) : (BitVec.ofNat 16 n).toNat = n ↔ n < 2 ^ 16 := by
  rw [BitVec.toNat_ofNat]
  exact ⟨fun h => h ▸ Nat.mod_lt n (by decide), Nat.mod_eq_of_lt⟩

/-- The check value of what is around a field, written to the field, seals the buffer. -/
theorem exists_sealed {w index : ℕ} {buffer : List UInt8} (step : BitVec w → UInt8 → BitVec w)
    (start finish : BitVec w) (rest : List UInt8) (hw : 8 ∣ w)
    (h : index + w / 8 ≤ buffer.length) :
    ∃ buffer', writeUintBe (crcAround step start finish rest buffer index) buffer index =
        some buffer' ∧
      Wrote (crcAround step start finish rest buffer index) index buffer buffer' ∧
      SealedAt step start finish rest buffer' index := by
  obtain ⟨buffer', hwrite, hwrote⟩ := exists_wrote hw h (crcAround step start finish rest buffer index)
  refine ⟨buffer', hwrite, hwrote, ?_⟩
  rw [SealedAt, crcAround, hwrote.around, ← crcAround, hwrote.here]

theorem Profile04.write_eq {config : Profile04.Config} (counter : BitVec 16) (inst : UInt16)
    {buffer : List UInt8} (h : config.offset + 12 ≤ buffer.length) :
    ∃ buffer', Profile04.write config counter inst buffer = some buffer' ∧
      SameOutside config.offset 12 buffer buffer' ∧ Profile04.received config inst buffer' =
        some ⟨true, Profile.p04.lengthFits buffer, counter⟩ := by
  obtain ⟨b₁, hb₁, w₁⟩ := @exists_wrote 16 buffer config.offset (by decide) (by omega)
    (BitVec.ofNat 16 buffer.length)
  have l₁ := w₁.length
  obtain ⟨b₂, hb₂, w₂⟩ := @exists_wrote 16 b₁ (config.offset + 2) (by decide) (by omega) counter
  have l₂ := w₂.length
  obtain ⟨b₃, hb₃, w₃⟩ := @exists_wrote 32 b₂ (config.offset + 4) (by decide) (by omega)
    (Profile04.dataIdOf config inst)
  have l₃ := w₃.length
  obtain ⟨b₄, hb₄, w₄, hsealed⟩ := exists_sealed (reflected (lookup lookupTableProfile04))
    (0 ^^^ 0xFFFFFFFF) 0xFFFFFFFF [] (by decide) (by omega : config.offset + 8 + 4 ≤ b₃.length)
  have l₄ := w₄.length
  simp only [Profile04.write, Profile04.received, Option.bind_eq_bind, Option.bind_eq_some_iff]
  refine ⟨b₄, ⟨b₁, hb₁, b₂, hb₂, b₃, hb₃, _, Profile04.computeCrc_eq (by omega), hb₄⟩,
    ⟨by omega, fun k hk => ?_⟩, BitVec.ofNat 16 buffer.length, ?_, counter, ?_,
    Profile04.dataIdOf config inst, ?_, _, hsealed, _, Profile04.computeCrc_eq (by omega), ?_⟩
  · rw [w₄.outside (by omega), w₃.outside (by omega), w₂.outside (by omega), w₁.outside (by omega)]
  · rw [w₄.elsewhere (by omega), w₃.elsewhere (by omega), w₂.elsewhere (by omega)]
    exact w₁.here
  · rw [w₄.elsewhere (by omega), w₃.elsewhere (by omega), w₂.here]
  · rw [w₄.elsewhere (by omega), w₃.here]
  · have hsize : b₄.length = buffer.length := by omega
    simp only [Option.pure_def, hsize, toNat_ofNat_eq_iff, true_and, decide_true, Profile.lengthFits]

theorem Profile05.write_eq {config : Profile05.Config} (counter : BitVec 8)
    {buffer : List UInt8} (h : config.offset + 3 ≤ buffer.length) :
    ∃ buffer', Profile05.write config counter buffer = some buffer' ∧
      SameOutside config.offset 3 buffer buffer' ∧ Profile05.received config buffer' =
        some ⟨true, Profile.p05.lengthFits buffer, counter⟩ := by
  obtain ⟨b₁, hb₁, w₁⟩ := @exists_wrote 8 buffer (config.offset + 2) (by decide) (by omega) counter
  have l₁ := w₁.length
  obtain ⟨b₂, hb₂, w₂, hsealed⟩ := exists_sealed (forward (lookup lookupTableProfile05)) 0xFFFF 0#16
    (Profile05.dataIdView config) (by decide) (by omega : config.offset + 2 ≤ b₁.length)
  have l₂ := w₂.length
  refine ⟨b₂, ?_, ⟨by omega, fun k hk => ?_⟩, ?_⟩
  · simp only [Profile05.write, Option.bind_eq_bind, Option.bind_eq_some_iff]
    exact ⟨b₁, hb₁, _, Profile05.computeCrc_eq (by omega), hb₂⟩
  · rw [w₂.outside (by omega), w₁.outside (by omega)]
  · have hcounter : readUintBe 8 b₂ (config.offset + 2) = some counter := by
      rw [w₂.elsewhere (by omega), w₁.here]
    simp only [Profile05.received, Option.bind_eq_bind, Option.bind_eq_some_iff]
    refine ⟨_, hcounter, _, hsealed, _, Profile05.computeCrc_eq (by omega), ?_⟩
    simp only [Option.pure_def, decide_true, Profile.lengthFits]

theorem Profile07.write_eq {config : Profile07.Config} (counter : BitVec 32)
    {buffer : List UInt8} (h : config.offset + 20 ≤ buffer.length) :
    ∃ buffer', Profile07.write config counter buffer = some buffer' ∧
      SameOutside config.offset 20 buffer buffer' ∧ Profile07.received config buffer' =
        some ⟨true, Profile.p07.lengthFits buffer, counter⟩ := by
  obtain ⟨b₁, hb₁, w₁⟩ := @exists_wrote 32 buffer (config.offset + 8) (by decide) (by omega)
    ((BitVec.ofNat 16 buffer.length).setWidth 32)
  have l₁ := w₁.length
  obtain ⟨b₂, hb₂, w₂⟩ := @exists_wrote 32 b₁ (config.offset + 12) (by decide) (by omega) counter
  have l₂ := w₂.length
  obtain ⟨b₃, hb₃, w₃⟩ := @exists_wrote 32 b₂ (config.offset + 16) (by decide) (by omega)
    config.dataId
  have l₃ := w₃.length
  obtain ⟨b₄, hb₄, w₄, hsealed⟩ := exists_sealed (reflected (lookup lookupTableProfile07))
    (0 ^^^ 0xFFFFFFFFFFFFFFFF) 0xFFFFFFFFFFFFFFFF [] (by decide)
    (by omega : config.offset + 8 ≤ b₃.length)
  have l₄ := w₄.length
  simp only [Profile07.write, Profile07.received, Option.bind_eq_bind, Option.bind_eq_some_iff]
  refine ⟨b₄, ⟨b₁, hb₁, b₂, hb₂, b₃, hb₃, _, Profile07.computeCrc_eq (by omega), hb₄⟩,
    ⟨by omega, fun k hk => ?_⟩, (BitVec.ofNat 16 buffer.length).setWidth 32, ?_, counter, ?_,
    config.dataId, ?_, _, hsealed, _, Profile07.computeCrc_eq (by omega), ?_⟩
  · rw [w₄.outside (by omega), w₃.outside (by omega), w₂.outside (by omega), w₁.outside (by omega)]
  · rw [sizeOffset, w₄.elsewhere (by omega), w₃.elsewhere (by omega), w₂.elsewhere (by omega), w₁.here]
  · rw [counterOffset, w₄.elsewhere (by omega), w₃.elsewhere (by omega), w₂.here]
  · rw [dataIdOffset, w₄.elsewhere (by omega), w₃.here]
  · have hsize : b₄.length = buffer.length := by omega
    simp only [Option.pure_def, hsize, BitVec.toNat_setWidth_of_le (by decide : 16 ≤ 32),
      toNat_ofNat_eq_iff, true_and, decide_true, Profile.lengthFits]

/-- **The header that a protector writes** is read back by the checker of the same profile: the check
value matches, the counter is the one written, and the length is the buffer's if it fits. -/
theorem Profile.write_eq {p : Profile} {config : p.Config} (counter : BitVec p.width) (inst : UInt16)
    {buffer : List UInt8} (h : p.HoldsHeader config buffer) :
    ∃ buffer', (p.protector config).write counter inst buffer = some buffer' ∧
      SameOutside (p.offset config) p.headerSize buffer buffer' ∧
      (p.checker config).received inst buffer' = some ⟨true, p.lengthFits buffer, counter⟩ := by
  cases p with
  | p04 => exact Profile04.write_eq counter inst h
  | p05 => exact Profile05.write_eq counter h
  | p07 => exact Profile07.write_eq counter h

/-! ### A fresh checker -/

/-- The protector and the checker of a profile admit the same buffers. -/
theorem Profile.protector_admits (p : Profile) (config : p.Config) :
    (p.protector config).admits = (p.checker config).admits := by
  cases p <;> rfl

/-- What `protect` leaves behind, and the verdict of a checker that has seen nothing before. -/
theorem check_protect (p : Profile) (config : p.Config) (counter : Counters p.width) (inst : UInt16)
    (buffer : List UInt8) (hadmits : (p.checker config).admits inst buffer = true)
    (hheader : p.HoldsHeader config buffer) :
    ∃ buffer', (p.protector config).protect counter buffer inst =
        some (buffer', incrementCounter counter inst) ∧
      SameOutside (p.offset config) p.headerSize buffer buffer' ∧
      ((p.checker config).check ∅ buffer' inst).map Prod.fst =
        some (if p.lengthFits buffer then .ok else .error) := by
  obtain ⟨buffer', hwrite, hsame, hreceived⟩ := Profile.write_eq (getCounter counter inst) inst hheader
  refine ⟨buffer', ?_, hsame, ?_⟩
  · rw [Protector.protect, Profile.protector_admits, if_pos hadmits, hwrite]
    rfl
  · rw [Checker.check, Profile.admits_of_length_eq hsame.1, if_pos hadmits, hreceived]
    cases hfits : p.lengthFits buffer with
    | false => rfl
    | true =>
        simp only [Option.map_some, Checker.judge, not_true_eq_false, if_false, if_true,
          verifyCounter, AList.lookup_empty, Nat.zero_le, decide_true]

/-- **Protected buffers are accepted** by a fresh checker of the same configuration, except those of
`2 ^ 16` bytes and more under the profiles 04 and 07; and only bytes of the header change. -/
theorem protected_accepted_iff (p : Profile) (custom : CustomParameters) (counter : Counters p.width)
    (inst : UInt16) (buffer : List UInt8)
    (hadmits : (p.checker (makeE2eProfileConfig custom p)).admits inst buffer = true)
    (hheader : p.HoldsHeader (makeE2eProfileConfig custom p) buffer) : ∃ buffer' counter',
      (p.protector (makeE2eProfileConfig custom p)).protect counter buffer inst =
          some (buffer', counter') ∧
        SameOutside (p.offset (makeE2eProfileConfig custom p)) p.headerSize buffer buffer' ∧
        (((p.checker (makeE2eProfileConfig custom p)).check ∅ buffer' inst).map Prod.fst =
            some .ok ↔ p = .p05 ∨ buffer.length < 2 ^ 16) := by
  obtain ⟨buffer', hprotect, hsame, hcheck⟩ := check_protect p _ counter inst buffer hadmits hheader
  refine ⟨buffer', _, hprotect, hsame, ?_⟩
  rw [hcheck]
  have hfits : p.lengthFits buffer = true ↔ p = .p05 ∨ buffer.length < 2 ^ 16 := by
    cases p <;> simp [Profile.lengthFits]
  rw [← hfits]
  cases p.lengthFits buffer <;> simp

/-- A buffer of 24 bytes under profile 07 without configured parameters. -/
theorem protected_accepted_iff_default : ∃ buffer' counter',
      (Profile.p07.protector (makeE2eProfileConfig (fun _ _ => none) .p07)).protect ∅
          (List.replicate 24 0) 1 = some (buffer', counter') ∧
        SameOutside 0 20 (List.replicate 24 0) buffer' ∧
        (((Profile.p07.checker (makeE2eProfileConfig (fun _ _ => none) .p07)).check ∅ buffer'
          1).map Prod.fst = some .ok ↔ Profile.p07 = .p05 ∨ 24 < 2 ^ 16) :=
  protected_accepted_iff .p07 (fun _ _ => none) ∅ 1 (List.replicate 24 0) (by decide) (by decide)

/-- Profile 07 admits a buffer of `2 ^ 16` bytes without configured parameters, protects it, and
does not accept it: the written length is `0`. -/
theorem long_buffer_refused :
    let config := makeE2eProfileConfig (fun _ _ => none) .p07
    let buffer : List UInt8 := List.replicate (2 ^ 16) 0
    (Profile.p07.checker config).admits 1 buffer = true ∧ Profile.p07.HoldsHeader config buffer ∧
      ∃ buffer', (Profile.p07.protector config).protect ∅ buffer 1 =
          some (buffer', incrementCounter ∅ 1) ∧
        ((Profile.p07.checker config).check ∅ buffer' 1).map Prod.fst = some .error := by
  intro config buffer
  have hlength : buffer.length = 2 ^ 16 := List.length_replicate
  -- only the length matters from here on
  clear_value buffer
  have hadmits : (Profile.p07.checker config).admits 1 buffer = true := by
    have hbounds : 0 ≤ buffer.length ∧ buffer.length ≤ 0xffffffff := by
      rw [hlength]
      decide
    exact decide_eq_true hbounds
  have hheader : Profile.p07.HoldsHeader config buffer := by
    rw [Profile.HoldsHeader, hlength]
    decide
  obtain ⟨buffer', hprotect, -, hcheck⟩ := check_protect .p07 config ∅ 1 buffer hadmits hheader
  refine ⟨hadmits, hheader, buffer', hprotect, ?_⟩
  rw [hcheck, Profile.lengthFits, hlength]
  rfl

end SomeipTunnel.E2e
