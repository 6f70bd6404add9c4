import SomeipTunnel.E2e.Header

/-!
# One changed byte is detected

A checker that looks at a buffer accepts its check value iff the buffer is sealed
(`Profile.received_eq`), and a sealed buffer with one byte replaced, in the header, in the check
value or anywhere else, is not sealed (`Profile.Sealed.not_set`). So `check` reports a wrong check
value (`corruption_reported_iff`) exactly where it looks at the buffer at all: a profile that does
not admit the instance or the length answers `E2E_ERROR` before it reads anything.
-/

namespace SomeipTunnel.E2e

open Crc

/-! ### Sealed buffers of the profiles -/

/-- The field of the check value holds the value of the rest of the buffer; for profile 05 also of
the data id. -/
def Profile.Sealed : (p : Profile) → p.Config → List UInt8 → Prop
  | .p04 => fun config buffer =>
      SealedAt (reflected (lookup lookupTableProfile04)) (0 ^^^ 0xFFFFFFFF) 0xFFFFFFFF []
        buffer (Profile04.Config.offset config + 8)
  | .p05 => fun config buffer =>
      SealedAt (forward (lookup lookupTableProfile05)) 0xFFFF 0#16 (Profile05.dataIdView config)
        buffer (Profile05.Config.offset config)
  | .p07 => fun config buffer =>
      SealedAt (reflected (lookup lookupTableProfile07)) (0 ^^^ 0xFFFFFFFFFFFFFFFF)
        0xFFFFFFFFFFFFFFFF [] buffer (Profile07.Config.offset config)

theorem Profile04.received_eq {config : Profile04.Config} {inst : UInt16} {buffer : List UInt8}
    (h : config.offset + 12 ≤ buffer.length) : ∃ r, Profile04.received config inst buffer = some r ∧
      (r.crcMatches = true ↔ Profile.p04.Sealed config buffer) := by
  refine ⟨_, by
    rw [Profile04.received, readUintBe_eq (by omega), readUintBe_eq (by omega),
      readUintBe_eq (by omega), readUintBe_eq (by omega), Profile04.computeCrc_eq h]
    rfl, ?_⟩
  simp only [Profile.Sealed, SealedAt]
  rw [readUintBe_eq (by omega), Option.some_inj]
  exact decide_eq_true_iff

theorem Profile05.received_eq {config : Profile05.Config} {buffer : List UInt8}
    (h : config.offset + 3 ≤ buffer.length) : ∃ r, Profile05.received config buffer = some r ∧
      (r.crcMatches = true ↔ Profile.p05.Sealed config buffer) := by
  refine ⟨_, by
    rw [Profile05.received, readUintBe_eq (by omega), readUintBe_eq (by omega),
      Profile05.computeCrc_eq (by omega)]
    rfl, ?_⟩
  simp only [Profile.Sealed, SealedAt]
  rw [readUintBe_eq (by omega), Option.some_inj]
  exact decide_eq_true_iff

theorem Profile07.received_eq {config : Profile07.Config} {buffer : List UInt8}
    (h : config.offset + 20 ≤ buffer.length) : ∃ r, Profile07.received config buffer = some r ∧
      (r.crcMatches = true ↔ Profile.p07.Sealed config buffer) := by
  refine ⟨_, by
    rw [Profile07.received, sizeOffset, counterOffset, dataIdOffset, crcOffset,
      readUintBe_eq (by omega), readUintBe_eq (by omega), readUintBe_eq (by omega),
      readUintBe_eq (by omega), Profile07.computeCrc_eq (by omega)]
    rfl, ?_⟩
  simp only [Profile.Sealed, SealedAt]
  rw [readUintBe_eq (by omega), Option.some_inj]
  exact decide_eq_true_iff

/-- A checker reads the header, and accepts the check value iff the buffer is sealed. -/
theorem Profile.received_eq {p : Profile} {config : p.Config} {inst : UInt16} {buffer : List UInt8}
    (h : p.HoldsHeader config buffer) : ∃ r, (p.checker config).received inst buffer = some r ∧
      (r.crcMatches = true ↔ p.Sealed config buffer) := by
  cases p with
  | p04 => exact Profile04.received_eq h
  | p05 => exact Profile05.received_eq h
  | p07 => exact Profile07.received_eq h

theorem Profile.Sealed.not_set {p : Profile} {config : p.Config} {buffer : List UInt8} {k : ℕ}
    {a : UInt8} (h : p.HoldsHeader config buffer) (hsealed : p.Sealed config buffer)
    (hk : k < buffer.length) (ha : buffer[k] ≠ a) : ¬ p.Sealed config (buffer.set k a) := by
  cases p with
  | p04 =>
      have hfield : Profile04.Config.offset config + 12 ≤ buffer.length := h
      exact SealedAt.not_set lossless_profile04 (by decide) (by omega) hsealed hk ha
  | p05 =>
      have hfield : Profile05.Config.offset config + 3 ≤ buffer.length := h
      exact SealedAt.not_set lossless_profile05 (by decide) (by omega) hsealed hk ha
  | p07 =>
      have hfield : Profile07.Config.offset config + 20 ≤ buffer.length := h
      exact SealedAt.not_set lossless_profile07 (by decide) (by omega) hsealed hk ha

/-! ### The verdict -/

section Verdict

variable {w : ℕ} {checker : Checker w} {counter : Counters w} {inst : UInt16} {buffer : List UInt8}

theorem Checker.judge_wrongCrc_iff {r : Received w} :
    (checker.judge counter inst r).1 = .wrongCrc ↔ r.crcMatches = false := by
  rw [judge]
  rcases r.crcMatches with _ | _
  · simp
  · by_cases hid : r.identified = true
    · simp only [hid, not_true_eq_false, if_false, if_true]
      split_ifs <;> simp
    · simp [hid]

end Verdict

/-- **One changed byte.** Let `check` report anything but a wrong check value for a buffer that holds
the header. With one byte replaced by another value it reports a wrong check value exactly for the
instances and lengths the profile admits, whatever counters the checker has by then. -/
theorem corruption_reported_iff (p : Profile) (config : p.Config) (counter counter' : Counters p.width)
    (inst : UInt16) (buffer : List UInt8) (k : ℕ) (a : UInt8) (status : CheckStatus)
    (next : Counters p.width) (hheader : p.HoldsHeader config buffer)
    (hcheck : (p.checker config).check counter buffer inst = some (status, next))
    (hstatus : status ≠ .wrongCrc) (hk : k < buffer.length) (ha : buffer[k] ≠ a) :
    (∃ next', (p.checker config).check counter' (buffer.set k a) inst = some (.wrongCrc, next')) ↔
      (p.checker config).admits inst buffer = true := by
  have hheader' : p.HoldsHeader config (buffer.set k a) := by
    rwa [Profile.HoldsHeader, List.length_set]
  obtain ⟨r, hr, hcrc⟩ := @Profile.received_eq p config inst _ hheader
  obtain ⟨r', hr', hcrc'⟩ := @Profile.received_eq p config inst _ hheader'
  rw [Checker.check, Profile.admits_of_length_eq (List.length_set ..)]
  rw [Checker.check] at hcheck
  by_cases hadmits : (p.checker config).admits inst buffer = true
  · rw [if_pos hadmits, hr, Option.map_some, Option.some_inj] at hcheck
    rw [if_pos hadmits, hr', Option.map_some]
    have hsealed : p.Sealed config buffer := by
      rw [← hcrc]
      by_contra hne
      apply hstatus
      have hfst : ((p.checker config).judge counter inst r).1 = status := congrArg Prod.fst hcheck
      rw [← hfst]
      exact Checker.judge_wrongCrc_iff.mpr (Bool.eq_false_of_not_eq_true hne)
    have hbroken : r'.crcMatches = false :=
      Bool.eq_false_of_not_eq_true fun h => hsealed.not_set hheader hk ha (hcrc'.mp h)
    refine iff_of_true ⟨((p.checker config).judge counter' inst r').2, ?_⟩ hadmits
    rw [← Checker.judge_wrongCrc_iff.mpr hbroken]
  · rw [if_neg hadmits]
    refine iff_of_false ?_ hadmits
    rintro ⟨next', ⟨⟩⟩

/-- A buffer of profile 05 with its header and three bytes behind it. -/
theorem corruption_reported_iff_six :
    (∃ next', (Profile.p05.checker (⟨0, 0, 0, 1⟩ : Profile05.Config)).check ∅
        (([16, 121, 0, 1, 2, 3] : List UInt8).set 4 7) 1 = some (.wrongCrc, next')) ↔ true = true :=
  corruption_reported_iff .p05 (⟨0, 0, 0, 1⟩ : Profile05.Config) ∅ ∅ 1 [16, 121, 0, 1, 2, 3] 4 7 .ok
    _ (by decide) rfl (by decide) (by decide) (by decide)

/-- A buffer that is shorter than the configured minimum: `check` answers the same with and without a
changed byte. -/
theorem short_buffer_not_looked_at :
    let config : Profile04.Config := ⟨0, 0, 100, 0xffff, 1⟩
    let buffer : List UInt8 := List.replicate 12 0
    Profile.p04.HoldsHeader config buffer ∧ buffer.length ≤ config.maxDataLength ∧
      (Profile.p04.checker config).check ∅ buffer 1 = some (.error, ∅) ∧
      (Profile.p04.checker config).check ∅ (buffer.set 0 1) 1 = some (.error, ∅) :=
  ⟨by decide, by decide, rfl, rfl⟩

end SomeipTunnel.E2e
