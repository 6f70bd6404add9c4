import SomeipTunnel.Sd.Builder
import SomeipTunnel.Sd.Parsing

/-!
# Messages are read back

What is read from the bytes of a message are its options and its entries, each up to the ends of its
runs (`deserialize_serialize`): the number of a run has four bits on the wire. A message that was
built by calls of `add_entry_data` is thus preserved iff the options behind the ends of the runs are
among those in front of them (`preserved_iff_runsFit`), which holds of all entries with fewer than
sixteen options to a run.
-/

namespace SomeipTunnel.Sd

open Codec Cursor Cursor.Parse List Someip

/-! ### Reading what was written -/

/-- The message fits the format. -/
structure SdMessage.WellFormed (m : SdMessage) : Prop where
  entries : ∀ e ∈ m.entries, e.WellFormed
  options : ∀ o ∈ m.options, o.WellFormed
  size : entrySize * m.entries.length + 4 + m.optionsLength < 2 ^ 32

/-- What is read of a message. -/
def SdMessage.received (m : SdMessage) : SdMessage :=
  { m with header := { m.header with length := m.getLength }, entries := m.entries.map Entry.received }

theorem length_flatMap_entries (es : List Entry) :
    (es.flatMap Entry.serialize).length = entrySize * es.length := by
  simp only [length_flatMap, length_serialize_entry, map_const', sum_replicate_nat]
  exact Nat.mul_comm _ _

theorem length_flatMap_options {m : SdMessage} (h : m.WellFormed) :
    (m.options.flatMap SdOption.serialize).length = m.optionsLength := by
  rw [length_flatMap, SdMessage.optionsLength]
  congr 1
  exact map_congr_left fun o ho => length_serialize_option (h.options o ho)

/-- The front of the bytes of a message. -/
theorem run_front (m : SdMessage) : front.run m.serialize = some
    (({ m.header with length := m.getLength }, m.flags,
      UInt32.ofNat (entrySize * m.entries.length)),
      m.entries.flatMap Entry.serialize ++ (serialize32 (UInt32.ofNat m.optionsLength) false ++
        m.options.flatMap SdOption.serialize)) := by
  have hreads : Reads front (m.header.serialize m.getLength ++ (serialize8 m.flags ++
      (serialize32 0 true ++ serialize32 (UInt32.ofNat (entrySize * m.entries.length)) false)))
      ({ m.header with length := m.getLength }, m.flags,
        UInt32.ofNat (entrySize * m.entries.length)) :=
    (reads_header { m.header with length := m.getLength }).bind <| (reads_byte _).bind <|
      (reads_long_of_lt (x := 0) (by decide)).bind <| (reads_long _).check (reads_pure _)
  have := hreads (m.entries.flatMap Entry.serialize ++
    (serialize32 (UInt32.ofNat m.optionsLength) false ++ m.options.flatMap SdOption.serialize))
  simpa only [SdMessage.serialize, append_assoc] using this

theorem toNat_ofNat_lt {n : ℕ} (h : n < 2 ^ 32) : (UInt32.ofNat n).toNat = n :=
  UInt32.toNat_ofNat_of_lt' h

/-- Two arrays behind their lengths are taken apart. -/
theorem arrays_append {E O : List UInt8} {es : List Entry}
    (hentries : (Codec.many entry (E.length + 1)).run E = some (es, []))
    (hsize : E.length + 4 + O.length < 2 ^ 32) :
    arrays (UInt32.ofNat E.length) (E ++ (serialize32 (UInt32.ofNat O.length) false ++ O)) =
      some (es, O) := by
  have hlong : (serialize32 (UInt32.ofNat O.length) false).length = 4 := length_toBytes _ _
  have hbehind : (serialize32 (UInt32.ofNat O.length) false ++ O).length = 4 + O.length := by
    rw [length_append, hlong]
  have hn : (UInt32.ofNat E.length).toNat = E.length := toNat_ofNat_lt (by omega)
  have hb : (UInt32.ofNat (E.length + (4 + O.length))).toNat = E.length + (4 + O.length) :=
    toNat_ofNat_lt (by omega)
  have hle : UInt32.ofNat E.length ≤ UInt32.ofNat (E.length + (4 + O.length)) := by
    rw [UInt32.le_iff_toNat_le, hn, hb]
    exact Nat.le_add_right _ _
  have hsub : (UInt32.ofNat (E.length + (4 + O.length)) - UInt32.ofNat E.length).toNat =
      4 + O.length := by
    rw [UInt32.toNat_sub_of_le _ _ hle, hn, hb, Nat.add_sub_cancel_left]
  have hne : serialize32 (UInt32.ofNat O.length) false ++ O ≠ [] :=
    ne_nil_of_length_pos (by omega)
  unfold arrays
  rw [length_append, hbehind, if_neg (UInt32.not_lt.mpr hle), hn, hsub, take_left,
    drop_left, hentries]
  dsimp only
  rw [take_of_length_le hbehind.le, if_neg hne, reads_long _ O]
  dsimp only
  rw [toNat_ofNat_lt (by omega), take_length]

/-- The parts of the bytes of a message. -/
theorem parts_serialize {m : SdMessage} (h : m.WellFormed) :
    parts m.serialize = some ⟨{ m.header with length := m.getLength }, m.flags,
      m.entries.map Entry.received, m.options.flatMap SdOption.serialize⟩ := by
  have hentries := length_flatMap_entries m.entries
  have hoptions := length_flatMap_options h
  have hreads : ∀ e ∈ m.entries, Reads entry e.serialize e.received ∧ e.serialize ≠ [] :=
    fun e he => ⟨reads_entry (h.entries e he),
      ne_nil_of_length_pos (length_serialize_entry e ▸ by decide)⟩
  have hmany := run_many m.entries hreads
    (Nat.lt_succ_of_le (length_le_flatMap fun e he => (hreads e he).2))
  have hsize := h.size
  rw [← hentries, ← hoptions] at hsize
  rw [parts, run_front, ← hentries, ← hoptions]
  dsimp only
  rw [arrays_append hmany hsize]
  rfl

/-- **A message is read back**, its entries up to the ends of their runs. -/
theorem deserialize_serialize {m : SdMessage} (h : m.WellFormed) :
    ∃ c, deserialize (start m.serialize) = .ok (some m.received, c) := by
  have hreads : ∀ o ∈ m.options, Reads option o.serialize (id o) ∧ o.serialize ≠ [] :=
    fun o ho => ⟨reads_option (h.options o ho), ne_nil_of_length_pos (by
      rw [length_serialize_option (h.options o ho)]
      exact Nat.succ_pos _)⟩
  obtain ⟨hgather, hstarts⟩ := gather_flatMap m.options hreads
    (Nat.lt_succ_of_le (length_le_flatMap fun o ho => (hreads o ho).2))
  have h2 : ∀ rest ∈ optionStarts (m.options.flatMap SdOption.serialize), rest.length ≠ 2 := by
    intro rest hrest
    obtain ⟨o, ho, hle⟩ := hstarts rest hrest
    rw [SdOption.serialize, length_append, length_serializeHeader] at hle
    omega
  obtain ⟨c, hrun, -⟩ := deserialize_eq (parts_serialize h) h2
  refine ⟨c, hrun.trans ?_⟩
  rw [Parts.message, optionsOf, hgather, map_id]
  rfl

/-! ### Preservation -/

namespace SdMessage

/-- The options of a message at some indices. -/
def addressed (m : SdMessage) (indices : List ℕ) : List SdOption :=
  indices.filterMap fun (i : ℕ) => m.getOption (i : ℤ)

theorem getOption_natCast (m : SdMessage) (i : ℕ) : m.getOption i = m.options[i]? := by
  unfold getOption
  rw [if_pos (by omega), Int.toNat_natCast]
  split_ifs with h
  · rfl
  · exact (List.getElem?_eq_none (Nat.le_of_not_lt h)).symm

theorem mem_addressed {m : SdMessage} {indices : List ℕ} {o : SdOption} :
    o ∈ m.addressed indices ↔ ∃ i ∈ indices, m.options[i]? = some o := by
  simp only [addressed, mem_filterMap, getOption_natCast]

theorem addressed_subset {m : SdMessage} {indices indices' : List ℕ} (h : indices ⊆ indices') :
    m.addressed indices ⊆ m.addressed indices' := by
  intro o ho
  obtain ⟨i, hi, hget⟩ := mem_addressed.mp ho
  exact mem_addressed.mpr ⟨i, h hi, hget⟩

/-- Every option of an entry is one of those in front of the ends of its runs. -/
def RunsFit (m : SdMessage) : Prop :=
  ∀ e ∈ m.entries, ∀ o ∈ m.addressed (e.run1 ++ e.run2),
    o ∈ m.addressed (Entry.kept e.run1 ++ Entry.kept e.run2)

instance (m : SdMessage) : Decidable m.RunsFit :=
  inferInstanceAs (Decidable (∀ e ∈ m.entries, ∀ o ∈ m.addressed (e.run1 ++ e.run2),
    o ∈ m.addressed (Entry.kept e.run1 ++ Entry.kept e.run2)))

end SdMessage

/-- What relates two lists item by item can be said of the second alone, if the first is determined
by another relation. -/
theorem forall₂_iff_forall {α β : Type} {R Q : α → β → Prop} {P : β → Prop} {as : List α}
    {bs : List β} (h : List.Forall₂ R as bs) (hP : ∀ a b, R a b → (Q a b ↔ P b)) :
    List.Forall₂ Q as bs ↔ ∀ b ∈ bs, P b := by
  induction h with
  | nil => exact iff_of_true .nil fun _ hb => nomatch hb
  | cons hab _ ih => rw [forall₂_cons, forall_mem_cons, hP _ _ hab, ih]

/-- The entry that is received has the type, the ids, the versions and the TTL of the one that was
sent. -/
def Entry.SameAs (sent received : Entry) : Prop :=
  received.type = sent.type ∧ received.service = sent.service ∧ received.inst = sent.inst ∧
    received.majorVersion = sent.majorVersion ∧ received.ttl = sent.ttl ∧
      match sent.detail, received.detail with
      | .service minorVersion, .service minorVersion' => minorVersion' = minorVersion
      | .eventgroup _ eventgroup, .eventgroup _ eventgroup' => eventgroup' = eventgroup
      | _, _ => False

/-- The bytes of the message are read as a message with the entries that were sent, each with the
options it was sent with. -/
def Preserved (heap : ℕ → SdOption) (sent : List (Entry × List ℕ)) (m : SdMessage) : Prop :=
  ∃ m' c, deserialize (start m.serialize) = .ok (some m', c) ∧
    List.Forall₂ (fun s e => s.1.SameAs e ∧
      ∀ o, o ∈ m'.addressed (e.run1 ++ e.run2) ↔ o ∈ s.2.map heap) sent m'.entries

namespace Builder

variable {heap : ℕ → SdOption} {b : Builder} {s : Entry × List ℕ} {e : Entry}

theorem Carries.wellFormed (h : Carries heap b.options s e) : e.WellFormed := by
  obtain ⟨keys, hassigned, -⟩ := h.assigned
  have hlt : ∀ i ∈ e.run1 ++ e.run2, i < 256 := fun i hi => (hassigned.below i hi).1
  refine ⟨?_, ?_, hassigned.isRun1, hassigned.isRun2, fun i hi => hlt i (mem_append_left _ hi),
    fun i hi => hlt i (mem_append_right _ hi)⟩
  · rw [hassigned.same]
    exact h.fresh.ofKind
  · rw [hassigned.same]
    exact h.fresh.ttl

theorem Carries.sameAs (h : Carries heap b.options s e) : s.1.SameAs e.received := by
  obtain ⟨keys, hassigned, -⟩ := h.assigned
  rw [hassigned.same]
  refine ⟨rfl, rfl, rfl, rfl, rfl, ?_⟩
  rcases s.1.detail with minorVersion | ⟨reserved, eventgroup⟩ <;> rfl

/-- An entry addresses the options it was sent with. -/
theorem Carries.mem_addressed (h : Carries heap b.options s e) (header : Header) (flags : UInt8)
    (o : SdOption) :
    o ∈ (b.message heap header flags).addressed (e.run1 ++ e.run2) ↔ o ∈ s.2.map heap := by
  obtain ⟨keys, hassigned, hkeys⟩ := h.assigned
  have hholds : (∃ a, (∃ i ∈ e.run1 ++ e.run2, b.options[i]? = some a) ∧ heap a = o) ↔
      Holds heap s.2 o := by
    rw [← hkeys]
    exact exists_congr fun a => and_congr_left' (hassigned.exact a)
  rw [mem_map, SdMessage.mem_addressed]
  refine Iff.trans ?_ hholds
  simp only [Builder.message, List.getElem?_map, Option.map_eq_some_iff]
  constructor
  · rintro ⟨i, hi, a, ha, rfl⟩
    exact ⟨a, ⟨i, hi, ha⟩, rfl⟩
  · rintro ⟨a, ⟨i, hi, ha⟩, rfl⟩
    exact ⟨i, hi, a, ha, rfl⟩

theorem Built.wellFormed {sent : List (Entry × List ℕ)} (h : Built heap sent b)
    (hheap : ∀ a, (heap a).WellFormed) (header : Header) (flags : UInt8) :
    (b.message heap header flags).WellFormed where
  entries := (forall₂_iff_forall h.carries fun _ _ hc => iff_of_true hc hc.wellFormed).mp h.carries
  options o ho := by
    obtain ⟨a, -, rfl⟩ := mem_map.mp ho
    exact hheap a
  size := by
    have hsize := h.size
    have hlimit := h.limit
    have hoptions : (b.message heap header flags).optionsLength =
        (b.options.map fun a => (heap a).getSize).sum := by
      rw [SdMessage.optionsLength, Builder.message, map_map]
      rfl
    rw [hoptions]
    unfold maxUdpSdPayload at hlimit
    change entrySize * b.entries.length + 4 + _ < 2 ^ 32
    omega

theorem subset_runs (e : Entry) : Entry.kept e.run1 ++ Entry.kept e.run2 ⊆ e.run1 ++ e.run2 := by
  intro i hi
  rcases mem_append.mp hi with hi | hi
  · exact mem_append_left _ (mem_of_mem_take hi)
  · exact mem_append_right _ (mem_of_mem_take hi)

/-- **A message that was built is preserved** iff its runs fit. -/
theorem Built.preserves_iff {sent : List (Entry × List ℕ)} (h : Built heap sent b)
    (hheap : ∀ a, (heap a).WellFormed) (header : Header) (flags : UInt8) :
    Preserved heap sent (b.message heap header flags) ↔ (b.message heap header flags).RunsFit := by
  obtain ⟨c, hrun⟩ := deserialize_serialize (h.wellFormed hheap header flags)
  -- what is read are the entries of the message, each up to the ends of its runs
  have hread : Preserved heap sent (b.message heap header flags) ↔
      List.Forall₂ (fun s e => s.1.SameAs e.received ∧
        ∀ o, o ∈ (b.message heap header flags).addressed (Entry.kept e.run1 ++ Entry.kept e.run2) ↔
          o ∈ s.2.map heap) sent b.entries := by
    unfold Preserved
    rw [hrun]
    constructor
    · rintro ⟨m', c', heq, hforall⟩
      cases heq
      exact forall₂_map_right_iff.mp hforall
    · exact fun hforall => ⟨_, c, rfl, forall₂_map_right_iff.mpr hforall⟩
  rw [hread]
  refine forall₂_iff_forall h.carries fun s e hcarries => ?_
  have hsent := hcarries.mem_addressed header flags
  constructor
  · rintro ⟨-, hkept⟩ o ho
    exact (hkept o).mpr ((hsent o).mp ho)
  · intro hkept
    refine ⟨hcarries.sameAs, fun o => ?_⟩
    rw [← hsent o]
    exact ⟨fun ho => SdMessage.addressed_subset (subset_runs e) ho, hkept o⟩

end Builder

/-- **Messages are preserved** iff, in every entry, the options behind the first `n % 16` of the `n`
indices of a run are among the options in front of them. -/
theorem preserved_iff_runsFit {heap : ℕ → SdOption} (hheap : ∀ a, (heap a).WellFormed)
    {calls : List Builder.Call} (hfresh : ∀ c ∈ calls, c.Fresh) {b : Builder}
    (hbuild : Builder.build heap calls = some b) (header : Header) (flags : UInt8) :
    Preserved heap (calls.flatMap Builder.Call.sent) (b.message heap header flags) ↔
      (b.message heap header flags).RunsFit :=
  (Builder.built_of_build hfresh hbuild).preserves_iff hheap header flags

/-- An IPv4 endpoint for each address. -/
def endpoints (a : ℕ) : SdOption := ⟨9, .ip .v4 false [10, 0, 0, 1] .udp (UInt16.ofNat a)⟩

theorem wellFormed_endpoints (a : ℕ) : (endpoints a).WellFormed := ⟨rfl, rfl⟩

/-- An offer with the given options. -/
def offer (options : List ℕ) : Builder.Call :=
  ⟨⟨.offerService, 0x1111, 1, 1, 3, .service 0, [], []⟩, options, none⟩

theorem fresh_offer (options : List ℕ) : ∀ c ∈ [offer options], c.Fresh := by
  simp only [mem_singleton, forall_eq]
  rintro s hs
  obtain rfl := mem_singleton.mp hs
  exact ⟨rfl, (by decide : (3 : UInt32).toNat < 2 ^ 24), rfl, rfl⟩

/-- The header of a message. -/
def sdHeader : Header := ⟨0xFFFF, 0x8100, 0, 0, 1, 1, 1, 2, 0⟩

/-- The message with one offer and the first endpoints. -/
def offered (n : ℕ) : Builder :=
  ⟨[{ (offer []).entry with run1 := List.range n }], List.range n, 44 + 12 * n⟩

theorem preserved_iff_runsFit_offer :
    Builder.build endpoints [offer (List.range 3)] = some (offered 3) ∧
      Preserved endpoints ([offer (List.range 3)].flatMap Builder.Call.sent)
        ((offered 3).message endpoints sdHeader 0xC0) := by
  have hbuild : Builder.build endpoints [offer (List.range 3)] = some (offered 3) := by
    decide +kernel
  exact ⟨hbuild, (preserved_iff_runsFit wellFormed_endpoints (fresh_offer _) hbuild sdHeader
    0xC0).mpr (by decide +kernel)⟩

/-- **Sixteen options** in one run are none on the wire. -/
theorem sixteen_options : Builder.build endpoints [offer (List.range 16)] = some (offered 16) ∧
      ¬ Preserved endpoints ([offer (List.range 16)].flatMap Builder.Call.sent)
        ((offered 16).message endpoints sdHeader 0xC0) := by
  have hbuild : Builder.build endpoints [offer (List.range 16)] = some (offered 16) := by
    decide +kernel
  have hbuilt := Builder.built_of_build (fresh_offer _) hbuild
  refine ⟨hbuild, fun hpreserved => ?_⟩
  have hfit := (hbuilt.preserves_iff wellFormed_endpoints sdHeader 0xC0).mp hpreserved
  exact absurd hfit (by decide +kernel)

end SomeipTunnel.Sd
