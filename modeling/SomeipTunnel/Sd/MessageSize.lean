import SomeipTunnel.Lib.Run
import SomeipTunnel.Sd.RoundTrip

/-!
# The size of a message

`add_entry_data` counts what it adds in `current_message_size_` and refuses what would take it over
the limit (`add_of_fits`, `add_of_not_fits`). The count is never too small for the options as they
are when they are added (`Sized.add`). It is exact where no new option is given twice in one call,
since the option is appended once and counted twice.

Options are shared objects: `insert_subscription_ack` sets the clients of a selective option of a
message, which changes the bytes and not the count. `size_accounted` is about runs in which the
number of clients of an option in the message stays.
-/

namespace SomeipTunnel.Sd

open Codec List Someip StepRun

/-- The entry without its runs. -/
def Entry.bare (e : Entry) : Entry := { e with run1 := [], run2 := [] }

theorem Entry.bare_assignOption (e : Entry) (index : Option ℕ) :
    (e.assignOption index).2.bare = e.bare := by
  unfold Entry.assignOption
  split
  · split_ifs <;> rfl
  · rfl

variable {option : ℕ}

namespace Builder

variable {heap : ℕ → SdOption} {b : Builder} {c : Call}

/-! ### One call -/

theorem bare_foldl_placeOption (l : List (ℕ × Bool)) (acc : Bool × Entry × Builder) :
    (l.foldl placeOption acc).2.1.bare = acc.2.1.bare := by
  induction l generalizing acc with
  | nil => rfl
  | cons o l ih =>
      rw [foldl_cons, ih]
      exact Entry.bare_assignOption _ _

/-- The entries of a call. -/
def Call.entries (c : Call) : List Entry := c.entry :: c.other.toList

/-- What a call adds to the size.
Source: `message_impl::add_entry_data`, `its_entry_size` -/
def cost (heap : ℕ → SdOption) (b : Builder) (c : Call) : ℕ :=
  entrySize * c.entries.length + (b.itsOptions heap c.options).2

/-- The call, with whether it added its entries. -/
def add (heap : ℕ → SdOption) (b : Builder) (c : Call) : Bool × Builder :=
  ((b.addEntryData heap c.entry c.options c.other).1.1,
    (b.addEntryData heap c.entry c.options c.other).2)

theorem add_of_not_fits (h : maxUdpSdPayload < b.currentMessageSize + b.cost heap c) :
    b.add heap c = (false, b) := by
  obtain ⟨entry, options, other⟩ := c
  have hfull : b.currentMessageSize + ((if other.isSome then 2 * entrySize else entrySize) +
      (b.itsOptions heap options).2) > maxUdpSdPayload := by
    cases other <;> exact h
  simp only [add, addEntryData, hfull, if_true]

theorem add_of_fits (h : b.currentMessageSize + b.cost heap c ≤ maxUdpSdPayload) :
    ∃ es, es.map Entry.bare = c.entries.map Entry.bare ∧ b.add heap c = (true,
      ⟨b.entries ++ es, b.options ++ newOptions (b.itsOptions heap c.options).1,
        b.currentMessageSize + b.cost heap c⟩) := by
  obtain ⟨entry, options, other⟩ := c
  have hroom : ¬ b.currentMessageSize + ((if other.isSome then 2 * entrySize else entrySize) +
      (b.itsOptions heap options).2) > maxUdpSdPayload := by
    cases other <;> exact Nat.not_lt.mpr h
  have htable : (b.assignOptions entry (b.itsOptions heap options).1).2.2 =
      { b with options := b.options ++ newOptions (b.itsOptions heap options).1 } :=
    foldl_placeOption_snd _ _
  have hbare := bare_foldl_placeOption (b.itsOptions heap options).1 (true, entry, b)
  cases other with
  | none =>
      refine ⟨[(b.assignOptions entry (b.itsOptions heap options).1).2.1],
        congrArg (· :: []) hbare, ?_⟩
      simp only [add, addEntryData, hroom, if_false, htable]
      rfl
  | some other =>
      -- the other entry is assigned in the message that has the first one
      let first := b.assignOptions entry (b.itsOptions heap options).1
      let b₁ : Builder := ⟨b.entries ++ [first.2.1],
        b.options ++ newOptions (b.itsOptions heap options).1,
        b.currentMessageSize + b.cost heap ⟨entry, options, some other⟩⟩
      refine ⟨[first.2.1, (b₁.assignOptions other ((b.itsOptions heap options).1.map
        fun o => (o.1, false))).2.1], congrArg₂ (fun e e' => [e, e']) hbare
          (bare_foldl_placeOption _ _), ?_⟩
      simp only [add, addEntryData, hroom, if_false, htable]
      exact congrArg (fun es => (true, (⟨es, _, _⟩ : Builder))) (append_assoc _ _ _)

/-! ### The bytes of a message -/

/-- The number of bytes of the message. -/
def bulk (heap : ℕ → SdOption) (b : Builder) : ℕ :=
  28 + entrySize * b.entries.length + (b.options.map fun a => (heap a).getSize).sum

theorem length_serialize_message (heap : ℕ → SdOption) (b : Builder) (header : Header)
    (flags : UInt8) : (b.message heap header flags).serialize.length =
      28 + entrySize * b.entries.length + (b.options.map fun a => (heap a).serialize.length).sum := by
  have hoptions : ((b.options.map heap).flatMap SdOption.serialize).length =
      (b.options.map fun a => (heap a).serialize.length).sum := by
    rw [length_flatMap, map_map]
    rfl
  simp only [SdMessage.serialize, message, length_append, Someip.length_serialize,
    length_flatMap_entries, hoptions, serialize8, serialize32, length_toBytes, if_true,
    Bool.false_eq_true, if_false]
  omega

theorem length_serialize_of_wellFormed (hheap : ∀ a ∈ b.options, (heap a).WellFormed)
    (header : Header) (flags : UInt8) :
    (b.message heap header flags).serialize.length = b.bulk heap := by
  rw [length_serialize_message]
  exact congrArg (28 + entrySize * b.entries.length + ·)
    (congrArg List.sum (map_congr_left fun a ha => length_serialize_option (hheap a ha)))

/-- The length field counts eight bytes less, if there is an entry.
Source: `message_impl::get_length` -/
theorem toNat_getLength (hentries : b.entries ≠ []) (hsize : b.bulk heap < 2 ^ 32) (header : Header)
    (flags : UInt8) : (b.message heap header flags).getLength.toNat + 8 = b.bulk heap := by
  have hlength : (b.message heap header flags).optionsLength =
      (b.options.map fun a => (heap a).getSize).sum := by
    rw [SdMessage.optionsLength, message, List.map_map]
    rfl
  unfold SdMessage.getLength
  rw [hlength]
  simp only [message, List.isEmpty_iff, hentries, if_false]
  unfold bulk at hsize ⊢
  rw [toNat_ofNat_lt (by omega)]
  omega

theorem bulk_add (b : Builder) {es : List Entry} {c : Call} (hes : es.length = c.entries.length)
    (size : ℕ) : bulk heap ⟨b.entries ++ es,
      b.options ++ newOptions (b.itsOptions heap c.options).1, size⟩ =
    b.bulk heap + entrySize * c.entries.length +
      ((b.itsOptions heap c.options).1.map (newSize heap)).sum := by
  simp only [bulk, length_append, hes, Nat.mul_add, map_append, sum_append,
    sum_newOptions]
  omega

/-- The count is within the limit, and the bytes are within the count. -/
structure Sized (heap : ℕ → SdOption) (b : Builder) : Prop where
  bulk_le : b.bulk heap ≤ b.currentMessageSize
  limit : b.currentMessageSize ≤ maxUdpSdPayload

theorem Sized.empty (heap : ℕ → SdOption) : Sized heap empty := ⟨Nat.le_refl _, by decide⟩

theorem Sized.add (h : Sized heap b) (c : Call) : Sized heap (b.add heap c).2 := by
  by_cases hfit : b.currentMessageSize + b.cost heap c ≤ maxUdpSdPayload
  · obtain ⟨es, hes, hadd⟩ := add_of_fits hfit
    have hlength : es.length = c.entries.length := by
      simpa only [length_map] using congrArg List.length hes
    rw [hadd]
    refine ⟨?_, hfit⟩
    have hnew := (itsOptions_spec heap b c.options).2
    have hbulk := h.bulk_le
    rw [bulk_add b hlength]
    dsimp only [cost]
    omega
  · rw [add_of_not_fits (Nat.lt_of_not_le hfit)]
    exact h

/-! ### Counting exactly -/

/-- The options of a call that are not in the message. -/
def fresh (heap : ℕ → SdOption) (b : Builder) (options : List ℕ) : List ℕ :=
  options.filter fun a => (b.findOption heap a).isNone

theorem mem_of_findOption {a existing : ℕ} (h : b.findOption heap a = some existing) :
    (b.findOption heap existing).isSome := by
  rw [findOption, List.find?_isSome]
  exact ⟨existing, mem_of_find?_eq_some h, decide_eq_true rfl⟩

theorem mem_assignAt {isNew : Bool} {l : List (ℕ × Bool)} {o : ℕ × Bool}
    (h : o ∈ assignAt option isNew l) : o = (option, isNew) ∨ o ∈ l := by
  induction l with
  | nil => exact .inl (mem_singleton.mp h)
  | cons p l ih =>
      rw [assignAt] at h
      split_ifs at h with hlt heq
      · exact mem_cons.mp h
      · exact (mem_cons.mp h).imp_right (mem_cons_of_mem _)
      · rcases mem_cons.mp h with rfl | h
        · exact .inr mem_cons_self
        · exact (ih h).imp_right (mem_cons_of_mem _)

/-- An address that was not counted in the map is counted behind its assignment. -/
theorem sum_newSize_assignAt {isNew : Bool} {l : List (ℕ × Bool)}
    (h : ∀ o ∈ l, o.1 = option → o.2 = false) : ((assignAt option isNew l).map (newSize heap)).sum =
      (l.map (newSize heap)).sum + newSize heap (option, isNew) := by
  induction l with
  | nil => simp [assignAt]
  | cons p l ih =>
      obtain ⟨hp, hl⟩ := forall_mem_cons.mp h
      rw [assignAt]
      split_ifs with hlt heq
      · simp only [map_cons, sum_cons]
        omega
      · have hzero : newSize heap p = 0 := by
          rw [newSize, hp heq.symm]
          rfl
        simp only [map_cons, sum_cons, hzero]
        omega
      · simp only [map_cons, sum_cons, ih hl]
        omega

/-- **The size of the new options** is exact if none is given twice. -/
theorem sum_newSize_itsOptions {options : List ℕ} (h : (b.fresh heap options).Nodup) :
    ((b.itsOptions heap options).1.map (newSize heap)).sum = (b.itsOptions heap options).2 := by
  -- the new ones in the map are among the options before, none of which comes again
  have hloop : ∀ (options : List ℕ) (acc : List (ℕ × Bool) × ℕ),
      (b.fresh heap options).Nodup →
      (∀ o ∈ acc.1, o.2 = true → b.findOption heap o.1 = none ∧ o.1 ∉ options) →
      (acc.1.map (newSize heap)).sum = acc.2 →
        ((options.foldl (b.enterOption heap) acc).1.map (newSize heap)).sum =
          (options.foldl (b.enterOption heap) acc).2 := by
    intro options
    induction options with
    | nil => exact fun acc _ _ hsum => hsum
    | cons a options ih =>
        intro acc hnodup hacc hsum
        rw [foldl_cons]
        rcases hfind : b.findOption heap a with - | existing
        · rw [fresh, filter_cons_of_pos (by rw [hfind]; rfl)] at hnodup
          obtain ⟨hnotMem, hnodup⟩ := nodup_cons.mp hnodup
          have hnever : ∀ o ∈ acc.1, o.1 = a → o.2 = false := by
            intro o ho hoa
            refine Bool.eq_false_iff.mpr fun hnew => (hacc o ho hnew).2 ?_
            rw [hoa]
            exact mem_cons_self
          refine ih _ hnodup ?_ ?_
          · rw [enterOption, hfind]
            intro o ho hnew
            rcases mem_assignAt ho with rfl | ho
            · refine ⟨hfind, fun hmem => hnotMem (mem_filter.mpr ⟨hmem, ?_⟩)⟩
              rw [hfind]
              rfl
            · exact ⟨(hacc o ho hnew).1, fun hmem =>
                (hacc o ho hnew).2 (mem_cons_of_mem _ hmem)⟩
          · rw [enterOption, hfind]
            exact (sum_newSize_assignAt hnever).trans (congrArg (· + _) hsum)
        · rw [fresh, filter_cons_of_neg (by rw [hfind]; exact Bool.false_ne_true)] at hnodup
          have hnever : ∀ o ∈ acc.1, o.1 = existing → o.2 = false := by
            intro o ho hoa
            refine Bool.eq_false_iff.mpr fun hnew => ?_
            have hsome := mem_of_findOption hfind
            rw [← hoa, (hacc o ho hnew).1] at hsome
            cases hsome
          refine ih _ hnodup ?_ ?_
          · rw [enterOption, hfind]
            intro o ho hnew
            rcases mem_assignAt ho with rfl | ho
            · cases hnew
            · exact ⟨(hacc o ho hnew).1, fun hmem =>
                (hacc o ho hnew).2 (mem_cons_of_mem _ hmem)⟩
          · rw [enterOption, hfind]
            exact (sum_newSize_assignAt hnever).trans hsum
  exact hloop options ([], 0) h (fun _ ho => nomatch ho) rfl

end Builder

/-! ### Runs -/

/-- A message that is being built, with the option objects. -/
structure Building where
  message : Builder
  heap : ℕ → SdOption

/-- What happens to a message and to its options. -/
inductive Change
  | add (call : Builder.Call)
  | setClients (option : ℕ) (clients : List UInt16)

/-- Source: `selective_option_impl::set_clients` -/
def SdOption.setClients (o : SdOption) (clients : List UInt16) : SdOption :=
  match o.body with
  | .selective _ => ⟨UInt16.ofNat (1 + 2 * clients.length), .selective clients⟩
  | _ => o

namespace Building

/-- Source: `message_impl::add_entry_data`; `service_discovery_impl.cpp`,
`service_discovery_impl::insert_subscription_ack`, where an entry is found -/
def step (s : Building) : Change → Except Empty (Unit × Building)
  | .add c => .ok ((), { s with message := (s.message.add s.heap c).2 })
  | .setClients option clients => .ok ((),
      { s with heap := Function.update s.heap option ((s.heap option).setClients clients) })

/-- What `serialize` writes. -/
def bytes (s : Building) (header : Header) (flags : UInt8) : List UInt8 :=
  (s.message.message s.heap header flags).serialize

/-- The three views of the size agree: the bytes, the length field and `get_size`, which leaves out
`front` bytes. -/
def Accounted (front : ℕ) (s : Building) : Prop :=
  ∀ header flags,
    (s.bytes header flags).length =
      (s.message.message s.heap header flags).getLength.toNat + 8 ∧
    s.message.currentMessageSize = (s.bytes header flags).length - front ∧
    s.message.currentMessageSize ≤ maxUdpSdPayload

/-- The step leads to such a state. -/
def Leads (P : Building → Prop) (s : Building) (i : Change) : Prop :=
  ∀ o s', s.step i = .ok (o, s') → P s'

/-- There is an entry behind the step. No new option is given twice in one call; the clients of a
selective option fit its length, and of an option of the message their number stays. -/
def Counts (s : Building) : Change → Prop
  | .add c => (s.message.fresh s.heap c.options).Nodup ∧
      (s.message.entries = [] →
        s.message.currentMessageSize + s.message.cost s.heap c ≤ maxUdpSdPayload)
  | .setClients option clients => s.message.entries ≠ [] ∧ clients.Pairwise (fun c d => clientLt c d = true) ∧
      1 + 2 * clients.length < 2 ^ 16 ∧ (option ∈ s.message.options →
        ∀ old, (s.heap option).body = .selective old → clients.length = old.length)

/-- The count is the number of bytes. -/
structure Exact (s : Building) : Prop where
  wellFormed : ∀ a, (s.heap a).WellFormed
  size : s.message.currentMessageSize = s.message.bulk s.heap
  limit : s.message.currentMessageSize ≤ maxUdpSdPayload

variable {clients : List UInt16} {s : Building}

theorem Exact.accounted (h : s.Exact) (hentries : s.message.entries ≠ []) : s.Accounted 0 := by
  intro header flags
  have hlength : (s.bytes header flags).length = s.message.bulk s.heap :=
    Builder.length_serialize_of_wellFormed (fun a _ => h.wellFormed a) header flags
  have hsmall : s.message.bulk s.heap < 2 ^ 32 := by
    rw [← h.size]
    exact Nat.lt_of_le_of_lt h.limit (by decide)
  rw [hlength]
  exact ⟨(Builder.toNat_getLength hentries hsmall header flags).symm, h.size, h.limit⟩

theorem Exact.add (h : s.Exact) {c : Builder.Call}
    (hfresh : (s.message.fresh s.heap c.options).Nodup) :
    Exact { s with message := (s.message.add s.heap c).2 } := by
  by_cases hfit : s.message.currentMessageSize + s.message.cost s.heap c ≤ maxUdpSdPayload
  · obtain ⟨es, hes, hadd⟩ := Builder.add_of_fits hfit
    have hlength : es.length = c.entries.length := by
      simpa only [length_map] using congrArg List.length hes
    rw [hadd]
    refine ⟨h.wellFormed, ?_, hfit⟩
    dsimp only
    rw [Builder.bulk_add s.message hlength, Builder.sum_newSize_itsOptions hfresh, h.size,
      Builder.cost]
    omega
  · rw [Builder.add_of_not_fits (Nat.lt_of_not_le hfit)]
    exact h

theorem wellFormed_setClients {o : SdOption} (h : o.WellFormed)
    (hsorted : clients.Pairwise fun c d => clientLt c d = true)
    (hfits : 1 + 2 * clients.length < 2 ^ 16) : (o.setClients clients).WellFormed := by
  unfold SdOption.setClients
  split
  · exact ⟨UInt16.toNat_ofNat_of_lt' hfits, hsorted⟩
  · exact h

theorem getSize_setClients {o : SdOption} (h : o.WellFormed)
    (hfits : 1 + 2 * clients.length < 2 ^ 16)
    (hsame : ∀ old, o.body = .selective old → clients.length = old.length) :
    (o.setClients clients).getSize = o.getSize := by
  unfold SdOption.setClients SdOption.getSize
  split
  case h_1 old hbody =>
    rw [h.1, hbody, Body.length, ← hsame old hbody]
    exact congrArg (· + 3) (UInt16.toNat_ofNat_of_lt' hfits)
  case h_2 => rfl

theorem Exact.setClients (h : s.Exact) (hcounts : s.Counts (.setClients option clients)) :
    Exact { s with heap := Function.update s.heap option ((s.heap option).setClients clients) } := by
  obtain ⟨-, hsorted, hfits, hsame⟩ := hcounts
  refine ⟨fun a => ?_, h.size.trans ?_, h.limit⟩
  · by_cases ha : a = option
    · subst ha
      simpa only [Function.update_self] using
        wellFormed_setClients (h.wellFormed a) hsorted hfits
    · simpa only [Function.update_of_ne ha] using h.wellFormed a
  · refine congrArg (28 + entrySize * s.message.entries.length + ·)
      (congrArg List.sum (map_congr_left fun a ha => ?_))
    by_cases hao : a = option
    · subst hao
      simp only [Function.update_self, getSize_setClients (h.wellFormed a) hfits (hsame ha)]
    · simp only [Function.update_of_ne hao]

/-- There is an entry behind a step that counts. -/
theorem entries_add {c : Builder.Call} (h : s.Counts (.add c)) :
    (s.message.add s.heap c).2.entries ≠ [] := by
  by_cases hfit : s.message.currentMessageSize + s.message.cost s.heap c ≤ maxUdpSdPayload
  · obtain ⟨es, hes, hadd⟩ := Builder.add_of_fits hfit
    rw [hadd]
    refine append_ne_nil_of_right_ne_nil _ fun hnil => ?_
    rw [hnil] at hes
    cases hes
  · rw [Builder.add_of_not_fits (Nat.lt_of_not_le hfit)]
    exact fun hnil => hfit (h.2 hnil)

end Building

/-- **The sizes agree** in every state of a run whose steps all count. -/
theorem size_accounted {heap : ℕ → SdOption} (hheap : ∀ a, (heap a).WellFormed)
    (changes : List Change) (h : AllSteps Building.step Building.Counts ⟨.empty, heap⟩ changes) :
    AllSteps Building.step (Building.Leads (Building.Accounted 0)) ⟨.empty, heap⟩ changes := by
  refine AllSteps.of_invariant Building.Exact ?_ ?_ ⟨hheap, rfl, (Builder.Sized.empty heap).limit⟩ h
  · rintro s (c | ⟨option, clients⟩) o s' hs hcounts ⟨⟩
    · exact hs.add hcounts.1
    · exact hs.setClients hcounts
  · rintro s (c | ⟨option, clients⟩) hs hcounts o s' ⟨⟩
    · exact (hs.add hcounts.1).accounted (Building.entries_add hcounts)
    · exact (hs.setClients hcounts).accounted hcounts.1

/-- A selective option for client 5 at each address. -/
def selectiveHeap (_ : ℕ) : SdOption := ⟨3, .selective [5]⟩

theorem wellFormed_selectiveHeap (a : ℕ) : (selectiveHeap a).WellFormed :=
  ⟨rfl, pairwise_singleton _ _⟩

/-- An acknowledgement with a selective option. -/
def ackCall : Builder.Call :=
  ⟨⟨.subscribeEventgroupAck, 0x1111, 1, 1, 3, .eventgroup 0 1, [], []⟩, [0], none⟩

theorem size_accounted_same_number :
    AllSteps Building.step (Building.Leads (Building.Accounted 0)) ⟨.empty, selectiveHeap⟩
      [.add ackCall, .setClients 0 [6]] := by
  refine size_accounted wellFormed_selectiveHeap _ ⟨⟨by decide, by decide⟩, ?_⟩
  rintro o s' ⟨⟩
  refine ⟨⟨by decide, by decide, by decide, fun _ old hold => ?_⟩, fun _ _ _ => trivial⟩
  cases hold
  rfl

/-- **A second client** for the option of an entry in the message: whatever constant part `get_size`
leaves out, it was right before and is not behind it. -/
theorem option_grows_uncounted :
    ¬ ∃ front, AllSteps Building.step (Building.Leads (Building.Accounted front))
      ⟨.empty, selectiveHeap⟩ [.add ackCall, .setClients 0 [5, 6]] := by
  rintro ⟨front, hadd, hset⟩
  have hbefore := (hadd _ _ rfl sdHeader 0xC0).2.1
  have hbehind := ((hset _ _ rfl).1 _ _ rfl sdHeader 0xC0).2.1
  have hbefore' : 50 = 50 - front := hbefore
  have hbehind' : 50 = 52 - front := hbehind
  omega

end SomeipTunnel.Sd
