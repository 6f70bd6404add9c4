import SomeipTunnel.Sd.EntryCodec
import SomeipTunnel.Sd.Message

/-!
# What a message is built of

`Carries heap table sent e`: the entry `e` of a message is the one that was sent with the options
`sent`, and its runs address exactly these options in the option table of the message. A call of
`add_entry_data` that places every option adds entries that carry their options, and keeps what the
entries before it carry, since the table only grows at its end.

* `Built.add`: one call.
* `built_of_build`: any sequence of calls.
-/

namespace SomeipTunnel.Sd

open List

/-- An entry object as it is before it is added: the class fits the type, the TTL the format, and no
option is assigned. -/
structure Entry.Fresh (e : Entry) : Prop where
  ofKind : e.OfKind
  ttl : e.ttl.toNat < 2 ^ 24
  run1 : e.run1 = []
  run2 : e.run2 = []

namespace Builder

variable {heap : ℕ → SdOption}

/-! ### The options of a call -/

variable {b : Builder} {e : Entry} {a : ℕ}

theorem mem_keys_assignAt {option : ℕ} {isNew : Bool} (l : List (ℕ × Bool)) :
    a ∈ (assignAt option isNew l).map Prod.fst ↔ a = option ∨ a ∈ l.map Prod.fst := by
  induction l with
  | nil => simp [assignAt]
  | cons o rest ih =>
      rw [assignAt]
      split_ifs with hlt heq
      · simp
      · simp [heq]
      · rw [map_cons, mem_cons, ih, map_cons, mem_cons]
        exact or_left_comm

/-- What an option adds to the size. -/
def newSize (heap : ℕ → SdOption) (o : ℕ × Bool) : ℕ := if o.2 then (heap o.1).getSize else 0

theorem sum_newSize_assignAt_le (option : ℕ) (isNew : Bool) (l : List (ℕ × Bool)) :
    ((assignAt option isNew l).map (newSize heap)).sum ≤
      (l.map (newSize heap)).sum + newSize heap (option, isNew) := by
  induction l with
  | nil => simp [assignAt]
  | cons o rest ih =>
      rw [assignAt]
      split_ifs
      · simp only [map_cons, sum_cons]
        omega
      · simp only [map_cons, sum_cons]
        omega
      · simp only [map_cons, sum_cons]
        omega

/-- The options in the map of a call, by their contents. -/
def Holds (heap : ℕ → SdOption) (keys : List ℕ) (o : SdOption) : Prop := ∃ a ∈ keys, heap a = o

theorem holds_cons {keys : List ℕ} {o : SdOption} :
    Holds heap (a :: keys) o ↔ heap a = o ∨ Holds heap keys o := by
  simp only [Holds, mem_cons, exists_eq_or_imp]

theorem heap_of_findOption {option existing : ℕ}
    (h : b.findOption heap option = some existing) : heap existing = heap option := by
  have := List.find?_some h
  exact of_decide_eq_true this

theorem enterOption_spec (heap : ℕ → SdOption) (b : Builder) (acc : List (ℕ × Bool) × ℕ)
    (option : ℕ) : (∀ o, Holds heap ((b.enterOption heap acc option).1.map Prod.fst) o ↔
      heap option = o ∨ Holds heap (acc.1.map Prod.fst) o) ∧
    ((acc.1.map (newSize heap)).sum ≤ acc.2 →
      ((b.enterOption heap acc option).1.map (newSize heap)).sum ≤
        (b.enterOption heap acc option).2) := by
  unfold enterOption Holds
  rcases hfind : b.findOption heap option with - | existing
  · refine ⟨fun o => ?_, fun h => ?_⟩
    · simp only [mem_keys_assignAt, exists_eq_or_imp]
    · exact (sum_newSize_assignAt_le option true acc.1).trans (Nat.add_le_add_right h _)
  · refine ⟨fun o => ?_, fun h => ?_⟩
    · simp only [mem_keys_assignAt, exists_eq_or_imp, heap_of_findOption hfind]
    · exact (sum_newSize_assignAt_le existing false acc.1).trans h

/-- **The map of a call** has the options that the call gives, by their contents, and the size counts
the new ones. -/
theorem itsOptions_spec (heap : ℕ → SdOption) (b : Builder) (options : List ℕ) :
    (∀ o, Holds heap ((b.itsOptions heap options).1.map Prod.fst) o ↔ Holds heap options o) ∧
      ((b.itsOptions heap options).1.map (newSize heap)).sum ≤ (b.itsOptions heap options).2 := by
  have hloop : ∀ (options : List ℕ) (acc : List (ℕ × Bool) × ℕ),
      (acc.1.map (newSize heap)).sum ≤ acc.2 →
        (∀ o, Holds heap ((options.foldl (b.enterOption heap) acc).1.map Prod.fst) o ↔
          Holds heap (acc.1.map Prod.fst) o ∨ Holds heap options o) ∧
        ((options.foldl (b.enterOption heap) acc).1.map (newSize heap)).sum ≤
          (options.foldl (b.enterOption heap) acc).2 := by
    intro options
    induction options with
    | nil => exact fun acc h => ⟨fun o => by simp [Holds], h⟩
    | cons option options ih =>
        intro acc h
        obtain ⟨hkeys, hsize⟩ := enterOption_spec heap b acc option
        obtain ⟨hkeys', hsize'⟩ := ih _ (hsize h)
        refine ⟨fun o => ?_, hsize'⟩
        rw [foldl_cons, hkeys', hkeys, holds_cons, or_assoc]
        exact or_left_comm
  obtain ⟨hkeys, hsize⟩ := hloop options ([], 0) (Nat.le_refl 0)
  refine ⟨fun o => (hkeys o).trans ?_, hsize⟩
  simp [Holds]

/-! ### Assigning the options -/

/-- The entry is the fresh one with runs that address the keys in the table. -/
structure Assigned (table : List ℕ) (e₀ : Entry) (keys : List ℕ) (e : Entry) : Prop where
  same : e = { e₀ with run1 := e.run1, run2 := e.run2 }
  isRun1 : IsRun e.run1
  isRun2 : IsRun e.run2
  below : ∀ i ∈ e.run1 ++ e.run2, i < 256 ∧ i < table.length
  exact : ∀ a, (∃ i ∈ e.run1 ++ e.run2, table[i]? = some a) ↔ a ∈ keys

theorem assigned_fresh (h : e.Fresh) (table : List ℕ) : Assigned table e [] e where
  same := rfl
  isRun1 := by rw [h.run1]; exact isRun_nil
  isRun2 := by rw [h.run2]; exact isRun_nil
  below := by rw [h.run1, h.run2]; exact fun _ hi => nomatch hi
  exact := by rw [h.run1, h.run2]; simp

namespace Assigned

variable {table more keys : List ℕ} {e₀ e : Entry}

/-- The table may grow at its end. -/
theorem append (h : Assigned table e₀ keys e) (more : List ℕ) :
    Assigned (table ++ more) e₀ keys e where
  same := h.same
  isRun1 := h.isRun1
  isRun2 := h.isRun2
  below i hi := by
    rw [length_append]
    exact ⟨(h.below i hi).1, Nat.lt_add_right _ (h.below i hi).2⟩
  exact a := by
    rw [← h.exact a]
    refine exists_congr fun i => and_congr_right fun hi => ?_
    rw [List.getElem?_append_left (h.below i hi).2]

/-- One more index, in one of the runs. -/
theorem extend {e' : Entry} {i : ℕ} (h : Assigned table e₀ keys e) (hi : i < 256)
    (ha : table[i]? = some a) (same : e' = { e with run1 := e'.run1, run2 := e'.run2 })
    (isRun1 : IsRun e'.run1) (isRun2 : IsRun e'.run2)
    (hmem : ∀ j, j ∈ e'.run1 ++ e'.run2 ↔ j ∈ e.run1 ++ e.run2 ∨ j = i) :
    Assigned table e₀ (keys ++ [a]) e' where
  same := by
    rw [same, h.same]
  isRun1 := isRun1
  isRun2 := isRun2
  below j hj := by
    rcases (hmem j).mp hj with hj | rfl
    · exact h.below j hj
    · exact ⟨hi, (List.getElem?_eq_some_iff.mp ha).1⟩
  exact b := by
    rw [mem_append, mem_singleton, ← h.exact b]
    simp only [hmem, or_and_right, exists_or, exists_eq_left, ha, Option.some.injEq]
    exact or_congr_right eq_comm

/-- An option that is put into a run is addressed. -/
theorem assignOption (h : Assigned table e₀ keys e)
    (hplaced : (e.assignOption (table.findIdx? (· = a))).1 = true) :
    Assigned table e₀ (keys ++ [a]) (e.assignOption (table.findIdx? (· = a))).2 := by
  rcases hindex : table.findIdx? (· = a) with - | i
  · rw [hindex] at hplaced
    cases hplaced
  have ha : table[i]? = some a := by
    obtain ⟨hlt, hat, -⟩ := List.findIdx?_eq_some_iff_getElem.mp hindex
    rw [List.getElem?_eq_getElem hlt]
    exact congrArg some (of_decide_eq_true hat)
  rw [hindex] at hplaced
  unfold Entry.assignOption at hplaced ⊢
  dsimp only at hplaced ⊢
  split_ifs at hplaced ⊢ with hi h1 h2
  · refine h.extend hi ha rfl (h.isRun1.push h1) h.isRun2 fun j => ?_
    rw [mem_append, mem_append, mem_push]
    exact or_right_comm
  · refine h.extend hi ha rfl h.isRun1 (h.isRun2.push h2) fun j => ?_
    rw [mem_append, mem_append, mem_push, or_assoc]

end Assigned

/-- The new ones of the options. -/
def newOptions (l : List (ℕ × Bool)) : List ℕ := (l.filter Prod.snd).map Prod.fst

theorem sum_newOptions (l : List (ℕ × Bool)) :
    ((newOptions l).map fun a => (heap a).getSize).sum = (l.map (newSize heap)).sum := by
  induction l with
  | nil => rfl
  | cons o l ih =>
      obtain ⟨a, isNew⟩ := o
      cases isNew <;> simp_all [newOptions, newSize]

theorem newOptions_cons (o : ℕ × Bool) (l : List (ℕ × Bool)) :
    newOptions (o :: l) = (if o.2 then [o.1] else []) ++ newOptions l := by
  obtain ⟨a, isNew⟩ := o
  cases isNew <;> rfl

/-- The table behind one option of the loop. -/
theorem placeOption_snd (acc : Bool × Entry × Builder) (o : ℕ × Bool) :
    (placeOption acc o).2.2 = { acc.2.2 with
      options := acc.2.2.options ++ if o.2 then [o.1] else [] } := by
  unfold placeOption
  split_ifs
  · rfl
  · rw [append_nil]

/-- The loop over the options of an entry appends the new ones to the table. -/
theorem foldl_placeOption_snd (l : List (ℕ × Bool)) (acc : Bool × Entry × Builder) :
    (l.foldl placeOption acc).2.2 = { acc.2.2 with options := acc.2.2.options ++ newOptions l } := by
  induction l generalizing acc with
  | nil => simp [newOptions]
  | cons o l ih =>
      rw [foldl_cons, ih, placeOption_snd, newOptions_cons, append_assoc]

/-- If every option was put into a run, so were the ones so far. -/
theorem placed_of_foldl {l : List (ℕ × Bool)} {acc : Bool × Entry × Builder}
    (h : (l.foldl placeOption acc).1 = true) : acc.1 = true := by
  induction l generalizing acc with
  | nil => exact h
  | cons o l ih =>
      have hstep : (acc.1 && _) = true := ih h
      exact (Bool.and_eq_true_iff.mp hstep).1

/-- **The loop over the options of an entry** addresses all of them, if each was put into a run. -/
theorem assigned_foldl (l : List (ℕ × Bool)) : ∀ {keys : List ℕ} {e₀ : Entry}
    {acc : Bool × Entry × Builder}, Assigned acc.2.2.options e₀ keys acc.2.1 →
      (l.foldl placeOption acc).1 = true →
        Assigned (acc.2.2.options ++ newOptions l) e₀ (keys ++ l.map Prod.fst)
          (l.foldl placeOption acc).2.1 := by
  induction l with
  | nil =>
      intro keys e₀ acc h _
      simpa [newOptions] using h
  | cons o l ih =>
      intro keys e₀ acc h hplaced
      rw [foldl_cons] at hplaced ⊢
      have hstep : (acc.1 && _) = true := placed_of_foldl hplaced
      have htable := congrArg Builder.options (placeOption_snd acc o)
      dsimp only at htable
      have hassigned : Assigned (placeOption acc o).2.2.options e₀ (keys ++ [o.1])
          (placeOption acc o).2.1 := by
        refine Assigned.assignOption ?_ (Bool.and_eq_true_iff.mp hstep).2
        have := h.append (if o.2 then [o.1] else [])
        rwa [← htable] at this
      have hrest := ih hassigned hplaced
      rw [htable, append_assoc, ← newOptions_cons, append_assoc] at hrest
      exact hrest

/-! ### Calls -/

/-- A call of `add_entry_data`. -/
structure Call where
  entry : Entry
  options : List ℕ
  other : Option Entry
deriving DecidableEq, Repr

/-- The entries of a call, each with its options. -/
def Call.sent (c : Call) : List (Entry × List ℕ) :=
  (c.entry, c.options) :: c.other.toList.map (·, c.options)

/-- The entry objects of the call are new. -/
def Call.Fresh (c : Call) : Prop := ∀ s ∈ c.sent, s.1.Fresh

/-- The entry is the one that was sent, and its runs address the options it was sent with. -/
structure Carries (heap : ℕ → SdOption) (table : List ℕ) (sent : Entry × List ℕ) (e : Entry) :
    Prop where
  fresh : sent.1.Fresh
  assigned : ∃ keys, Assigned table sent.1 keys e ∧ ∀ o, Holds heap keys o ↔ Holds heap sent.2 o

theorem Carries.append {table : List ℕ} {sent : Entry × List ℕ} (h : Carries heap table sent e)
    (more : List ℕ) : Carries heap (table ++ more) sent e := by
  obtain ⟨keys, hassigned, hkeys⟩ := h.assigned
  exact ⟨h.fresh, keys, hassigned.append more, hkeys⟩

/-- What holds of a message that was built by calls which added their entries and put every option
into a run. -/
structure Built (heap : ℕ → SdOption) (sent : List (Entry × List ℕ)) (b : Builder) : Prop where
  size : 28 + entrySize * b.entries.length + (b.options.map fun a => (heap a).getSize).sum ≤
    b.currentMessageSize
  limit : b.currentMessageSize ≤ maxUdpSdPayload
  carries : List.Forall₂ (Carries heap b.options) sent b.entries

theorem built_empty : Built heap [] empty where
  size := Nat.le_refl _
  limit := by decide
  carries := List.Forall₂.nil

/-- The entries of a call carry its options. -/
theorem carries_of_placed {options : List ℕ} {l : List (ℕ × Bool)} (hfresh : e.Fresh)
    (hkeys : ∀ o, Holds heap (l.map Prod.fst) o ↔ Holds heap options o)
    (hplaced : (b.assignOptions e l).1 = true) :
    Carries heap (b.options ++ newOptions l) (e, options) (b.assignOptions e l).2.1 :=
  ⟨hfresh, l.map Prod.fst, assigned_foldl l (assigned_fresh hfresh b.options) hplaced, hkeys⟩

/-- What a call does that adds its entries and puts every option into a run. -/
theorem addEntryData_eq {c : Call} (hfresh : c.Fresh)
    (hadded : (b.addEntryData heap c.entry c.options c.other).1 = (true, true)) :
    ∃ es, List.Forall₂ (Carries heap (b.options ++ newOptions (b.itsOptions heap c.options).1))
        c.sent es ∧
      b.currentMessageSize + (entrySize * es.length + (b.itsOptions heap c.options).2) ≤
        maxUdpSdPayload ∧ (b.addEntryData heap c.entry c.options c.other).2 = ⟨b.entries ++ es,
        b.options ++ newOptions (b.itsOptions heap c.options).1,
        b.currentMessageSize + (entrySize * es.length + (b.itsOptions heap c.options).2)⟩ := by
  obtain ⟨entry, options, other⟩ := c
  obtain ⟨hkeys, -⟩ := itsOptions_spec heap b options
  generalize hits : b.itsOptions heap options = its at hkeys ⊢
  have htable : (b.assignOptions entry its.1).2.2 =
      { b with options := b.options ++ newOptions its.1 } := foldl_placeOption_snd _ _
  have hfirst := hfresh _ mem_cons_self
  cases other with
  | none =>
      simp only [addEntryData, hits, htable, Option.isSome_none, Bool.false_eq_true, if_false]
        at hadded ⊢
      split_ifs at hadded ⊢ with hfit
      · cases hadded
      have hcarries := carries_of_placed hfirst hkeys (Prod.mk.inj hadded).2
      exact ⟨[_], .cons hcarries .nil, Nat.le_of_not_lt hfit, rfl⟩
  | some other =>
      simp only [addEntryData, hits, htable, Option.isSome_some, if_true] at hadded ⊢
      split_ifs at hadded ⊢ with hfit
      · cases hadded
      obtain ⟨hplaced, hplaced'⟩ := Bool.and_eq_true_iff.mp (Prod.mk.inj hadded).2
      have hcarries := carries_of_placed hfirst hkeys hplaced
      -- for the other entry no option is new
      have hother := hfresh _ (mem_cons_of_mem _ mem_cons_self)
      have hkeys' : ∀ o, Holds heap ((its.1.map fun o => (o.1, false)).map Prod.fst) o ↔
          Holds heap options o := by
        intro o
        rw [map_map]
        exact hkeys o
      have hnone : newOptions (its.1.map fun o => (o.1, false)) = [] := by
        simp [newOptions]
      have hcarries' := carries_of_placed hother hkeys' hplaced'
      rw [hnone, append_nil] at hcarries'
      refine ⟨[_, _], .cons hcarries (.cons hcarries' .nil), ?_, ?_⟩
      · rw [length_cons, length_singleton, Nat.mul_comm]
        exact Nat.le_of_not_lt hfit
      · simp only [append_assoc, cons_append, nil_append, length_cons,
          length_nil, Nat.mul_comm entrySize]

/-- **One call.** -/
theorem Built.add {sent : List (Entry × List ℕ)} {c : Call} (h : Built heap sent b)
    (hfresh : c.Fresh) (hadded : (b.addEntryData heap c.entry c.options c.other).1 = (true, true)) :
    Built heap (sent ++ c.sent) (b.addEntryData heap c.entry c.options c.other).2 := by
  obtain ⟨es, hcarries, hlimit, heq⟩ := addEntryData_eq hfresh hadded
  have hnew := (itsOptions_spec heap b c.options).2
  have hsize := h.size
  rw [heq]
  refine ⟨?_, hlimit, rel_append (h.carries.imp fun _ _ hc => hc.append _) hcarries⟩
  dsimp only
  rw [map_append, sum_append, sum_newOptions, length_append, Nat.mul_add]
  omega

/-- The message that a sequence of calls builds, if each adds its entries and puts every option into
a run. -/
def build (heap : ℕ → SdOption) (calls : List Call) : Option Builder :=
  calls.foldlM (fun b c =>
    let r := b.addEntryData heap c.entry c.options c.other
    if r.1 = (true, true) then some r.2 else none) empty

/-- **Any sequence of calls.** -/
theorem built_of_build {calls : List Call} (hfresh : ∀ c ∈ calls, c.Fresh)
    (h : build heap calls = some b) : Built heap (calls.flatMap Call.sent) b := by
  have hloop : ∀ (calls : List Call) {sent : List (Entry × List ℕ)} {b b' : Builder},
      Built heap sent b → (∀ c ∈ calls, c.Fresh) →
        calls.foldlM (fun b c =>
          let r := b.addEntryData heap c.entry c.options c.other
          if r.1 = (true, true) then some r.2 else none) b = some b' →
            Built heap (sent ++ calls.flatMap Call.sent) b' := by
    intro calls
    induction calls with
    | nil =>
        rintro sent b b' hb - ⟨⟩
        rwa [flatMap_nil, append_nil]
    | cons c calls ih =>
        intro sent b b' hb hfresh h
        obtain ⟨hc, hcalls⟩ := forall_mem_cons.mp hfresh
        rw [foldlM_cons] at h
        obtain ⟨mid, hmid, h⟩ := Option.bind_eq_some_iff.mp h
        dsimp only at hmid
        split_ifs at hmid with hadded
        obtain rfl := Option.some.inj hmid
        have := ih (hb.add hc hadded) hcalls h
        rwa [append_assoc, ← flatMap_cons] at this
  exact hloop calls built_empty hfresh h

end Builder

end SomeipTunnel.Sd
