import SomeipTunnel.Protocol.Subscribe

/-!
# Debounce filters of an event

A subscriber can ask that an event is forwarded only when its payload changes, up to masks for single
bytes, or when an interval is over. `debounce_decision`: a filter for changes alone forwards iff a
byte differs in bits that are not ignored, where a byte that only one payload has differs unless its
mask is full; and an update goes to the subscribers whose filters forward it, and to those without a
filter if the event itself is to be forwarded, which is decided once.
-/

namespace SomeipTunnel.Routing

open Protocol.Subscribe List

/-- Source: `debounce.hpp`, `debounce_filter_impl_t`; no time stands for `time_point::max()` -/
structure DebounceFilterImpl extends DebounceFilter where
  lastForwarded : Option ℕ

namespace DebounceFilterImpl

variable (f : DebounceFilterImpl) (old new : List UInt8)

/-- `ignore_.find(i)` -/
def find (i : ℕ) : Option UInt8 := (f.ignore.entries.find? (·.1.val = i)).map Prod.snd

/-- The bits of a byte that a mask leaves, in the width of `int`: `its_old[i] & ~(j->second)`. -/
def unmasked (byte mask : UInt8) : UInt32 := byte.toUInt32 &&& ~~~mask.toUInt32

/-- Source: `event::add_subscriber`, the loop over the additional bytes -/
def surplusChanged (itsMinLength itsMaxLength : ℕ) : Bool :=
  (List.range' itsMinLength (itsMaxLength - itsMinLength)).any fun i =>
    match f.find i with
    | none => true
    | some mask => mask ≠ 0xFF

/-- Source: `event::add_subscriber`, the loop over the bytes of both -/
def commonChanged (itsMinLength : ℕ) : Bool :=
  (List.range itsMinLength).any fun i =>
    match f.find i with
    | none => old.getD i 0 ≠ new.getD i 0
    | some mask => mask ≠ 0xFF ∧ unmasked (old.getD i 0) mask ≠ unmasked (new.getD i 0) mask

/-- Source: `event::add_subscriber`, `is_changed` of the filter -/
def isChanged : Bool :=
  if f.onChange then
    let itsMinLength := if old.length < new.length then old.length else new.length
    let itsMaxLength := if old.length < new.length then new.length else old.length
    f.surplusChanged itsMinLength itsMaxLength || f.commonChanged old new itsMinLength
  else false

/-- Source: `event::add_subscriber`, `is_elapsed` of the filter -/
def isElapsed (now : ℕ) : Bool :=
  -1 < f.interval ∧ f.lastForwarded.all fun last => f.interval.toInt ≤ (now : ℤ) - last

/-- Whether the new payload is forwarded, and the filter behind it.
Source: `event::add_subscriber`, the filter; `routing_manager_base.cpp`,
`routing_manager_base::register_event`, the function of a configured debounce -/
def forwards (now : ℕ) : Bool × DebounceFilterImpl :=
  (f.isChanged old new || f.isElapsed now,
    if -1 < f.interval ∧
        (f.isElapsed now ∨ f.isChanged old new ∧ f.onChangeResetsInterval) then
      { f with lastForwarded := some now }
    else f)

/-- The filter for changes alone: `on_change` is set and the interval is -1. -/
def changesOnly : DebounceFilterImpl := { f with onChange := true, interval := -1 }

/-- The bits of a byte that are ignored. -/
def mask (i : ℕ) : UInt8 := (f.find i).getD 0

/-- The byte differs in bits that are not ignored; a byte that only one payload has differs unless
all its bits are ignored. -/
def Differs (i : ℕ) : Prop :=
  match old[i]?, new[i]? with
  | some a, some b => a &&& ~~~f.mask i ≠ b &&& ~~~f.mask i
  | some _, none => f.mask i ≠ 0xFF
  | none, some _ => f.mask i ≠ 0xFF
  | none, none => False

/-! ### The decision -/

/-- The comparison in `int` is that of the bytes. -/
theorem unmasked_eq (byte mask : UInt8) : unmasked byte mask = (byte &&& ~~~mask).toUInt32 := by
  apply UInt32.toBitVec_inj.mp
  ext i hi
  simp only [unmasked, UInt32.toBitVec_and, UInt32.toBitVec_not, UInt8.toBitVec_toUInt32,
    UInt8.toBitVec_and, UInt8.toBitVec_not, BitVec.getElem_and, BitVec.getElem_not,
    BitVec.getElem_setWidth, BitVec.getLsbD_and, BitVec.getLsbD_not]
  by_cases h8 : i < 8
  · simp [h8]
  · simp [BitVec.getLsbD_of_ge byte.toBitVec i (by omega)]

theorem unmasked_inj {a b mask : UInt8} :
    unmasked a mask = unmasked b mask ↔ a &&& ~~~mask = b &&& ~~~mask := by
  rw [unmasked_eq, unmasked_eq, ← UInt32.toNat_inj, UInt8.toNat_toUInt32, UInt8.toNat_toUInt32,
    UInt8.toNat_inj]

theorem surplusChanged_iff {lo hi : ℕ} :
    f.surplusChanged lo hi = true ↔ ∃ i, lo ≤ i ∧ i < hi ∧ f.mask i ≠ 0xFF := by
  have hmask : ∀ i, (match f.find i with
      | none => true
      | some mask => decide (mask ≠ 0xFF)) = true ↔ f.mask i ≠ 0xFF := fun i => by
    rw [mask]
    cases f.find i <;> simp
  simp only [surplusChanged, any_eq_true, mem_range'_1, hmask, and_assoc]
  refine exists_congr fun i => and_congr_right fun _ => and_congr_left fun _ => ?_
  omega

theorem commonChanged_iff {lo : ℕ} : f.commonChanged old new lo = true ↔
    ∃ i < lo, old.getD i 0 &&& ~~~f.mask i ≠ new.getD i 0 &&& ~~~f.mask i := by
  simp only [commonChanged, any_eq_true, mem_range]
  refine exists_congr fun i => and_congr_right fun _ => ?_
  rw [mask]
  cases f.find i with
  | none => simp
  | some mask =>
      by_cases hfull : mask = 0xFF
      · have hnot : ~~~(0xFF : UInt8) = 0 := rfl
        simp [hfull, hnot]
      · simp [hfull, unmasked_inj]

theorem differs_of_lt {i : ℕ} (hold : i < old.length) (hnew : i < new.length) :
    f.Differs old new i ↔ old.getD i 0 &&& ~~~f.mask i ≠ new.getD i 0 &&& ~~~f.mask i := by
  rw [Differs, List.getD, List.getD, List.getElem?_eq_getElem hold, List.getElem?_eq_getElem hnew]
  rfl

theorem differs_of_ge {i : ℕ} (hold : old.length ≤ i) (hnew : i < new.length) :
    f.Differs old new i ↔ f.mask i ≠ 0xFF := by
  rw [Differs, List.getElem?_eq_none hold, List.getElem?_eq_getElem hnew]

theorem differs_of_ge' {i : ℕ} (hold : i < old.length) (hnew : new.length ≤ i) :
    f.Differs old new i ↔ f.mask i ≠ 0xFF := by
  rw [Differs, List.getElem?_eq_getElem hold, List.getElem?_eq_none hnew]

theorem lt_of_differs {i : ℕ} (h : f.Differs old new i) : i < old.length ∨ i < new.length := by
  by_contra hnot
  push Not at hnot
  rw [Differs, List.getElem?_eq_none hnot.1, List.getElem?_eq_none hnot.2] at h
  exact h

/-- The two loops find a byte that differs, if there is one. -/
theorem isChanged_iff (h : f.onChange = true) :
    f.isChanged old new = true ↔ ∃ i, f.Differs old new i := by
  simp only [isChanged, h, if_true, Bool.or_eq_true, surplusChanged_iff, commonChanged_iff]
  constructor
  · rintro (⟨i, hlo, hhi, hmask⟩ | ⟨i, hlt, hne⟩)
    · refine ⟨i, ?_⟩
      split_ifs at hlo hhi
      · exact (f.differs_of_ge old new hlo hhi).mpr hmask
      · exact (f.differs_of_ge' old new hhi hlo).mpr hmask
    · have hboth : i < old.length ∧ i < new.length := by
        split_ifs at hlt <;> omega
      exact ⟨i, (f.differs_of_lt old new hboth.1 hboth.2).mpr hne⟩
  · rintro ⟨i, hi⟩
    by_cases hold : i < old.length <;> by_cases hnew : i < new.length
    · refine .inr ⟨i, ?_, (f.differs_of_lt old new hold hnew).mp hi⟩
      split_ifs <;> assumption
    · refine .inl ⟨i, ?_, ?_, (f.differs_of_ge' old new hold (by omega)).mp hi⟩
      · split_ifs <;> omega
      · split_ifs <;> omega
    · refine .inl ⟨i, ?_, ?_, (f.differs_of_ge old new (by omega) hnew).mp hi⟩
      · split_ifs <;> omega
      · split_ifs <;> omega
    · exact absurd (f.lt_of_differs old new hi) (by omega)

/-- A filter without an interval forwards changes and nothing else. -/
theorem forwards_changesOnly (now : ℕ) :
    (f.changesOnly.forwards old new now).1 = true ↔ ∃ i, f.Differs old new i := by
  have helapsed : f.changesOnly.isElapsed now = false := rfl
  rw [forwards, helapsed, Bool.or_false]
  exact f.changesOnly.isChanged_iff old new rfl

end DebounceFilterImpl

/-! ### The subscribers -/

/-- An event, with the state of what decides about a change of it.
Source: `event.hpp`, `event` -/
structure Event (σ : Type*) where
  isField : Bool
  hasDefaultEpsilonChangeFunc : Bool
  /-- Whether the update is a change, and the state behind it. -/
  epsilonChangeFunc : σ → List UInt8 → List UInt8 → Bool × σ
  epsilonState : σ
  /-- The subscribers of each eventgroup. -/
  eventgroups : List (UInt16 × List UInt16)
  filters : List (UInt16 × DebounceFilterImpl)
  current : List UInt8
  update : List UInt8

namespace Event

variable {σ : Type*} (e : Event σ)

/-- Source: `event::get_subscribers`; every subscriber once -/
def getSubscribers : List UInt16 := (e.eventgroups.flatMap Prod.snd).dedup

/-- `filters_.find(s)` -/
def filterOf (client : UInt16) : Option DebounceFilterImpl :=
  (e.filters.find? (·.1 = client)).map Prod.snd

/-- The filter behind a call of it. -/
def setFilter (client : UInt16) (f : DebounceFilterImpl) : Event σ :=
  { e with filters := e.filters.map fun entry => if entry.1 = client then (client, f) else entry }

/-- Whether the event is to be forwarded, and the event behind asking.
Source: `event::get_filtered_subscribers`, `must_forward` -/
def mustForward (force : Bool) : Bool × Event σ :=
  if !e.isField && e.hasDefaultEpsilonChangeFunc || force then (true, e)
  else
    let (changed, state) := e.epsilonChangeFunc e.epsilonState e.current e.update
    (changed, { e with epsilonState := state })

/-- `is_allowed` is 0xFF until it is known.
Source: `event::get_filtered_subscribers`, `is_allowed` -/
def askAllowed (force : Bool) (isAllowed : UInt8) : UInt8 × Event σ :=
  if isAllowed = 0xFF then
    (if (e.mustForward force).1 then 0x01 else 0x00, (e.mustForward force).2)
  else (isAllowed, e)

/-- The loop over the subscribers.
Source: `event::get_filtered_subscribers`, the loop -/
def filterSubscribers (force : Bool) (now : UInt16 → ℕ) :
    List UInt16 → UInt8 → Event σ → List UInt16 × Event σ
  | [], _, e => ([], e)
  | s :: rest, isAllowed, e =>
      match e.filterOf s with
      | some f =>
          let (forwarded, f') := f.forwards e.current e.update (now s)
          let (filtered, e') := filterSubscribers force now rest isAllowed (e.setFilter s f')
          (if forwarded then s :: filtered else filtered, e')
      | none =>
          let (isAllowed, e) := e.askAllowed force isAllowed
          let (filtered, e') := filterSubscribers force now rest isAllowed e
          (if isAllowed = 0x01 then s :: filtered else filtered, e')

/-- Source: `event::get_filtered_subscribers`; `now` is when a filter is called -/
def getFilteredSubscribers (force : Bool) (now : UInt16 → ℕ) : List UInt16 × Event σ :=
  if e.filters.isEmpty then
    let (forwarded, e') := e.mustForward force
    (if forwarded then e.getSubscribers else [], e')
  else filterSubscribers force now e.getSubscribers 0xFF e

/-- The subscriber is to have the update: its own filter forwards, or it has none and the event is
to be forwarded. -/
def Wanted (force : Bool) (now : UInt16 → ℕ) (client : UInt16) : Prop :=
  match e.filterOf client with
  | some f => (f.forwards e.current e.update (now client)).1 = true
  | none => (e.mustForward force).1 = true

variable {e} {e' : Event σ} {force : Bool} {now : UInt16 → ℕ}

theorem filterOf_setFilter {client client' : UInt16} (h : client' ≠ client)
    (f : DebounceFilterImpl) : (e.setFilter client f).filterOf client' = e.filterOf client' := by
  have hkey : ((fun entry : UInt16 × DebounceFilterImpl => decide (entry.1 = client')) ∘
      fun entry => if entry.1 = client then (client, f) else entry) =
      fun entry => decide (entry.1 = client') := by
    funext entry
    by_cases hentry : entry.1 = client
    · simp [hentry]
    · simp [hentry]
  rw [filterOf, setFilter, List.find?_map, hkey, filterOf]
  cases hfind : e.filters.find? (fun entry => decide (entry.1 = client')) with
  | none => rfl
  | some entry =>
      have hentry : entry.1 = client' := by simpa using List.find?_some hfind
      have hne : entry.1 ≠ client := hentry ▸ h
      simp [hne]

/-- What the loop goes by has not changed: the filters of the subscribers to come, and the answer
about the event, be it known or not. -/
structure Kept (e₀ : Event σ) (force : Bool) (rest : List UInt16) (isAllowed : UInt8)
    (e : Event σ) : Prop where
  current : e.current = e₀.current
  update : e.update = e₀.update
  filters : ∀ s ∈ rest, e.filterOf s = e₀.filterOf s
  allowed : isAllowed = 0xFF ∧ (e.mustForward force).1 = (e₀.mustForward force).1 ∨
    isAllowed = if (e₀.mustForward force).1 then 0x01 else 0x00

theorem mustForward_fst : (e.mustForward force).1 =
    (!e.isField && e.hasDefaultEpsilonChangeFunc || force ||
      (e.epsilonChangeFunc e.epsilonState e.current e.update).1) := by
  rw [mustForward]
  split_ifs with hforced
  · rw [hforced, Bool.true_or]
  · rw [Bool.not_eq_true] at hforced
    rw [hforced, Bool.false_or]

/-- Asking about the event changes nothing else. -/
theorem mustForward_snd : (e.mustForward force).2.current = e.current ∧
    (e.mustForward force).2.update = e.update ∧ (e.mustForward force).2.filters = e.filters := by
  rw [mustForward]
  split_ifs <;> exact ⟨rfl, rfl, rfl⟩

variable {e₀ : Event σ} {rest : List UInt16} {isAllowed : UInt8} {s : UInt16}

theorem Kept.setFilter (h : Kept e₀ force (s :: rest) isAllowed e) (hs : s ∉ rest)
    (f : DebounceFilterImpl) : Kept e₀ force rest isAllowed (e.setFilter s f) where
  current := h.current
  update := h.update
  filters := fun s' hs' => by
    have hne : s' ≠ s := fun heq => hs (heq ▸ hs')
    rw [filterOf_setFilter hne]
    exact h.filters s' (mem_cons_of_mem s hs')
  allowed := by
    have hsame : ((e.setFilter s f).mustForward force).1 = (e.mustForward force).1 := by
      rw [mustForward_fst, mustForward_fst]
      rfl
    rw [hsame]
    exact h.allowed

/-- The answer about the event is the one that the first to ask had. -/
theorem Kept.askAllowed (h : Kept e₀ force (s :: rest) isAllowed e) :
    (e.askAllowed force isAllowed).1 = (if (e₀.mustForward force).1 then 0x01 else 0x00) ∧
      Kept e₀ force rest (e.askAllowed force isAllowed).1 (e.askAllowed force isAllowed).2 := by
  have hfilters := fun s' hs' => h.filters s' (mem_cons_of_mem s hs')
  rw [Event.askAllowed]
  rcases h.allowed with ⟨hunknown, hsame⟩ | hknown
  · obtain ⟨hcurrent, hupdate, hfilters'⟩ := @mustForward_snd σ e force
    rw [if_pos hunknown, hsame]
    refine ⟨rfl, hcurrent.trans h.current, hupdate.trans h.update, fun s' hs' => ?_, .inr rfl⟩
    rw [filterOf, hfilters']
    exact hfilters s' hs'
  · have hne : isAllowed ≠ 0xFF := by
      rw [hknown]
      split_ifs <;> decide
    rw [if_neg hne]
    exact ⟨hknown, h.current, h.update, hfilters, .inr hknown⟩

/-- **The loop** takes the subscribers that are to have the update. -/
theorem mem_filterSubscribers (hnodup : rest.Nodup) (h : Kept e₀ force rest isAllowed e)
    {client : UInt16} : client ∈ (filterSubscribers force now rest isAllowed e).1 ↔
      client ∈ rest ∧ e₀.Wanted force now client := by
  induction rest generalizing isAllowed e with
  | nil => simp [filterSubscribers]
  | cons s rest ih =>
      obtain ⟨hs, hrest⟩ := nodup_cons.mp hnodup
      have hsame := h.filters s mem_cons_self
      -- One subscriber is taken or not; the others are those of the induction.
      have hcons : ∀ (taken : Prop) [Decidable taken] (l : List UInt16),
          (taken ↔ e₀.Wanted force now s) → (client ∈ l ↔ client ∈ rest ∧ e₀.Wanted force now client) →
          (client ∈ (if taken then s :: l else l) ↔
            client ∈ s :: rest ∧ e₀.Wanted force now client) := by
        intro taken _ l htaken hl
        rw [mem_cons]
        by_cases hc : client = s
        · subst hc
          split_ifs with ht
          · simp [htaken.mp ht]
          · have hnot : ¬ e₀.Wanted force now client := fun hw => ht (htaken.mpr hw)
            simp [hl, hnot]
        · split_ifs <;> simp [hl, hc]
      rw [filterSubscribers]
      cases hfilter : e.filterOf s with
      | some f =>
          refine hcons _ _ ?_ (ih hrest (h.setFilter hs _))
          rw [Wanted, ← hsame, hfilter, h.current, h.update]
      | none =>
          obtain ⟨hallowed, hkept⟩ := h.askAllowed
          refine hcons _ _ ?_ (ih hrest hkept)
          rw [Wanted, ← hsame, hfilter, hallowed]
          split_ifs with hforward <;> simp [hforward]

theorem filterOf_of_isEmpty (h : e.filters.isEmpty = true) (client : UInt16) :
    e.filterOf client = none := by
  rw [filterOf, isEmpty_iff.mp h]
  rfl

/-- **The decision about an update**: a filter for changes alone forwards iff a byte differs, and
the subscribers that are returned are those whose own filter forwards, and those without a filter if
the event is to be forwarded. -/
theorem debounce_decision (f : DebounceFilterImpl) (old new : List UInt8) (now : UInt16 → ℕ)
    (e : Event σ) (force : Bool) (client : UInt16) :
    ((f.changesOnly.forwards old new (now client)).1 = true ↔ ∃ i, f.Differs old new i) ∧
    (client ∈ (e.getFilteredSubscribers force now).1 ↔
      client ∈ e.getSubscribers ∧ e.Wanted force now client) := by
  refine ⟨f.forwards_changesOnly old new _, ?_⟩
  rw [getFilteredSubscribers]
  split_ifs with hempty
  · rw [Wanted, filterOf_of_isEmpty hempty]
    dsimp only
    split_ifs with hforward
    · simp [hforward]
    · simp [hforward]
  · exact mem_filterSubscribers (nodup_dedup _) ⟨rfl, rfl, fun _ _ => rfl, .inl ⟨rfl, rfl⟩⟩

end Event

end SomeipTunnel.Routing
