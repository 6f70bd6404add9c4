import SomeipTunnel.Lib.Run

/-!
# Repetition of FindService entries

A request counts the FindService entries that were sent for it. The debounce timer takes the
requests that have none yet and hands them to a repetition timer, which goes through its requests at
each expiry. `finds_bounded`: a requested instance is in at most `repetitions_max + 1` entries, and
in none behind `update_request`, in every run where the maximum is not 255 and no instance is
requested anew while a repetition timer has its last request.

* The counter has eight bits: for a maximum of 255 it never is what ends the repetitions.
* A repetition timer has the request itself, not the instance: behind a release and a new request it
  sends on for the old one, which `update_request` does not find any more.
-/

namespace SomeipTunnel.Sd.FindRepetition

open List StepRun Function

/-- A service and an instance of it. -/
abbrev InstanceId := UInt16 × UInt16

/-- The identity of a request: the object that is the `number`th to be made.
Source: `request.hpp`, `request` -/
structure Request where
  inst : InstanceId
  number : ℕ
deriving DecidableEq, Repr

/-- A repetition timer, with the requests that its handler still has to go through.
Source: `service_discovery_impl.hpp`, `find_repetition_phase_timers_` -/
structure FindTimer where
  requests : List Request
  todo : List Request
  repetition : UInt8
deriving DecidableEq, Repr

/-- What happened to an instance since it was requested. -/
structure Since where
  /-- FindService entries. -/
  finds : ℕ
  /-- Whether `update_request` was called. -/
  updated : Bool
  /-- FindService entries behind `update_request`. -/
  late : ℕ
deriving DecidableEq, Repr

/-- Source: `service_discovery_impl.hpp`, `requested_` and `find_repetition_phase_timers_`; `since`
is history that nothing reads -/
structure Finder where
  requested : List Request
  timers : List FindTimer
  sentCounter : Request → UInt8
  created : ℕ
  since : InstanceId → Since

/-- The calls and the steps of the handlers. -/
inductive Input
  | requestService (inst : InstanceId)
  | releaseService (inst : InstanceId)
  | updateRequest (inst : InstanceId)
  /-- The debounce timer expires. -/
  | debounce
  /-- The repetition timer at the index expires. -/
  | expire (timer : ℕ)
  /-- The handler of the timer at the index goes through a request. -/
  | insert (timer : ℕ)
deriving DecidableEq, Repr

namespace Finder

variable (repetitionsMax : UInt8) (s : Finder)

def init : Finder := ⟨[], [], fun _ => 0, 0, fun _ => ⟨0, false, 0⟩⟩

def isRequested (inst : InstanceId) : Bool := s.requested.any (·.inst = inst)

/-- Source: `service_discovery_impl::request_service` -/
def requestService (inst : InstanceId) : Finder :=
  if s.isRequested inst then s
  else { s with
    requested := ⟨inst, s.created⟩ :: s.requested
    sentCounter := update s.sentCounter ⟨inst, s.created⟩ 0
    created := s.created + 1
    since := update s.since inst ⟨0, false, 0⟩ }

/-- Source: `service_discovery_impl::release_service` -/
def releaseService (inst : InstanceId) : Finder :=
  { s with requested := s.requested.filter (·.inst ≠ inst) }

/-- Source: `service_discovery_impl::update_request` -/
def updateRequest (inst : InstanceId) : Finder :=
  match s.requested.find? (·.inst = inst) with
  | some r => { s with
      sentCounter := update s.sentCounter r (repetitionsMax + 1)
      since := update s.since inst { s.since inst with updated := true } }
  | none => s

/-- Source: `service_discovery_impl::insert_find_entries`, the body of the inner loop; the
comparison is in `int` -/
def insertFindEntry (r : Request) : Finder :=
  if s.isRequested r.inst ∧ (s.sentCounter r).toNat ≠ repetitionsMax.toNat + 1 then
    let since := s.since r.inst
    { s with
      sentCounter := update s.sentCounter r (s.sentCounter r + 1)
      since := update s.since r.inst
        { since with
          finds := since.finds + 1
          late := if since.updated then since.late + 1 else since.late } }
  else s

/-- The requests for which nothing was sent.
Source: `service_discovery_impl::on_find_debounce_timer_expired`, `repetition_phase_finds` -/
def repetitionPhaseFinds : List Request := s.requested.filter (s.sentCounter · = 0)

/-- Source: `service_discovery_impl::on_find_debounce_timer_expired` -/
def onFindDebounceTimerExpired : Finder :=
  if s.repetitionPhaseFinds = [] then s
  else { s with timers := s.timers ++ [⟨s.repetitionPhaseFinds, s.repetitionPhaseFinds, 1⟩] }

/-- Source: `service_discovery_impl::on_find_repetition_phase_timer_expired`; a timer waits again
when its handler is through -/
def onFindRepetitionPhaseTimerExpired (timer : ℕ) : Finder :=
  match s.timers[timer]? with
  | some t =>
      if t.todo ≠ [] then s
      else if t.repetition ≤ repetitionsMax then
        { s with timers :=
            s.timers.set timer { t with todo := t.requests, repetition := t.repetition + 1 } }
      else { s with timers := s.timers.eraseIdx timer }
  | none => s

/-- Source: `service_discovery_impl::insert_find_entries`, the loops -/
def insertFindEntries (timer : ℕ) : Finder :=
  match s.timers[timer]? with
  | some ⟨requests, r :: todo, repetition⟩ =>
      { s.insertFindEntry repetitionsMax r with
        timers := s.timers.set timer ⟨requests, todo, repetition⟩ }
  | _ => s

def next : Input → Finder
  | .requestService inst => s.requestService inst
  | .releaseService inst => s.releaseService inst
  | .updateRequest inst => s.updateRequest repetitionsMax inst
  | .debounce => s.onFindDebounceTimerExpired
  | .expire timer => s.onFindRepetitionPhaseTimerExpired repetitionsMax timer
  | .insert timer => s.insertFindEntries repetitionsMax timer

def step (i : Input) : Except Empty (Unit × Finder) := .ok ((), s.next repetitionsMax i)

/-- A requested instance is in `repetitions_max + 1` entries at most, and in none behind
`update_request`. -/
def Bounded : Prop :=
  ∀ inst, (s.since inst).finds ≤ repetitionsMax.toNat + 1 ∧ (s.since inst).late = 0

/-- The maximum is not 255, and what is requested anew no repetition timer has a request for. -/
def Orderly : Input → Prop
  | .requestService inst => repetitionsMax ≠ 255 ∧
      (s.isRequested inst = false → ∀ t ∈ s.timers, ∀ r ∈ t.requests, r.inst ≠ inst)
  | _ => repetitionsMax ≠ 255

instance (i : Input) : Decidable (s.Orderly repetitionsMax i) := by
  unfold Orderly
  cases i <;> infer_instance

/-! ### The invariant -/

/-- Of each instance there is one request in use, and its counter says what happened since. -/
structure Sound : Prop where
  unique : ∀ r ∈ s.requested, ∀ r' ∈ s.requested, r.inst = r'.inst → r = r'
  current : ∀ t ∈ s.timers, ∀ r ∈ t.requests, ∀ r' ∈ s.requested, r.inst = r'.inst → r = r'
  todo : ∀ t ∈ s.timers, t.todo ⊆ t.requests
  counts : ∀ r ∈ s.requested, (s.sentCounter r).toNat =
    if (s.since r.inst).updated then repetitionsMax.toNat + 1 else (s.since r.inst).finds
  bounded : s.Bounded repetitionsMax

variable {repetitionsMax} {s} {inst : InstanceId} {r : Request}

theorem isRequested_iff : s.isRequested inst = true ↔ ∃ r ∈ s.requested, r.inst = inst := by
  simp [isRequested]

/-- What ends the repetitions has room in eight bits. -/
theorem toNat_lt_of_ne (hmax : repetitionsMax ≠ 255) : repetitionsMax.toNat < 255 := by
  have hlt := repetitionsMax.toNat_lt
  have hne : repetitionsMax.toNat ≠ 255 := fun heq => hmax (UInt8.toNat_inj.mp heq)
  omega

/-- Nothing is requested. -/
theorem sound_init : init.Sound repetitionsMax where
  unique := fun _ hr => nomatch hr
  current := fun _ ht => nomatch ht
  todo := fun _ ht => nomatch ht
  counts := fun _ hr => nomatch hr
  bounded := fun _ => ⟨Nat.zero_le _, rfl⟩

theorem insertFindEntry_timers (s : Finder) (r : Request) :
    (s.insertFindEntry repetitionsMax r).timers = s.timers := by
  rw [Finder.insertFindEntry]
  split_ifs <;> rfl

section sound

variable (h : s.Sound repetitionsMax)

include h

/-- A new request: it is the only one of the instance, since none is requested and no timer has
one. -/
theorem Sound.requestService
    (hnew : s.isRequested inst = false → ∀ t ∈ s.timers, ∀ r ∈ t.requests, r.inst ≠ inst) :
    (s.requestService inst).Sound repetitionsMax := by
  rw [Finder.requestService]
  split_ifs with hrequested
  · exact h
  · have hnot : ∀ r ∈ s.requested, r.inst ≠ inst := fun r hr heq =>
      hrequested (isRequested_iff.mpr ⟨r, hr, heq⟩)
    have hheld := hnew (Bool.eq_false_iff.mpr hrequested)
    refine ⟨?_, ?_, h.todo, ?_, ?_⟩
    · simp only [forall_mem_cons]
      exact ⟨⟨fun _ => trivial, fun r hr heq => absurd heq.symm (hnot r hr)⟩,
        fun r hr => ⟨fun heq => absurd heq (hnot r hr), h.unique r hr⟩⟩
    · simp only [forall_mem_cons]
      exact fun t ht r hr => ⟨fun heq => absurd heq (hheld t ht r hr), h.current t ht r hr⟩
    · simp only [forall_mem_cons, update_self]
      refine ⟨rfl, fun r hr => ?_⟩
      have hne : r ≠ ⟨inst, s.created⟩ := fun heq => hnot r hr (heq ▸ rfl)
      rw [update_of_ne hne, update_of_ne (hnot r hr)]
      exact h.counts r hr
    · intro k
      by_cases hk : k = inst
      · simp only [hk, update_self, Nat.zero_le, and_self]
      · simp only [update_of_ne hk]
        exact h.bounded k

/-- A release. Source: `release_service` -/
theorem Sound.releaseService (inst : InstanceId) :
    (s.releaseService inst).Sound repetitionsMax where
  unique := fun r hr r' hr' => h.unique r (mem_of_mem_filter hr) r' (mem_of_mem_filter hr')
  current := fun t ht r hr r' hr' => h.current t ht r hr r' (mem_of_mem_filter hr')
  todo := h.todo
  counts := fun r hr => h.counts r (mem_of_mem_filter hr)
  bounded := h.bounded

/-- The counter is set to what ends the repetitions. -/
theorem Sound.updateRequest (hmax : repetitionsMax ≠ 255)
    (inst : InstanceId) : (s.updateRequest repetitionsMax inst).Sound repetitionsMax := by
  rw [Finder.updateRequest]
  cases hfound : s.requested.find? (·.inst = inst) with
  | none => exact h
  | some r =>
      have hr := mem_of_find?_eq_some hfound
      have hinst : r.inst = inst := by simpa using List.find?_some hfound
      subst hinst
      refine ⟨h.unique, h.current, h.todo, fun r' hr' => ?_, fun k => ?_⟩
      · by_cases hr'' : r' = r
        · simp only [hr'', update_self, if_true]
          rw [UInt8.toNat_add, UInt8.toNat_one]
          exact Nat.mod_eq_of_lt (by have := toNat_lt_of_ne hmax; omega)
        · have hne : r'.inst ≠ r.inst := fun heq => hr'' (h.unique r' hr' r hr heq)
          simp only [update_of_ne hr'', update_of_ne hne]
          exact h.counts r' hr'
      · by_cases hk : k = r.inst
        · simp only [hk, update_self]
          exact h.bounded r.inst
        · simp only [update_of_ne hk]
          exact h.bounded k

/-- An entry for a request that is in use, or none. -/
theorem Sound.insertFindEntry (hmax : repetitionsMax ≠ 255)
    (hr : ∀ r' ∈ s.requested, r.inst = r'.inst → r = r') :
    (s.insertFindEntry repetitionsMax r).Sound repetitionsMax := by
  rw [Finder.insertFindEntry]
  split_ifs with hsent
  · obtain ⟨hrequested, hcounter⟩ := hsent
    obtain ⟨r', hr', hinst⟩ := isRequested_iff.mp hrequested
    obtain rfl := hr r' hr' hinst.symm
    have hcount := h.counts r hr'
    obtain ⟨hfinds, hlate⟩ := h.bounded r.inst
    -- Behind `update_request` the counter would be at its end.
    have hupdated : (s.since r.inst).updated = false := by
      by_contra hupdated
      rw [Bool.not_eq_false] at hupdated
      rw [hupdated, if_pos rfl] at hcount
      exact hcounter hcount
    rw [hupdated, if_neg Bool.false_ne_true] at hcount
    refine ⟨h.unique, h.current, h.todo, fun r' hr'' => ?_, fun k => ?_⟩
    · by_cases heq : r' = r
      · simp only [heq, update_self, hupdated, Bool.false_eq_true, if_false]
        have hlt := toNat_lt_of_ne hmax
        rw [UInt8.toNat_add, UInt8.toNat_one, hcount]
        omega
      · have hne : r'.inst ≠ r.inst := fun hi => heq (h.unique r' hr'' r hr' hi)
        simp only [update_of_ne heq, update_of_ne hne]
        exact h.counts r' hr''
    · by_cases hk : k = r.inst
      · simp only [hk, update_self, hupdated, Bool.false_eq_true, if_false]
        exact ⟨by omega, hlate⟩
      · simp only [update_of_ne hk]
        exact h.bounded k
  · exact h

/-- New timers: what a timer has is in use. -/
theorem Sound.timers {timers : List FindTimer}
    (hcurrent : ∀ t ∈ timers, ∀ r ∈ t.requests, ∀ r' ∈ s.requested, r.inst = r'.inst → r = r')
    (htodo : ∀ t ∈ timers, t.todo ⊆ t.requests) :
    ({ s with timers := timers } : Finder).Sound repetitionsMax :=
  ⟨h.unique, hcurrent, htodo, h.counts, h.bounded⟩

/-- A timer is replaced by one with the same requests. -/
theorem Sound.set {t t' : FindTimer} {timer : ℕ} (ht : t ∈ s.timers)
    (hrequests : t'.requests = t.requests) (htodo : t'.todo ⊆ t'.requests) :
    ({ s with timers := s.timers.set timer t' } : Finder).Sound repetitionsMax := by
  refine h.timers (fun t₁ ht₁ => ?_) (fun t₁ ht₁ => ?_)
  · rcases mem_or_eq_of_mem_set ht₁ with ht₁ | rfl
    · exact h.current t₁ ht₁
    · rw [hrequests]
      exact h.current t ht
  · rcases mem_or_eq_of_mem_set ht₁ with ht₁ | rfl
    · exact h.todo t₁ ht₁
    · exact htodo

/-- The requests without an entry get a repetition timer. Source: `on_find_debounce_timer_expired`
-/
theorem Sound.onFindDebounceTimerExpired :
    s.onFindDebounceTimerExpired.Sound repetitionsMax := by
  rw [Finder.onFindDebounceTimerExpired]
  split_ifs
  · exact h
  · refine h.timers (fun t ht => ?_) (fun t ht => ?_)
    · rcases mem_append.mp ht with ht | ht
      · exact h.current t ht
      · rw [mem_singleton.mp ht]
        exact fun r hr => h.unique r (mem_of_mem_filter hr)
    · rcases mem_append.mp ht with ht | ht
      · exact h.todo t ht
      · rw [mem_singleton.mp ht]
        exact List.Subset.refl _

/-- A repetition timer expires. Source: `on_find_repetition_phase_timer_expired` -/
theorem Sound.onFindRepetitionPhaseTimerExpired (timer : ℕ) :
    (s.onFindRepetitionPhaseTimerExpired repetitionsMax timer).Sound repetitionsMax := by
  rw [Finder.onFindRepetitionPhaseTimerExpired]
  cases ht : s.timers[timer]? with
  | none => exact h
  | some t =>
      have hmem := mem_of_getElem? ht
      dsimp only
      split_ifs
      · exact h
      · exact h.set hmem rfl (List.Subset.refl _)
      · exact h.timers (fun t' ht' => h.current t' (mem_of_mem_eraseIdx ht'))
          fun t' ht' => h.todo t' (mem_of_mem_eraseIdx ht')

/-- Each request of the timer gets an entry, up to the maximum. Source: `insert_find_entries` -/
theorem Sound.insertFindEntries (hmax : repetitionsMax ≠ 255)
    (timer : ℕ) : (s.insertFindEntries repetitionsMax timer).Sound repetitionsMax := by
  rw [Finder.insertFindEntries]
  split
  · rename_i requests r todo repetition ht
    have hmem := mem_of_getElem? ht
    have hsubset := h.todo _ hmem
    have hinserted := h.insertFindEntry hmax (h.current _ hmem r (hsubset mem_cons_self))
    rw [← @insertFindEntry_timers repetitionsMax s r] at hmem ⊢
    exact hinserted.set hmem rfl fun r' hr' => hsubset (mem_cons_of_mem r hr')
  · exact h

/-- **An orderly step** keeps the invariant. -/
theorem Sound.next {i : Input} (hi : s.Orderly repetitionsMax i) :
    (s.next repetitionsMax i).Sound repetitionsMax := by
  cases i with
  | requestService inst => exact h.requestService hi.2
  | releaseService inst => exact h.releaseService inst
  | updateRequest inst => exact h.updateRequest hi inst
  | debounce => exact h.onFindDebounceTimerExpired
  | expire timer => exact h.onFindRepetitionPhaseTimerExpired timer
  | insert timer => exact h.insertFindEntries hi timer

end sound

/-- **Finds are bounded** in every orderly run: a requested instance is in at most
`repetitions_max + 1` entries, and in none behind `update_request`. -/
theorem finds_bounded (repetitionsMax : UInt8) (is : List Input)
    (h : AllSteps (step repetitionsMax) (Orderly repetitionsMax) init is) :
    AllSteps (step repetitionsMax)
      (fun s i => ∀ o s', s.step repetitionsMax i = .ok (o, s') → s'.Bounded repetitionsMax)
      init is := by
  refine h.of_invariant (Sound repetitionsMax) ?_ ?_ sound_init
  · rintro s i o s' hs hi ⟨⟩
    exact hs.next hi
  · rintro s i hs hi o s' ⟨⟩
    exact (hs.next hi).bounded

/-- A request, its first entry, the first repetition and the offer. -/
def offered : List Input :=
  [.requestService (0x1111, 1), .debounce, .insert 0, .expire 0, .insert 0,
    .updateRequest (0x1111, 1), .expire 0, .insert 0]

theorem finds_bounded_offered : AllSteps (step 3)
    (fun s i => ∀ o s', s.step 3 i = .ok (o, s') → s'.Bounded 3) init offered :=
  finds_bounded 3 offered (by decide)

/-- A request is released and made again while the repetition timer has it, and the instance is
offered. -/
def requestedAgain : List Input :=
  [.requestService (0x1111, 1), .debounce, .insert 0, .releaseService (0x1111, 1),
    .requestService (0x1111, 1), .updateRequest (0x1111, 1), .expire 0, .insert 0]

/-- **An entry behind `update_request`**: the timer goes on with the request that was released. -/
theorem find_sent_late :
    ¬ AllSteps (step 3) (fun s i => ∀ o s', s.step 3 i = .ok (o, s') → s'.Bounded 3) init
      requestedAgain := by
  intro h
  have hlast := (((((((h.2 _ _ rfl).2 _ _ rfl).2 _ _ rfl).2 _ _ rfl).2 _ _ rfl).2 _ _ rfl).2 _ _
    rfl).1 _ _ rfl (0x1111, 1)
  exact absurd hlast.2 (by decide)

end Finder

end SomeipTunnel.Sd.FindRepetition
