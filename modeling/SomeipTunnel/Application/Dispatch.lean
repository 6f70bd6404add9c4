import SomeipTunnel.Lib.Run

/-!
# The order in which handlers are started

Handlers wait in `handlers_` until a dispatcher thread takes one. Availability handlers of a service
instance have to run one after the other. One that is taken while another of its instance runs is
put behind it in `availability_handlers_`, and so are the message handlers that are taken behind
one that waits. The thread that finishes the running one puts all that wait in front of `handlers_`
again, in their order.

`Dispatcher` has the two queues, the threads with the handlers they run and, beside these, the
handlers in the order they were queued and in the order they were started. A step is one critical
section of `handlers_mutex_`: a handler is queued, a thread takes one, or finishes the one it has.

* `dispatch_in_order`: in every run handlers are started in order, each once, and none is lost.

Source: vsomeip/implementation/runtime/src/application_impl.cpp.
-/

namespace SomeipTunnel.Application.Dispatch

open Function List StepRun

/-! ### Handlers and queues -/

/-- Source: `handler_type_e`. -/
inductive HandlerType where
  | message
  | availability
  | state
  | subscription
  | offeredServicesInfo
  | watchdog
  | unknown
  deriving DecidableEq

/-- Source: `sync_handler`; the number tells one object from another. -/
structure SyncHandler where
  number : ℕ
  handlerType : HandlerType
  serviceId : UInt16
  instanceId : UInt16
  deriving DecidableEq

/-- Source: `service_instance_t`. -/
abbrev ServiceInstance := UInt16 × UInt16

def SyncHandler.key (h : SyncHandler) : ServiceInstance := (h.serviceId, h.instanceId)

/-- An availability or message handler of an instance: one that the order is about. -/
def SyncHandler.Bound (h : SyncHandler) (k : ServiceInstance) : Prop :=
  (h.handlerType = .availability ∨ h.handlerType = .message) ∧ h.key = k

instance (h : SyncHandler) (k : ServiceInstance) : Decidable (h.Bound k) :=
  inferInstanceAs (Decidable (_ ∧ _))

/-- Source: `availability_handlers_`. The code treats an entry that is empty like one that is
missing. -/
abbrev AvailabilityHandlers := ServiceInstance → List SyncHandler

/-- `availability_handlers_[its_si_pair].push_back`. -/
def AvailabilityHandlers.push (waiting : AvailabilityHandlers) (h : SyncHandler) :
    AvailabilityHandlers :=
  update waiting h.key (waiting h.key ++ [h])

/-- Another handler is at the front of the entry of an availability handler. -/
def AvailabilityHandlers.Occupied (waiting : AvailabilityHandlers) (h : SyncHandler) : Prop :=
  waiting h.key ≠ [] ∧ (waiting h.key).head? ≠ some h

instance (waiting : AvailabilityHandlers) (h : SyncHandler) : Decidable (waiting.Occupied h) :=
  inferInstanceAs (Decidable (_ ∧ _))

section push

variable {waiting : AvailabilityHandlers} {h : SyncHandler} {k : ServiceInstance}

theorem AvailabilityHandlers.push_self : waiting.push h h.key = waiting h.key ++ [h] :=
  update_self ..

theorem AvailabilityHandlers.push_of_ne (hk : k ≠ h.key) : waiting.push h k = waiting k :=
  update_of_ne hk ..

end push

/-- Source: `get_next_handler`. -/
def getNextHandler : List SyncHandler → AvailabilityHandlers →
    Option SyncHandler × List SyncHandler × AvailabilityHandlers
  | [], waiting => (none, [], waiting)
  | h :: handlers, waiting =>
      match h.handlerType with
      | .availability =>
          if waiting.Occupied h then getNextHandler handlers (waiting.push h)
          else (some h, handlers, waiting.push h)
      | .message =>
          if 1 < (waiting h.key).length then getNextHandler handlers (waiting.push h)
          else (some h, handlers, waiting)
      | _ => (some h, handlers, waiting)

/-- What the first handler of the main queue meets: it is put behind another one, or started. -/
theorem getNextHandler_cons (h : SyncHandler) (handlers : List SyncHandler)
    (waiting : AvailabilityHandlers) : (h.Bound h.key ∧ waiting h.key ≠ [] ∧
        getNextHandler (h :: handlers) waiting = getNextHandler handlers (waiting.push h)) ∨
      (h.handlerType = .availability ∧ ¬ waiting.Occupied h ∧
        getNextHandler (h :: handlers) waiting = (some h, handlers, waiting.push h)) ∨
      h.handlerType ≠ .availability ∧ (h.handlerType = .message → (waiting h.key).length ≤ 1) ∧
        getNextHandler (h :: handlers) waiting = (some h, handlers, waiting) := by
  rcases htype : h.handlerType
  case availability =>
    by_cases hoccupied : waiting.Occupied h
    · refine .inl ⟨⟨.inl htype, rfl⟩, hoccupied.1, ?_⟩
      simp only [getNextHandler, htype, if_pos hoccupied]
    · refine .inr (.inl ⟨rfl, hoccupied, ?_⟩)
      simp only [getNextHandler, htype, if_neg hoccupied]
  case message =>
    by_cases hlong : 1 < (waiting h.key).length
    · refine .inl ⟨⟨.inr htype, rfl⟩, ne_nil_of_length_pos (Nat.zero_lt_of_lt hlong), ?_⟩
      simp only [getNextHandler, htype, if_pos hlong]
    · refine .inr (.inr ⟨nofun, fun _ => Nat.le_of_not_lt hlong, ?_⟩)
      simp only [getNextHandler, htype, if_neg hlong]
  all_goals
    refine .inr (.inr ⟨nofun, nofun, ?_⟩)
    simp only [getNextHandler, htype]

/-- Source: `reschedule_availability_handler`. -/
def rescheduleAvailabilityHandler (h : SyncHandler) (handlers : List SyncHandler)
    (waiting : AvailabilityHandlers) : List SyncHandler × AvailabilityHandlers :=
  if h.handlerType = .availability ∧ (waiting h.key).head? = some h then
    ((waiting h.key).tail ++ handlers, update waiting h.key [])
  else (handlers, waiting)

/-! ### The dispatcher -/

structure Dispatcher where
  /-- Source: `handlers_`. -/
  handlers : List SyncHandler
  waiting : AvailabilityHandlers
  /-- The handlers that the threads run. -/
  running : ℕ → Option SyncHandler
  /-- All handlers, in the order they were queued. -/
  queued : List SyncHandler
  /-- The handlers that were started, in that order. -/
  started : List SyncHandler

inductive Event where
  /-- A handler is queued. -/
  | queue (handlerType : HandlerType) (serviceId instanceId : UInt16)
  /-- A thread takes the next handler. -/
  | take (thread : ℕ)
  /-- A thread has run its handler. -/
  | finish (thread : ℕ)

namespace Dispatcher

def start : Dispatcher := ⟨[], fun _ => [], fun _ => none, [], []⟩

def queue (s : Dispatcher) (h : SyncHandler) : Dispatcher :=
  { s with handlers := s.handlers ++ [h], queued := s.queued ++ [h] }

/-- A thread begins to run a handler. -/
def run (s : Dispatcher) (thread : ℕ) (h : SyncHandler) : Dispatcher :=
  { s with running := update s.running thread (some h), started := s.started ++ [h] }

def take (s : Dispatcher) (thread : ℕ) : Dispatcher :=
  let (next, handlers, waiting) := getNextHandler s.handlers s.waiting
  let s := { s with handlers := handlers, waiting := waiting }
  match next with
  | some h => s.run thread h
  | none => s

def finish (s : Dispatcher) (thread : ℕ) (h : SyncHandler) : Dispatcher :=
  let (handlers, waiting) := rescheduleAvailabilityHandler h s.handlers s.waiting
  { s with
    handlers := handlers
    waiting := waiting
    running := update s.running thread none }

/-- One critical section; the error is that the thread is not there. -/
def step (s : Dispatcher) : Event → Except Unit (Unit × Dispatcher)
  | .queue handlerType serviceId instanceId =>
      .ok ((), s.queue ⟨s.queued.length, handlerType, serviceId, instanceId⟩)
  | .take thread =>
      match s.running thread with
      | none => .ok ((), s.take thread)
      | some _ => .error ()
  | .finish thread =>
      match s.running thread with
      | none => .error ()
      | some h => .ok ((), s.finish thread h)

/-- What is to hold. -/
structure InOrder (s : Dispatcher) : Prop where
  /-- Two availability handlers of an instance do not run at the same time. -/
  alone : ∀ thread thread' h h', s.running thread = some h → s.running thread' = some h' →
    h.handlerType = .availability → h'.handlerType = .availability → h.key = h'.key →
      thread = thread'
  /-- Behind every availability handler of the instance that was queued before. -/
  order : ∀ before h after, s.started = before ++ h :: after →
    h.handlerType = .availability ∨ h.handlerType = .message →
      ∀ a ∈ s.queued, a.handlerType = .availability → a.key = h.key → a.number < h.number →
        a ∈ before
  once : s.started.Nodup
  /-- A handler that is not started is in one of the queues. -/
  held : ∀ h ∈ s.queued, h ∉ s.started →
    s.handlers.count h = 1 ∧ (∀ k, h ∉ s.waiting k) ∨
      h ∉ s.handlers ∧ (s.waiting h.key).count h = 1 ∧ ∀ k, k ≠ h.key → h ∉ s.waiting k

end Dispatcher

/-! ### The invariant -/

namespace Dispatcher

/-- What waits for a service instance, in the order it is to be started. -/
def pending (s : Dispatcher) (k : ServiceInstance) : List SyncHandler :=
  (s.waiting k).tail ++ s.handlers.filter (·.Bound k)

/-- The invariant of the dispatcher. -/
structure Consistent (s : Dispatcher) : Prop where
  -- the numbers are the order of queuing
  number_lt : ∀ h ∈ s.queued, h.number < s.queued.length
  nodup : s.queued.Nodup
  sorted : ∀ k, (s.pending k).Pairwise fun h h' => h.number < h'.number
  -- every handler is started, in the main queue or behind a running one
  conserved : ∀ h, s.started.count h + s.handlers.count h + (s.waiting h.key).tail.count h =
    s.queued.count h
  -- an entry is the running availability handler and those that wait for it
  bound : ∀ k, ∀ h ∈ s.waiting k, h.Bound k
  front : ∀ k h, (s.waiting k).head? = some h → h ∈ s.started
  running : ∀ thread h, s.running thread = some h → h.handlerType = .availability →
    (s.waiting h.key).head? = some h
  running_inj : ∀ thread thread' h, s.running thread = some h → s.running thread' = some h →
    thread = thread'
  running_started : ∀ thread h, s.running thread = some h → h ∈ s.started
  order : ∀ before h after, s.started = before ++ h :: after →
    h.handlerType = .availability ∨ h.handlerType = .message →
      ∀ a ∈ s.queued, a.handlerType = .availability → a.key = h.key → a.number < h.number →
        a ∈ before

namespace Consistent

open AvailabilityHandlers (push_self push_of_ne)

variable {s : Dispatcher} {h : SyncHandler} {thread : ℕ}

/-- Nothing is queued. -/
theorem start : start.Consistent where
  number_lt := nofun
  nodup := nodup_nil
  sorted := fun _ => List.Pairwise.nil
  conserved := fun _ => rfl
  bound := nofun
  front := nofun
  running := nofun
  running_inj := nofun
  running_started := nofun
  order := by simp [Dispatcher.start]

/-- A handler is in one of the three places at most, and there once. -/
theorem count_le_one (hs : s.Consistent) (h : SyncHandler) :
    s.started.count h + s.handlers.count h + (s.waiting h.key).tail.count h ≤ 1 := by
  rw [hs.conserved h]
  exact nodup_iff_count_le_one.mp hs.nodup h

/-- What was started was queued. -/
theorem mem_queued_of_started (hs : s.Consistent) (hh : h ∈ s.started) : h ∈ s.queued := by
  have hpos := count_pos_iff.mpr hh
  have hsum := hs.conserved h
  exact count_pos_iff.mp (by omega)

/-- What waits has not been started. -/
theorem not_started_of_mem_handlers (hs : s.Consistent) (hh : h ∈ s.handlers) : h ∉ s.started := by
  intro hstarted
  have hpos := count_pos_iff.mpr hh
  have hpos' := count_pos_iff.mpr hstarted
  have hsum := hs.count_le_one h
  omega

/-- A handler that is not started is one of the pending ones of its instance, or in the main
queue. -/
theorem mem_of_not_started (hs : s.Consistent) (hh : h ∈ s.queued) (hnot : h ∉ s.started) :
    h ∈ s.handlers ∨ h ∈ (s.waiting h.key).tail := by
  by_contra hno
  obtain ⟨hhandlers, htail⟩ := not_or.mp hno
  have hsum := hs.conserved h
  rw [count_eq_zero.mpr hnot, count_eq_zero.mpr hhandlers, count_eq_zero.mpr htail]
    at hsum
  have hpos := count_pos_iff.mpr hh
  omega

/-- The invariant is the order that is claimed. -/
theorem inOrder (hs : s.Consistent) : s.InOrder where
  alone := by
    intro thread thread' h h' hrun hrun' htype htype' hkey
    have hfront := hs.running thread h hrun htype
    have hfront' := hs.running thread' h' hrun' htype'
    rw [← hkey, hfront] at hfront'
    obtain rfl := Option.some.inj hfront'
    exact hs.running_inj thread thread' h hrun hrun'
  order := hs.order
  once := by
    rw [nodup_iff_count_le_one]
    intro h
    have hsum := hs.count_le_one h
    omega
  held := by
    intro h hh hnot
    have hkey : ∀ k, k ≠ h.key → h ∉ s.waiting k :=
      fun k hk hmem => hk (hs.bound k h hmem).2.symm
    -- the front of an entry is started, so only the rest counts
    have hcount : (s.waiting h.key).count h = (s.waiting h.key).tail.count h := by
      rcases hw : s.waiting h.key with _ | ⟨f, rest⟩
      · rfl
      · have hne : f ≠ h := by
          rintro rfl
          exact hnot (hs.front f.key f (by rw [hw, List.head?_cons]))
        rw [count_cons_of_ne hne, tail_cons]
    have hle := hs.count_le_one h
    rcases hs.mem_of_not_started hh hnot with hmem | hmem
    · have hpos := count_pos_iff.mpr hmem
      refine .inl ⟨by omega, fun k hk => ?_⟩
      by_cases heq : k = h.key
      · subst heq
        have hpos' := count_pos_iff.mpr hk
        omega
      · exact hkey k heq hk
    · have hpos := count_pos_iff.mpr hmem
      refine .inr ⟨?_, by omega, hkey⟩
      exact count_eq_zero.mp (by omega)

/-! ### The steps -/

/-- A handler is queued. -/
theorem queue (hs : s.Consistent) (handlerType : HandlerType) (serviceId instanceId : UInt16) :
    (s.queue ⟨s.queued.length, handlerType, serviceId, instanceId⟩).Consistent := by
  generalize hnew : SyncHandler.mk s.queued.length handlerType serviceId instanceId = new
  have hnumber : new.number = s.queued.length := by rw [← hnew]
  have hfresh : new ∉ s.queued := by
    intro hmem
    have hlt := hs.number_lt new hmem
    omega
  have hheld : ∀ h, h ∈ s.handlers ∨ h ∈ (s.waiting h.key).tail → h.number < new.number := by
    intro h hh
    have hpos : 0 < s.handlers.count h + (s.waiting h.key).tail.count h := by
      rcases hh with hh | hh
      · exact Nat.add_pos_left (count_pos_iff.mpr hh) _
      · exact Nat.add_pos_right _ (count_pos_iff.mpr hh)
    have hsum := hs.conserved h
    rw [hnumber]
    exact hs.number_lt h (count_pos_iff.mp (by omega))
  refine { hs with
    number_lt := ?_, nodup := ?_, sorted := ?_, conserved := ?_, order := ?_ }
  · intro h hh
    rw [Dispatcher.queue, length_append, length_singleton]
    rcases mem_append.mp hh with hh | hh
    · exact Nat.lt_succ_of_lt (hs.number_lt h hh)
    · rw [mem_singleton.mp hh, hnumber]
      exact Nat.lt_succ_self _
  · exact nodup_append.mpr ⟨hs.nodup, nodup_singleton _, by
      intro a ha b hb hab
      rw [hab, mem_singleton.mp hb] at ha
      exact hfresh ha⟩
  · intro k
    have hpending : (s.queue new).pending k = s.pending k ++ [new].filter (·.Bound k) := by
      simp only [pending, Dispatcher.queue, filter_append, append_assoc]
    rw [hpending, pairwise_append]
    refine ⟨hs.sorted k, ?_, ?_⟩
    · exact List.Pairwise.sublist filter_sublist (pairwise_singleton _ _)
    · intro h hh h' hh'
      rw [mem_singleton.mp (mem_of_mem_filter hh')]
      refine hheld h ?_
      rcases mem_append.mp hh with hh | hh
      · have hkey := (hs.bound k h (mem_of_mem_tail hh)).2
        exact .inr (hkey ▸ hh)
      · exact .inl (mem_of_mem_filter hh)
  · intro h
    have hsum := hs.conserved h
    simp only [Dispatcher.queue, count_append]
    omega
  · intro before h after hstarted htype a ha hatype hkey hlt
    rcases mem_append.mp ha with ha | ha
    · exact hs.order before h after hstarted htype a ha hatype hkey hlt
    · -- the new one has the highest number
      have hmem : h ∈ s.started := by
        have : s.started = before ++ h :: after := hstarted
        rw [this]
        exact mem_append_right _ mem_cons_self
      have hbelow := hs.number_lt h (hs.mem_queued_of_started hmem)
      rw [mem_singleton.mp ha] at hlt
      omega

/-- The first handler of the main queue is put behind the running one of its instance. -/
theorem move {handlers : List SyncHandler} (hs : s.Consistent)
    (hhandlers : s.handlers = h :: handlers) (hbound : h.Bound h.key) (hne : s.waiting h.key ≠ []) :
    ({ s with handlers := handlers, waiting := s.waiting.push h } : Dispatcher).Consistent := by
  have htail : (s.waiting h.key ++ [h]).tail = (s.waiting h.key).tail ++ [h] :=
    tail_append_of_ne_nil hne
  have hhead : ∀ k, (s.waiting.push h k).head? = (s.waiting k).head? := by
    intro k
    by_cases hk : k = h.key
    · rw [hk, push_self, List.head?_append_of_ne_nil _ hne]
    · rw [push_of_ne hk]
  refine { hs with sorted := ?_, conserved := ?_, bound := ?_, front := ?_, running := ?_ }
  · intro k
    have hsorted := hs.sorted k
    unfold pending at hsorted ⊢
    rw [hhandlers] at hsorted
    dsimp only
    by_cases hk : k = h.key
    · subst hk
      rw [filter_cons_of_pos (by simpa using hbound)] at hsorted
      rwa [push_self, htail, append_assoc]
    · rw [filter_cons_of_neg (by simpa using fun hb => hk hb.2.symm)] at hsorted
      rwa [push_of_ne hk]
  · intro h'
    have hsum := hs.conserved h'
    rw [hhandlers] at hsum
    dsimp only
    by_cases hk : h'.key = h.key
    · rw [hk, push_self, htail, count_append, ← hsum, hk, count_singleton,
        count_cons]
      omega
    · have hne' : h ≠ h' := fun heq => hk (heq ▸ rfl)
      rw [push_of_ne hk, ← hsum, count_cons_of_ne hne']
  · intro k h' hh'
    dsimp only at hh'
    by_cases hk : k = h.key
    · subst hk
      rw [push_self] at hh'
      rcases mem_append.mp hh' with hh' | hh'
      · exact hs.bound _ h' hh'
      · rw [mem_singleton.mp hh']
        exact hbound
    · rw [push_of_ne hk] at hh'
      exact hs.bound k h' hh'
  · intro k h' hh'
    exact hs.front k h' ((hhead k).symm.trans hh')
  · intro thread h' hrun htype
    exact (hhead _).trans (hs.running thread h' hrun htype)

/-- Where nothing waits for its instance, the first handler of the main queue is behind all that
were queued before it. -/
theorem started_before {handlers : List SyncHandler} (hs : s.Consistent)
    (hhandlers : s.handlers = h :: handlers)
    (htail : h.Bound h.key → (s.waiting h.key).tail = []) {a : SyncHandler} (ha : a ∈ s.queued)
    (htype : h.handlerType = .availability ∨ h.handlerType = .message)
    (hatype : a.handlerType = .availability) (hkey : a.key = h.key) (hlt : a.number < h.number) :
    a ∈ s.started := by
  by_contra hnot
  have htail := htail ⟨htype, rfl⟩
  have hsorted := hs.sorted h.key
  have hbound : h.Bound h.key := ⟨htype, rfl⟩
  unfold pending at hsorted
  rw [htail, nil_append, hhandlers, filter_cons_of_pos (by simpa using hbound),
    pairwise_cons] at hsorted
  rcases hs.mem_of_not_started ha hnot with hmem | hmem
  · rw [hhandlers] at hmem
    rcases mem_cons.mp hmem with rfl | hmem
    · exact absurd hlt (Nat.lt_irrefl _)
    · have habound : a.Bound h.key := ⟨.inl hatype, hkey⟩
      have hgt := hsorted.1 a (mem_filter.mpr ⟨hmem, by simpa using habound⟩)
      omega
  · rw [hkey, htail] at hmem
    exact absurd hmem not_mem_nil

/-- A thread starts the first handler of the main queue; an availability handler takes the place at
the front of its entry, which is empty, and the other entries stay. -/
theorem run {handlers : List SyncHandler} {waiting : AvailabilityHandlers} (hs : s.Consistent)
    (hhandlers : s.handlers = h :: handlers)
    (htail : h.Bound h.key → (s.waiting h.key).tail = [])
    (hentry : ∀ k, (h.handlerType = .availability ∧ k = h.key) ∧ s.waiting k = [] ∧
      waiting k = [h] ∨ ¬ (h.handlerType = .availability ∧ k = h.key) ∧ waiting k = s.waiting k) :
    (({ s with handlers := handlers, waiting := waiting } : Dispatcher).run thread
      h).Consistent := by
  have hnot := hs.not_started_of_mem_handlers (hhandlers ▸ mem_cons_self)
  have hrunning : ∀ thread' h', update s.running thread (some h) thread' = some h' →
      thread' = thread ∧ h' = h ∨ s.running thread' = some h' := by
    intro thread' h' hrun
    by_cases hthread : thread' = thread
    · rw [hthread, update_self] at hrun
      exact .inl ⟨hthread, (Option.some.inj hrun).symm⟩
    · rw [update_of_ne hthread] at hrun
      exact .inr hrun
  -- what is behind the front of an entry stays the same
  have htails : ∀ k, (waiting k).tail = (s.waiting k).tail := by
    intro k
    rcases hentry k with ⟨-, hempty, hk⟩ | ⟨-, hk⟩
    · rw [hk, hempty]
      rfl
    · rw [hk]
  refine { hs with
    sorted := ?_, conserved := ?_, bound := ?_, front := ?_, running := ?_, running_inj := ?_
    running_started := ?_, order := ?_ }
  · intro k
    have hsorted := hs.sorted k
    unfold pending at hsorted ⊢
    dsimp only [Dispatcher.run]
    rw [htails]
    refine hsorted.sublist (List.Sublist.append_left ?_ _)
    rw [hhandlers]
    exact (sublist_cons_self h handlers).filter _
  · intro h'
    have hsum := hs.conserved h'
    rw [hhandlers] at hsum
    dsimp only [Dispatcher.run]
    rw [htails, count_append, count_singleton, ← hsum, count_cons]
    omega
  · intro k h' hh'
    dsimp only [Dispatcher.run] at hh'
    rcases hentry k with ⟨⟨htype, rfl⟩, -, hk⟩ | ⟨-, hk⟩ <;> rw [hk] at hh'
    · rw [mem_singleton.mp hh']
      exact ⟨.inl htype, rfl⟩
    · exact hs.bound k h' hh'
  · intro k f hf
    dsimp only [Dispatcher.run] at hf
    rcases hentry k with ⟨-, -, hk⟩ | ⟨-, hk⟩ <;> rw [hk] at hf
    · obtain rfl := Option.some.inj hf
      exact mem_append_right _ (mem_singleton_self _)
    · exact mem_append_left _ (hs.front k f hf)
  · intro thread' h' hrun htype
    dsimp only [Dispatcher.run]
    rcases hrunning thread' h' hrun with ⟨-, rfl⟩ | hrun
    · rcases hentry h'.key with ⟨-, -, hk⟩ | ⟨hno, -⟩
      · rw [hk]
        rfl
      · exact absurd ⟨htype, rfl⟩ hno
    · have hfront := hs.running thread' h' hrun htype
      rcases hentry h'.key with ⟨-, hempty, -⟩ | ⟨-, hk⟩
      · rw [hempty] at hfront
        cases hfront
      · rwa [hk]
  · intro thread₁ thread₂ h' hrun₁ hrun₂
    rcases hrunning thread₁ h' hrun₁ with ⟨h₁, heq⟩ | hrun₁ <;>
      rcases hrunning thread₂ h' hrun₂ with ⟨h₂, heq'⟩ | hrun₂
    · rw [h₁, h₂]
    · exact absurd (heq ▸ hs.running_started thread₂ h' hrun₂) hnot
    · exact absurd (heq' ▸ hs.running_started thread₁ h' hrun₁) hnot
    · exact hs.running_inj thread₁ thread₂ h' hrun₁ hrun₂
  · intro thread' h' hrun
    rcases hrunning thread' h' hrun with ⟨-, rfl⟩ | hrun
    · exact mem_append_right _ (mem_singleton_self _)
    · exact mem_append_left _ (hs.running_started thread' h' hrun)
  · intro before h' after hstarted htype a ha hatype hkey hlt
    rcases eq_nil_or_concat after with rfl | ⟨after, last, rfl⟩
    · obtain ⟨rfl, hlast⟩ := append_inj' hstarted rfl
      obtain rfl := singleton_inj.mp hlast
      exact hs.started_before hhandlers htail ha htype hatype hkey hlt
    · rw [concat_eq_append, ← cons_append, ← append_assoc] at hstarted
      obtain ⟨hstarted, -⟩ := append_inj' hstarted rfl
      exact hs.order before h' after hstarted htype a ha hatype hkey hlt

/-- The other threads go on. -/
theorem running_of_release {thread' : ℕ} {h' : SyncHandler}
    (hrun : update s.running thread none thread' = some h') :
    thread' ≠ thread ∧ s.running thread' = some h' := by
  by_cases hthread : thread' = thread
  · rw [hthread, update_self] at hrun
    cases hrun
  · rw [update_of_ne hthread] at hrun
    exact ⟨hthread, hrun⟩

/-- A thread has run its handler. -/
theorem release (hs : s.Consistent) (thread : ℕ) :
    ({ s with running := update s.running thread none } : Dispatcher).Consistent := by
  refine { hs with running := ?_, running_inj := ?_, running_started := ?_ }
  · intro thread' h' hrun htype
    exact hs.running thread' h' (running_of_release hrun).2 htype
  · intro thread₁ thread₂ h' hrun₁ hrun₂
    exact hs.running_inj thread₁ thread₂ h' (running_of_release hrun₁).2 (running_of_release hrun₂).2
  · intro thread' h' hrun
    exact hs.running_started thread' h' (running_of_release hrun).2

/-- What waited for the handler goes back in front of the main queue, in its place of the order. -/
theorem finish (hs : s.Consistent) (hrun : s.running thread = some h) :
    (s.finish thread h).Consistent := by
  have hreleased := hs.release thread
  unfold Dispatcher.finish rescheduleAvailabilityHandler
  split_ifs with hfront
  · obtain ⟨htype, hfront⟩ := hfront
    have hother : ∀ k, k ≠ h.key → (s.waiting h.key).tail.filter (·.Bound k) = [] := by
      intro k hk
      rw [filter_eq_nil_iff]
      intro h' hh'
      have hb := hs.bound _ h' (mem_of_mem_tail hh')
      simpa using fun hb' : h'.Bound k => hk (hb'.2.symm.trans hb.2)
    have hown : (s.waiting h.key).tail.filter (·.Bound h.key) = (s.waiting h.key).tail := by
      rw [filter_eq_self]
      intro h' hh'
      simpa using hs.bound _ h' (mem_of_mem_tail hh')
    have hentry : ∀ k, update s.waiting h.key [] k = [] ∨
        update s.waiting h.key [] k = s.waiting k := by
      intro k
      by_cases hk : k = h.key
      · exact .inl (hk ▸ update_self _ _ _)
      · exact .inr (update_of_ne hk _ _)
    refine { hreleased with
      sorted := ?_, conserved := ?_, bound := ?_, front := ?_, running := ?_ }
    · intro k
      have hsorted := hs.sorted k
      unfold pending at hsorted ⊢
      dsimp only
      rw [filter_append]
      by_cases hk : k = h.key
      · subst hk
        rw [update_self, hown]
        exact hsorted
      · rw [update_of_ne hk, hother k hk]
        exact hsorted
    · intro h'
      have hsum := hs.conserved h'
      dsimp only
      rw [count_append, ← hsum]
      by_cases hk : h'.key = h.key
      · rw [hk, update_self]
        simp only [tail_nil, count_nil]
        omega
      · have hzero : (s.waiting h.key).tail.count h' = 0 := by
          rw [count_eq_zero]
          intro hmem
          exact hk (hs.bound _ h' (mem_of_mem_tail hmem)).2
        rw [update_of_ne hk, hzero, Nat.zero_add]
    · intro k h' hh'
      dsimp only at hh'
      rcases hentry k with hk | hk <;> rw [hk] at hh'
      · cases hh'
      · exact hs.bound k h' hh'
    · intro k f hf
      dsimp only at hf
      rcases hentry k with hk | hk <;> rw [hk] at hf
      · cases hf
      · exact hs.front k f hf
    · intro thread' h' hrun' htype'
      obtain ⟨hthread, hrun'⟩ := running_of_release hrun'
      have hfront' := hs.running thread' h' hrun' htype'
      dsimp only
      by_cases hk : h'.key = h.key
      · rw [hk, hfront] at hfront'
        obtain rfl := Option.some.inj hfront'
        exact absurd (hs.running_inj thread' thread h hrun' hrun) hthread
      · rw [update_of_ne hk]
        exact hfront'
  · exact hreleased

/-- A thread takes the next handler: a loop of moves, and a start if a handler is found. -/
theorem take (hs : s.Consistent) : (s.take thread).Consistent := by
  obtain ⟨handlers, waiting, running, queued, started⟩ := s
  induction handlers generalizing waiting with
  | nil => exact hs
  | cons h handlers ih =>
      unfold Dispatcher.take at ih ⊢
      rcases getNextHandler_cons h handlers waiting with
        ⟨hbound, hne, heq⟩ | ⟨htype, hfree, heq⟩ | ⟨htype, hshort, heq⟩
      · rw [heq]
        exact ih _ (hs.move rfl hbound hne)
      · -- the handler itself is not at the front, so the entry is empty
        have hempty : waiting h.key = [] := by
          by_contra hne
          have hfront : (waiting h.key).head? = some h := not_not.mp fun hno => hfree ⟨hne, hno⟩
          exact hs.not_started_of_mem_handlers mem_cons_self (hs.front h.key h hfront)
        rw [heq]
        refine hs.run rfl (fun _ => congrArg List.tail hempty) fun k => ?_
        by_cases hk : k = h.key
        · subst hk
          exact .inl ⟨⟨htype, rfl⟩, hempty, push_self.trans (by rw [hempty]; rfl)⟩
        · exact .inr ⟨fun hb => hk hb.2, push_of_ne hk⟩
      · rw [heq]
        refine hs.run rfl (fun hb => ?_) fun k => .inr ⟨fun hb => htype hb.1, rfl⟩
        have hlength := hshort (hb.1.resolve_left htype)
        refine eq_nil_of_length_eq_zero ?_
        rw [length_tail]
        exact Nat.sub_eq_zero_of_le hlength

/-- **The step lemma.** -/
theorem step {s' : Dispatcher} (hs : s.Consistent) {e : Event} {o : Unit}
    (h : s.step e = .ok (o, s')) : s'.Consistent := by
  cases e with
  | queue handlerType serviceId instanceId =>
      cases h
      exact hs.queue handlerType serviceId instanceId
  | take thread =>
      unfold Dispatcher.step at h
      dsimp only at h
      split at h
      · cases h
        exact hs.take
      · cases h
  | finish thread =>
      unfold Dispatcher.step at h
      dsimp only at h
      split at h
      · cases h
      · rename_i hrun
        cases h
        exact hs.finish hrun

end Consistent

end Dispatcher

/-- **Handlers are started in order.** In every run two availability handlers of an instance never
run at the same time, availability and message handlers are started behind the availability handlers
of their instance that were queued before, no handler is started twice, and one that is not started
is in exactly one of the queues. -/
theorem dispatch_in_order (events : List Event) :
    AllSteps Dispatcher.step (fun s e => ∀ o s', s.step e = .ok (o, s') → s'.InOrder)
      Dispatcher.start events := by
  refine AllSteps.of_forall Dispatcher.Consistent ?_ ?_ Dispatcher.Consistent.start
  · intro s e o s' hs hstep
    exact hs.step hstep
  · intro s e hs o s' hstep
    exact (hs.step hstep).inOrder

end SomeipTunnel.Application.Dispatch
