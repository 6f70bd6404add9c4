import SomeipTunnel.Lib.Run

/-!
# The queues of offer commands

The routing manager executes the offers and stop-offers of a service instance one after the other.
The front of the queue of the instance is the lock: who queues a command behind another one leaves
it to be executed later, and who finishes a command takes it out and posts the next one. A stop-offer
whose service has server endpoints is finished by their stop callbacks.

A `Lane` is what happens for one service and instance: the queue, the executions that have not yet
taken their command out of the queue, those that have and still have to tell the stub, and in which
order commands were begun and the stub was told. Steps are what the code does in one critical section
of `offer_serialization_mutex_`, so that a run is any interleaving of the threads.

* `OfferQueues.serialised`: the front of the queue is a lock, whatever the interleaving.
* `offer_commands_serialised`: the stub is told in the order of the queue, under a condition: a
  command is taken out of the queue before the stub is told of it, so that the order can be lost
  (`stub_told_backwards`).

Source: vsomeip/implementation/routing/src/routing_manager_impl.cpp
-/

namespace SomeipTunnel.Routing

open List StepRun

/-! ### The code -/

/-- Source: `protocol::id_e`, the two members that are queued. -/
inductive OfferCommandId
  | offerService
  | stopOfferService
deriving DecidableEq

/-- Source: the tuples in `offer_commands_`. -/
structure OfferCommand where
  command : OfferCommandId
  client : ℕ
  major : ℕ
  minor : ℕ
deriving DecidableEq

/-- A command in the queue, with its number in the order of queueing. -/
structure Entry where
  ticket : ℕ
  command : OfferCommand
deriving DecidableEq

/-- How far an execution has come: posted to `io_`, executing, or waiting for the stop callbacks of
the endpoints (`ready_to_stop_t`). -/
inductive Phase
  | posted
  | executing
  | stopping (reliable unreliable : Bool)
deriving DecidableEq

/-- The execution of a command that is still in the queue. -/
structure Execution where
  entry : Entry
  phase : Phase
deriving DecidableEq

/-- One service and instance. -/
structure Lane where
  /-- Source: `offer_commands_[(service, instance)]`. -/
  queue : List Entry
  executions : List Execution
  /-- The commands that have left the queue and of which the stub has to be told. -/
  owing : List Entry
  /-- What the stub has been told: `on_offer_service` and `on_stop_offer_service`. -/
  told : List Entry
  /-- How many commands have been queued. -/
  queued : ℕ
  /-- The commands that have been begun. -/
  begun : List ℕ

/-- What the rest of the routing manager answers while a command is executed. -/
structure Surroundings where
  /-- The client is another one than the routing manager, or security allows it to offer. -/
  allowed : Bool
  /-- Source: the result of `handle_local_offer_service`. -/
  handled : Bool
  /-- Source: `is_local` in `stop_offer_service`. -/
  isLocal : Bool
  /-- The second `find_service`: whether the service has a reliable and an unreliable endpoint. -/
  info : Option (Bool × Bool)

namespace Lane

variable (l : Lane)

def empty : Lane := ⟨[], [], [], [], 0, []⟩

/-- Source: `routing_manager_impl::insert_offer_command`. -/
def insertOfferCommand (c : OfferCommand) : Bool × Lane :=
  (l.queue.isEmpty, { l with queue := l.queue ++ [⟨l.queued, c⟩], queued := l.queued + 1 })

/-- Source: `routing_manager_impl::erase_offer_command`. -/
def eraseOfferCommand : Lane :=
  match l.queue with
  | [] => l
  | _ :: rest =>
      { l with
        queue := rest
        executions := l.executions ++ rest.head?.toList.map (⟨·, .posted⟩) }

/-- `offer_service` or `stop_offer_service` is called with `_must_queue`. -/
def call (c : OfferCommand) : Lane :=
  let (mustProcess, l') := l.insertOfferCommand c
  if mustProcess then
    { l' with
      executions := l'.executions ++ [⟨⟨l.queued, c⟩, .executing⟩]
      begun := l'.begun ++ [l.queued] }
  else l'

/-- The execution ends with `erase_offer_command`; afterwards the stub is told or not. -/
def finish (x : Execution) (tell : Bool) : Lane :=
  let l' := { l with executions := l.executions.erase x }.eraseOfferCommand
  if tell then { l' with owing := l'.owing ++ [x.entry] } else l'

def setPhase (x : Execution) (phase : Phase) : Lane :=
  { l with executions := l.executions.replace x { x with phase } }

/-- Source: `routing_manager_impl::offer_service`, behind the queueing. -/
def offerService (x : Execution) (around : Surroundings) : Lane :=
  if !around.allowed then l.finish x false
  else if !around.handled then l.finish x false
  else l.finish x true

/-- Source: `routing_manager_impl::on_stop_offer_service`. -/
def onStopOfferService (x : Execution) (around : Surroundings) : Lane :=
  match around.info with
  | some (reliable, unreliable) =>
      if !reliable && !unreliable then l.finish x true
      else l.setPhase x (.stopping (!reliable) (!unreliable))
  | none => l.finish x true

/-- Source: `routing_manager_impl::stop_offer_service`, behind the queueing. -/
def stopOfferService (x : Execution) (around : Surroundings) : Lane :=
  if around.isLocal then l.onStopOfferService x around else l.finish x false

def execute (x : Execution) (around : Surroundings) : Lane :=
  match x.entry.command.command with
  | .offerService => l.offerService x around
  | .stopOfferService => l.stopOfferService x around

end Lane

/-- What happens to a service instance. The executions are named by their tickets. -/
inductive OfferEvent
  /-- A thread calls `offer_service` or `stop_offer_service`. -/
  | call (c : OfferCommand)
  /-- The posted continuation begins. -/
  | resume (ticket : ℕ)
  | execute (ticket : ℕ) (around : Surroundings)
  /-- The stop callback of an endpoint sets its flag. -/
  | stopped (ticket : ℕ) (reliable : Bool)
  /-- A stop callback that finds both flags set. -/
  | ready (ticket : ℕ)
  /-- The stub is told. -/
  | tell (ticket : ℕ)

namespace Lane

/-- One step; what cannot happen changes nothing. A stop callback that is ready looks its ticket up:
the first one ends the execution, so that a second one finds none, as it finds `done_` set in the
source (`ready_to_stop_t`). -/
def step (l : Lane) : OfferEvent → Lane
  | .call c => l.call c
  | .resume ticket =>
      match l.executions.find? (·.entry.ticket = ticket) with
      | some ⟨entry, .posted⟩ =>
          { l.setPhase ⟨entry, .posted⟩ .executing with begun := l.begun ++ [entry.ticket] }
      | _ => l
  | .execute ticket around =>
      match l.executions.find? (·.entry.ticket = ticket) with
      | some ⟨entry, .executing⟩ => l.execute ⟨entry, .executing⟩ around
      | _ => l
  | .stopped ticket reliable =>
      match l.executions.find? (·.entry.ticket = ticket) with
      | some ⟨entry, .stopping r u⟩ =>
          l.setPhase ⟨entry, .stopping r u⟩ (.stopping (r || reliable) (u || !reliable))
      | _ => l
  | .ready ticket =>
      match l.executions.find? (·.entry.ticket = ticket) with
      | some ⟨entry, .stopping true true⟩ => l.finish ⟨entry, .stopping true true⟩ true
      | _ => l
  | .tell ticket =>
      match l.owing.find? (·.ticket = ticket) with
      | some entry => { l with owing := l.owing.erase entry, told := l.told ++ [entry] }
      | none => l

/-! ### The front of the queue as a lock -/

/-- Commands are executed one at a time and in the order of the queue, each once: whoever has a
command in the queue has the first one, and the commands that have been begun, followed by those of
the queue that have not, are all that were queued. -/
structure Serialised (l : Lane) : Prop where
  one : l.executions.map Execution.entry = l.queue.take 1
  order : l.begun ++ (l.queue.map Entry.ticket).filter (· ∉ l.begun) = List.range l.queued

/-- The stub has been told in the order of the queue. -/
def InOrder (l : Lane) : Prop := (l.told.map Entry.ticket).Pairwise (· < ·)

variable {x : Execution} {rest : List Entry}

/-- The only execution ends: its command leaves the queue and the next one is posted. -/
theorem finish_eq {l : Lane} (hx : l.executions = [x]) (hq : l.queue = x.entry :: rest)
    (tell : Bool) :
    l.finish x tell = { l with
      queue := rest
      executions := rest.head?.toList.map (⟨·, .posted⟩)
      owing := if tell then l.owing ++ [x.entry] else l.owing } := by
  cases tell <;> simp [finish, eraseOfferCommand, hq, hx]

/-- An execution is finished, or waits for the stop callbacks of the endpoints. -/
theorem execute_cases {P : Lane → Prop} {l : Lane} (hfinish : ∀ tell, P (l.finish x tell))
    (hphase : ∀ reliable unreliable, P (l.setPhase x (.stopping reliable unreliable)))
    (around : Surroundings) : P (l.execute x around) := by
  unfold execute
  split
  · unfold offerService
    split_ifs
    · exact hfinish false
    · exact hfinish false
    · exact hfinish true
  · unfold stopOfferService onStopOfferService
    split_ifs
    · split
      · split_ifs
        · exact hfinish true
        · exact hphase _ _
      · exact hfinish true
    · exact hfinish false

/-- What every step keeps: beside the above, only the front may have been begun, and it has been
unless it is posted. -/
structure Locked (l : Lane) : Prop extends l.Serialised where
  tail : ∀ e ∈ l.queue.tail, e.ticket ∉ l.begun
  posted : ∀ x ∈ l.executions, x.phase = .posted ↔ x.entry.ticket ∉ l.begun

namespace Locked

variable {l : Lane}

/-- Nothing is queued and nobody is at work. -/
theorem empty : Lane.empty.Locked where
  one := rfl
  order := rfl
  tail _ h := absurd h not_mem_nil
  posted _ h := absurd h not_mem_nil

/-- Only commands that were queued are begun. -/
theorem begun_lt (h : l.Locked) {t : ℕ} (ht : t ∈ l.begun) : t < l.queued := by
  have hmem : t ∈ List.range l.queued := h.order ▸ mem_append_left _ ht
  exact mem_range.mp hmem

/-- Without a command in the queue nobody is at work. -/
theorem executions_eq_nil (h : l.Locked) (hq : l.queue = []) : l.executions = [] := by
  have hone := h.one
  rw [hq] at hone
  exact map_eq_nil_iff.mp hone

/-- Who is found at work has the front of the queue, and is alone. -/
theorem of_find (h : l.Locked) {p : Execution → Bool} (hx : l.executions.find? p = some x) :
    l.executions = [x] ∧ ∃ rest, l.queue = x.entry :: rest := by
  have hmem := mem_of_find?_eq_some hx
  have hone := h.one
  rcases hq : l.queue with _ | ⟨e, rest⟩
  · rw [h.executions_eq_nil hq] at hmem
    cases hmem
  · rw [hq, take_succ_cons, take_zero] at hone
    obtain ⟨y, hy, rfl⟩ := map_eq_singleton_iff.mp hone
    rw [hy, mem_singleton] at hmem
    subst hmem
    exact ⟨hy, rest, rfl⟩

/-- A command that is queued behind others waits; the first one is begun by its caller. Source:
`offer_service`, `stop_offer_service` -/
theorem call (h : l.Locked) (c : OfferCommand) : (l.call c).Locked := by
  unfold Lane.call insertOfferCommand
  have hnew : l.queued ∉ l.begun := fun hmem => absurd (h.begun_lt hmem) (lt_irrefl _)
  rcases hq : l.queue with _ | ⟨e, rest⟩
  · have hone := h.executions_eq_nil hq
    have horder := h.order
    rw [hq] at horder
    simp only [map_nil, filter_nil, append_nil] at horder
    refine ⟨⟨?_, ?_⟩, ?_, ?_⟩
    · simp [hone]
    · simp [range_succ, horder]
    · simp
    · simp [hone]
  · simp only [isEmpty_cons, Bool.false_eq_true, if_false]
    refine ⟨⟨?_, ?_⟩, ?_, h.posted⟩
    · rw [h.one, hq]
      rfl
    · have horder := h.order
      rw [hq] at horder
      rw [map_append, filter_append, ← append_assoc, horder]
      simp [hnew, range_succ]
    · have htail := h.tail
      rw [hq] at htail
      simp only [cons_append, tail_cons, mem_append, mem_singleton]
      rintro e' (he' | rfl)
      · exact htail e' he'
      · exact hnew

/-- A change of phase of what has been begun. -/
theorem setPhase (h : l.Locked) (hx : l.executions = [x]) (hne : x.phase ≠ .posted) {phase : Phase}
    (hphase : phase ≠ .posted) : (l.setPhase x phase).Locked := by
  have hexec : (l.setPhase x phase).executions = [{ x with phase }] := by
    simp [Lane.setPhase, hx]
  have hposted := h.posted x (by rw [hx]; exact mem_singleton_self x)
  refine ⟨⟨?_, h.order⟩, h.tail, ?_⟩
  · rw [hexec]
    have hone := h.one
    rw [hx] at hone
    exact hone
  · intro y hy
    rw [hexec, mem_singleton] at hy
    subst hy
    exact ⟨fun heq => absurd heq hphase, fun hmem => absurd (hposted.mpr hmem) hne⟩

/-- The posted command begins. -/
theorem resume (h : l.Locked) {entry : Entry} (hx : l.executions = [⟨entry, .posted⟩])
    (hq : l.queue = entry :: rest) :
    Locked { l.setPhase ⟨entry, .posted⟩ .executing with
      begun := l.begun ++ [entry.ticket] } := by
  have hexec : (l.setPhase ⟨entry, .posted⟩ .executing).executions = [⟨entry, .executing⟩] := by
    simp [Lane.setPhase, hx]
  have hnew : entry.ticket ∉ l.begun :=
    (h.posted ⟨entry, .posted⟩ (by rw [hx]; exact mem_singleton_self _)).mp rfl
  have htail : ∀ e ∈ rest, e.ticket ∉ l.begun := fun e he => h.tail e (by rw [hq]; exact he)
  -- nothing behind the front has been begun, so that the queue is the rest of all tickets
  have hrest : (rest.map Entry.ticket).filter (· ∉ l.begun) = rest.map Entry.ticket := by
    rw [filter_eq_self]
    intro t ht
    obtain ⟨e, he, rfl⟩ := mem_map.mp ht
    exact decide_eq_true (htail e he)
  have horder := h.order
  rw [hq, map_cons, filter_cons_of_pos (by simpa using hnew), hrest] at horder
  have hnodup : (l.begun ++ entry.ticket :: rest.map Entry.ticket).Nodup := by
    rw [horder]
    exact nodup_range
  have hfront : entry.ticket ∉ rest.map Entry.ticket :=
    (nodup_cons.mp (nodup_append.mp hnodup).2.1).1
  have hafter : ∀ e ∈ rest, e.ticket ∉ l.begun ++ [entry.ticket] := by
    intro e he hmem
    rcases mem_append.mp hmem with hmem | hmem
    · exact htail e he hmem
    · rw [mem_singleton] at hmem
      exact hfront (hmem ▸ mem_map_of_mem he)
  refine ⟨⟨?_, ?_⟩, ?_, ?_⟩
  · rw [hexec]
    show [entry] = l.queue.take 1
    rw [hq]
    rfl
  · show (l.begun ++ [entry.ticket]) ++ (l.queue.map Entry.ticket).filter
      (· ∉ l.begun ++ [entry.ticket]) = List.range l.queued
    rw [hq, map_cons, filter_cons_of_neg (by simp), ← horder, append_assoc]
    congr 1
    rw [singleton_append, filter_eq_self.mpr]
    intro t ht
    obtain ⟨e, he, rfl⟩ := mem_map.mp ht
    exact decide_eq_true (hafter e he)
  · intro e he
    exact hafter e (by simpa [Lane.setPhase, hq] using he)
  · intro y hy
    rw [hexec, mem_singleton] at hy
    subst hy
    simp

/-- A command that has been begun is taken out of the queue. -/
theorem finish (h : l.Locked) (hx : l.executions = [x]) (hne : x.phase ≠ .posted)
    (hq : l.queue = x.entry :: rest) (tell : Bool) : (l.finish x tell).Locked := by
  have hbegun : x.entry.ticket ∈ l.begun := by
    by_contra hmem
    exact hne ((h.posted x (by rw [hx]; exact mem_singleton_self x)).mpr hmem)
  have htail : ∀ e ∈ rest, e.ticket ∉ l.begun := fun e he => h.tail e (by rw [hq]; exact he)
  have hlane : Locked { l with
      queue := rest, executions := rest.head?.toList.map (⟨·, .posted⟩) } := by
    refine ⟨⟨?_, ?_⟩, fun e he => htail e (mem_of_mem_tail he), ?_⟩
    · cases rest <;> rfl
    · have horder := h.order
      rwa [hq, map_cons, filter_cons_of_neg (by simpa using hbegun)] at horder
    · intro y hy
      obtain ⟨e, he, rfl⟩ := mem_map.mp hy
      have hmem : e ∈ rest := mem_of_mem_head? (Option.mem_toList.mp he)
      exact ⟨fun _ => htail e hmem, fun _ => rfl⟩
  rw [finish_eq hx hq]
  exact ⟨⟨hlane.one, hlane.order⟩, hlane.tail, hlane.posted⟩

/-- Every way through `offer_service` and `stop_offer_service` ends the execution or leaves it to the
stop callbacks. -/
theorem execute (h : l.Locked) (hx : l.executions = [x]) (hne : x.phase ≠ .posted)
    (hq : l.queue = x.entry :: rest) (around : Surroundings) : (l.execute x around).Locked :=
  execute_cases (h.finish hx hne hq) (fun _ _ => h.setPhase hx hne nofun) around

/-- **One step.** Whatever a thread does, the front of the queue stays the lock. -/
theorem step (h : l.Locked) (event : OfferEvent) : (l.step event).Locked := by
  cases event with
  | call c => exact h.call c
  | resume ticket =>
      simp only [Lane.step]
      split
      · rename_i entry hfind
        obtain ⟨hx, rest, hq⟩ := h.of_find hfind
        exact h.resume hx hq
      · exact h
  | execute ticket around =>
      simp only [Lane.step]
      split
      · rename_i entry hfind
        obtain ⟨hx, rest, hq⟩ := h.of_find hfind
        exact h.execute hx nofun hq around
      · exact h
  | stopped ticket reliable =>
      simp only [Lane.step]
      split
      · rename_i entry r u hfind
        obtain ⟨hx, -⟩ := h.of_find hfind
        exact h.setPhase hx nofun nofun
      · exact h
  | ready ticket =>
      simp only [Lane.step]
      split
      · rename_i entry hfind
        obtain ⟨hx, rest, hq⟩ := h.of_find hfind
        exact h.finish hx nofun hq true
      · exact h
  | tell ticket =>
      simp only [Lane.step]
      split
      · exact ⟨⟨h.one, h.order⟩, h.tail, h.posted⟩
      · exact h

end Locked

/-! ### In which order the stub is told -/

/-- The step begins no command while the stub has to be told of an earlier one. -/
def Settled (l : Lane) : OfferEvent → Prop
  | .call _ => l.queue = [] → l.owing = []
  | .resume _ => l.owing = []
  | _ => True

instance (l : Lane) : (event : OfferEvent) → Decidable (l.Settled event)
  | .call _ => inferInstanceAs (Decidable (_ → _))
  | .resume _ => inferInstanceAs (Decidable (_ = _))
  | .execute _ _ | .stopped _ _ | .ready _ | .tell _ => .isTrue trivial

/-- The commands of which the stub has been told, those of which it has to be told and those in the
queue. -/
def inTurn (l : Lane) : List ℕ := (l.told ++ l.owing ++ l.queue).map Entry.ticket

/-- What every settled step keeps: these follow each other in the order of queueing, and while the
stub has to be told of a command, none has been begun. -/
structure Calm (l : Lane) : Prop where
  sorted : l.inTurn.Pairwise (· < ·)
  lt : ∀ t ∈ l.inTurn, t < l.queued
  one : l.owing.length ≤ 1
  posted : l.owing ≠ [] → ∀ x ∈ l.executions, x.phase = .posted

namespace Calm

variable {l : Lane}

/-- Nothing is owed. -/
theorem empty : Lane.empty.Calm where
  sorted := .nil
  lt _ h := absurd h not_mem_nil
  one := Nat.zero_le _
  posted h := absurd rfl h

/-- The stub has been told of the first of the commands in turn. -/
theorem inOrder (h : l.Calm) : l.InOrder := by
  have hsub : (l.told.map Entry.ticket).Sublist l.inTurn := by
    refine List.Sublist.map _ ?_
    rw [append_assoc]
    exact sublist_append_left _ _
  exact h.sorted.sublist hsub

/-- Nothing is owed while a command is at work. -/
theorem owing_eq_nil (h : l.Calm) (hx : l.executions = [x])
    (hne : x.phase ≠ .posted) : l.owing = [] := by
  by_contra howing
  exact hne (h.posted howing x (by rw [hx]; exact mem_singleton_self x))

/-- A new command comes last. Source: `insert_offer_command` -/
theorem call (h : l.Calm) (c : OfferCommand) (hc : l.Settled (.call c)) : (l.call c).Calm := by
  have hturn : (l.call c).inTurn = l.inTurn ++ [l.queued] := by
    unfold Lane.call insertOfferCommand inTurn
    simp only
    split_ifs <;> simp
  have hqueued : (l.call c).queued = l.queued + 1 := by
    unfold Lane.call insertOfferCommand
    simp only
    split_ifs <;> rfl
  have howing : (l.call c).owing = l.owing := by
    unfold Lane.call insertOfferCommand
    simp only
    split_ifs <;> rfl
  refine ⟨?_, ?_, howing ▸ h.one, ?_⟩
  · rw [hturn, List.pairwise_append]
    refine ⟨h.sorted, List.pairwise_singleton _ _, fun t ht t' ht' => ?_⟩
    rw [List.mem_singleton.mp ht']
    exact h.lt t ht
  · intro t ht
    rw [hturn, List.mem_append, List.mem_singleton] at ht
    rw [hqueued]
    rcases ht with ht | rfl
    · exact (h.lt t ht).trans (Nat.lt_succ_self _)
    · exact Nat.lt_succ_self _
  · intro hne
    rw [howing] at hne
    have hq : l.queue ≠ [] := fun hq => hne (hc hq)
    have hexec : (l.call c).executions = l.executions := by
      unfold Lane.call insertOfferCommand
      simp only [List.isEmpty_iff, hq, if_false]
    rw [hexec]
    exact h.posted hne

/-- A change that leaves the three lists alone, while nothing is owed. -/
theorem of_owing_eq_nil (h : l.Calm) (hnil : l.owing = []) (executions : List Execution)
    (begun : List ℕ) : Calm { l with executions, begun } :=
  ⟨h.sorted, h.lt, h.one, fun hne => absurd hnil hne⟩

/-- The command moves from the front of the queue to those that are owed, or is dropped. Source:
`erase_offer_command` -/
theorem finish (h : l.Calm) (hx : l.executions = [x]) (hne : x.phase ≠ .posted)
    (hq : l.queue = x.entry :: rest) (tell : Bool) : (l.finish x tell).Calm := by
  have hnil := h.owing_eq_nil hx hne
  have hturn : l.inTurn = (l.told ++ [x.entry] ++ rest).map Entry.ticket := by
    simp [inTurn, hnil, hq]
  have hsorted := h.sorted
  have hlt := h.lt
  rw [hturn] at hsorted hlt
  rw [finish_eq hx hq]
  cases tell
  · have hsub : ((l.told ++ l.owing ++ rest).map Entry.ticket).Sublist
        ((l.told ++ [x.entry] ++ rest).map Entry.ticket) := by
      rw [hnil, append_nil]
      exact ((sublist_append_left _ _).append_right _).map _
    exact ⟨hsorted.sublist hsub, fun t ht => hlt t (hsub.subset ht), h.one,
      fun hne => absurd hnil hne⟩
  · simp only [if_true, hnil, nil_append]
    refine ⟨hsorted, hlt, le_rfl, fun _ y hy => ?_⟩
    obtain ⟨e, -, rfl⟩ := mem_map.mp hy
    rfl

/-- The same of every way through the two functions. -/
theorem execute (h : l.Calm) (hx : l.executions = [x]) (hne : x.phase ≠ .posted)
    (hq : l.queue = x.entry :: rest) (around : Surroundings) : (l.execute x around).Calm := by
  have hnil := h.owing_eq_nil hx hne
  exact execute_cases (h.finish hx hne hq) (fun _ _ => h.of_owing_eq_nil hnil _ _) around

/-- The stub is told of the only command it has to be told of. -/
theorem tell (h : l.Calm) {entry : Entry} {p : Entry → Bool}
    (hfind : l.owing.find? p = some entry) :
    Calm { l with owing := l.owing.erase entry, told := l.told ++ [entry] } := by
  have howing : l.owing = [entry] := by
    have hmem := mem_of_find?_eq_some hfind
    obtain ⟨e, he⟩ := length_eq_one_iff.mp
      (le_antisymm h.one (length_pos_of_mem hmem))
    rw [he, mem_singleton] at hmem
    rw [he, hmem]
  have hturn : l.inTurn =
      inTurn { l with owing := l.owing.erase entry, told := l.told ++ [entry] } := by
    simp [inTurn, howing]
  refine ⟨hturn ▸ h.sorted, hturn ▸ h.lt, ?_, ?_⟩
  · simp [howing]
  · simp [howing]

/-- **One step.** A settled step keeps the commands in turn. -/
theorem step (h : l.Calm) (hlocked : l.Locked) {event : OfferEvent} (hc : l.Settled event) :
    (l.step event).Calm := by
  cases event with
  | call c => exact h.call c hc
  | resume ticket =>
      simp only [Lane.step]
      split
      · exact h.of_owing_eq_nil hc _ _
      · exact h
  | execute ticket around =>
      simp only [Lane.step]
      split
      · rename_i entry hfind
        obtain ⟨hx, rest, hq⟩ := hlocked.of_find hfind
        exact h.execute hx nofun hq around
      · exact h
  | stopped ticket reliable =>
      simp only [Lane.step]
      split
      · rename_i entry r u hfind
        obtain ⟨hx, -⟩ := hlocked.of_find hfind
        exact h.of_owing_eq_nil (h.owing_eq_nil hx nofun) _ _
      · exact h
  | ready ticket =>
      simp only [Lane.step]
      split
      · rename_i entry hfind
        obtain ⟨hx, rest, hq⟩ := hlocked.of_find hfind
        exact h.finish hx nofun hq true
      · exact h
  | tell ticket =>
      simp only [Lane.step]
      split
      · rename_i entry hfind
        exact h.tell hfind
      · exact h

end Calm

end Lane

/-! ### Runs -/

namespace OfferQueues

/-- The lanes of all services and instances. -/
abbrev State := ℕ × ℕ → Lane

def start : State := fun _ => .empty

/-- A step of one service instance. -/
def step (s : State) (input : (ℕ × ℕ) × OfferEvent) : Except Empty (Unit × State) :=
  .ok ((), Function.update s input.1 ((s input.1).step input.2))

/-- The step begins no command of an instance while the stub has to be told of an earlier one of
that instance. -/
def Settled (s : State) (input : (ℕ × ℕ) × OfferEvent) : Prop := (s input.1).Settled input.2

instance (s : State) (input : (ℕ × ℕ) × OfferEvent) : Decidable (Settled s input) :=
  inferInstanceAs (Decidable ((s input.1).Settled input.2))

/-- What a step of one lane keeps, all lanes keep. -/
theorem forall_step {P : Lane → Prop} {s s' : State} {input : (ℕ × ℕ) × OfferEvent} {o : Unit}
    (h : ∀ key, P (s key)) (hlane : P ((s input.1).step input.2))
    (hstep : step s input = .ok (o, s')) : ∀ key, P (s' key) := by
  cases hstep
  intro key
  by_cases hkey : key = input.1
  · subst hkey
    rw [Function.update_self]
    exact hlane
  · rw [Function.update_of_ne hkey]
    exact h key

/-- **The commands are serialised**, in every interleaving. -/
theorem serialised (events : List ((ℕ × ℕ) × OfferEvent)) :
    AllSteps step (fun s _ => ∀ key, (s key).Serialised) start events := by
  refine AllSteps.of_forall (fun s => ∀ key, (s key).Locked) (fun s input o s' h hstep => ?_)
    (fun s _ h key => (h key).toSerialised) (fun _ => .empty)
  exact forall_step h ((h input.1).step input.2) hstep

end OfferQueues

open OfferQueues

/-- **Commands in the order of the queue.** In every run in which no command of an instance is begun
while the stub has to be told of an earlier one, the commands of each instance are executed one at a
time, in the order of the queue and each once, and the stub is told of them in this order. -/
theorem offer_commands_serialised (events : List ((ℕ × ℕ) × OfferEvent))
    (h : AllSteps step Settled start events) :
    AllSteps step (fun s _ => ∀ key, (s key).Serialised ∧ (s key).InOrder) start events := by
  refine AllSteps.of_invariant (fun s => ∀ key, (s key).Locked ∧ (s key).Calm)
    (fun s input o s' hs hc hstep => ?_) (fun s input hs _ key => ?_) (fun _ => ⟨.empty, .empty⟩) h
  · obtain ⟨hlocked, hcalm⟩ := hs input.1
    exact forall_step (P := fun l => l.Locked ∧ l.Calm) hs
      ⟨hlocked.step input.2, hcalm.step hlocked hc⟩ hstep
  · exact ⟨(hs key).1.toSerialised, (hs key).2.inOrder⟩

/-- An offer and a stop-offer of a service without server endpoints, queued behind each other, with
the steps that follow. -/
def offerThenStop (steps : List OfferEvent) : List ((ℕ × ℕ) × OfferEvent) :=
  let calls : List OfferEvent :=
    [.call ⟨.offerService, 0x100, 1, 0⟩, .call ⟨.stopOfferService, 0x100, 1, 0⟩]
  (calls ++ steps).map fun event => ((0x1111, 1), event)

/-- The stub is told of the offer before the stop-offer begins. -/
theorem offer_commands_serialised_offerThenStop :
    let around : Surroundings := ⟨true, true, true, some (false, false)⟩
    let events := offerThenStop
      [.execute 0 around, .tell 0, .resume 1, .execute 1 around, .tell 1]
    AllSteps step Settled start events ∧
      AllSteps step (fun s _ => ∀ key, (s key).Serialised ∧ (s key).InOrder) start events := by
  intro around events
  have h : AllSteps step Settled start events := by decide
  exact ⟨h, offer_commands_serialised events h⟩

/-- The thread that executes the offer takes it out of the queue and is overtaken: the stop-offer is
executed and the stub is told of it before it is told of the offer. -/
theorem stub_told_backwards :
    let around : Surroundings := ⟨true, true, true, some (false, false)⟩
    let events := offerThenStop
      [.execute 0 around, .resume 1, .execute 1 around, .tell 1, .tell 0]
    (run step start events).map (fun out => (out.2 (0x1111, 1)).told.map Entry.ticket) =
      .ok [1, 0] := by
  decide

end SomeipTunnel.Routing
