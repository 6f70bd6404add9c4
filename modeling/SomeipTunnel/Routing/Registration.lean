import SomeipTunnel.Lib.Run

/-!
# The registration threads

Registrations, deregistrations and errors of applications are queued in batches, one for each
application, and worked off by a pool of threads. A thread that finds the front of the queue in
progress at another thread moves it to the end and takes the next batch, without a look at whether
that one is in progress too.

With two threads it is not, and `registrations_orderly_iff` says that two are as many as there may be:
then no application is worked on by two threads, its events are handled in the order in which they
were queued, and an event is dropped exactly if it stands behind a failed registration in the same
element of the queue. The pool has `VSOMEIP_DEFAULT_REGISTER_THREAD_COUNT = 2` threads.

* `RegistrationQueue.Sound.wake`: what a thread takes is not in progress.
* `RegistrationQueue.Sound.step`: what every step of at most two threads keeps.

Source: vsomeip/implementation/routing/src/routing_manager_stub.cpp
-/

namespace SomeipTunnel.Routing

open List StepRun Function

/-! ### The code -/

/-- Source: `registration_type_e`. -/
inductive RegistrationType
  | register
  | deregister
  | deregisterOnError
deriving DecidableEq

/-- An element of the queue: a client with its events. -/
abbrev Batch := ℕ × List RegistrationType

/-- A thread in `registration_func`: the number of the element that it has taken from the queue, and
what it still has to work off. -/
structure Work where
  element : ℕ
  batch : Batch

/-- An event that a thread has taken. `answer` is what `on_register_application` answered, if it was
processed. -/
structure Taken where
  element : ℕ
  type : RegistrationType
  answer : Option Bool
deriving DecidableEq

structure RegistrationQueue where
  /-- Source: `pending_client_registrations_queue_`. -/
  pending : List Batch
  /-- Source: `clients_in_progress_`. -/
  clientsInProgress : List ℕ
  /-- The threads in `registration_func`. -/
  running : List Work
  /-- How many elements threads have taken. -/
  elements : ℕ
  /-- The events of each client, in the order in which they were reported. -/
  history : ℕ → List RegistrationType
  /-- The events of each client that were processed or dropped, in that order. -/
  handled : ℕ → List Taken

namespace RegistrationQueue

variable (q : RegistrationQueue)

def start : RegistrationQueue := ⟨[], [], [], 0, fun _ => [], fun _ => []⟩

/-- Source: `routing_manager_stub::update_registration`, the part on the queue. -/
def addEvent (client : ℕ) (type : RegistrationType) : List Batch → List Batch
  | [] => [(client, [type])]
  | e :: es =>
      if e.1 = client then
        (if e.2.getLast? ≠ some type then (e.1, e.2 ++ [type]) else e) :: es
      else e :: addEvent client type es

def updateRegistration (client : ℕ) (type : RegistrationType) : RegistrationQueue :=
  { q with
    pending := addEvent client type q.pending
    history := update q.history client (q.history client ++ [type]) }

/-- Source: `routing_manager_stub::new_client_to_process`; with the queue it leaves. -/
def newClientToProcess : Bool × List Batch :=
  match q.pending with
  | [] => (false, [])
  | [e] => (e.1 ∉ q.clientsInProgress, [e])
  | e :: e' :: es =>
      (true, if e.1 ∈ q.clientsInProgress then (e' :: es) ++ [e] else e :: e' :: es)

/-- A thread wakes up. Source: `routing_manager_stub::client_registration_func`, up to
`registration_func`. -/
def wake : RegistrationQueue :=
  let (newClient, pending) := q.newClientToProcess
  match newClient, pending with
  | true, e :: es =>
      { q with
        pending := es
        clientsInProgress := q.clientsInProgress.insert e.1
        running := q.running ++ [⟨q.elements, e⟩]
        elements := q.elements + 1 }
  | _, pending => { q with pending }

/-- A thread works off its next event; `continues` is what `on_register_application` answers.
Source: `routing_manager_stub::registration_func`. -/
def process (i : ℕ) (continues : Bool) : RegistrationQueue :=
  match q.running[i]? with
  | some ⟨element, client, type :: rest⟩ =>
      if type = .register ∧ continues = false then
        { q with
          running := q.running.set i ⟨element, client, []⟩
          handled := update q.handled client (q.handled client ++
            ⟨element, type, some continues⟩ :: rest.map (⟨element, ·, none⟩)) }
      else
        { q with
          running := q.running.set i ⟨element, client, rest⟩
          handled := update q.handled client
            (q.handled client ++ [⟨element, type, some continues⟩]) }
  | _ => q

/-- A thread has worked off its events. Source: `routing_manager_stub::client_registration_func`,
behind `registration_func`. -/
def finish (i : ℕ) : RegistrationQueue :=
  match q.running[i]? with
  | some ⟨_, client, []⟩ =>
      { q with
        running := q.running.eraseIdx i
        clientsInProgress := q.clientsInProgress.erase client }
  | _ => q

/-- The clients that threads work on. -/
def clients : List ℕ := (q.running.map Work.batch).map Prod.fst

end RegistrationQueue

/-- What the threads do; the threads in `registration_func` are named by their positions. -/
inductive RegistrationEvent
  | update (client : ℕ) (type : RegistrationType)
  | wake
  | process (i : ℕ) (continues : Bool)
  | finish (i : ℕ)

namespace RegistrationQueue

/-- One step of a pool of threads. -/
def after (threads : ℕ) (q : RegistrationQueue) : RegistrationEvent → RegistrationQueue
  | .update client type => q.updateRegistration client type
  | .wake => if q.running.length < threads then q.wake else q
  | .process i continues => q.process i continues
  | .finish i => q.finish i

def step (threads : ℕ) (q : RegistrationQueue) (e : RegistrationEvent) :
    Except Empty (Unit × RegistrationQueue) := .ok ((), q.after threads e)

/-! ### Events in line -/

/-- A sequence without repetitions of its last element. -/
def mergeOne (l : List RegistrationType) (x : RegistrationType) : List RegistrationType :=
  if l.getLast? = some x then l else l ++ [x]

/-- A sequence in which consecutive equal elements are merged. -/
def merged (l : List RegistrationType) : List RegistrationType := l.foldl mergeOne []

theorem getLast?_mergeOne (l : List RegistrationType) (x : RegistrationType) :
    (mergeOne l x).getLast? = some x := by
  unfold mergeOne
  split_ifs with h
  · exact h
  · exact List.getLast?_concat

/-- One more event is merged with the last one. -/
theorem merged_concat (l : List RegistrationType) (x : RegistrationType) :
    merged (l ++ [x]) = mergeOne (merged l) x := by
  rw [merged, foldl_append]
  rfl

theorem getLast?_merged (l : List RegistrationType) : (merged l).getLast? = l.getLast? := by
  rcases eq_nil_or_concat l with rfl | ⟨l, x, rfl⟩
  · rfl
  · rw [concat_eq_append, merged_concat, getLast?_mergeOne, List.getLast?_concat]

/-- An event that is merged at the end of a part is merged into the whole. -/
theorem merged_append_mergeOne (l p : List RegistrationType) (x : RegistrationType) :
    merged (l ++ mergeOne p x) = mergeOne (merged (l ++ p)) x := by
  by_cases h : p.getLast? = some x
  · have hlast : (merged (l ++ p)).getLast? = some x := by
      rw [getLast?_merged, List.getLast?_append, h]
      rfl
    rw [mergeOne, if_pos h, mergeOne, if_pos hlast]
  · rw [mergeOne, if_neg h, ← append_assoc, merged_concat]

/-- The events of a client in a list of batches. -/
def eventsOf (client : ℕ) (es : List Batch) : List RegistrationType :=
  (es.filter (·.1 = client)).flatMap Prod.snd

theorem eventsOf_append (client : ℕ) (es es' : List Batch) :
    eventsOf client (es ++ es') = eventsOf client es ++ eventsOf client es' := by
  simp [eventsOf]

variable {es : List Batch} {e : Batch} {client : ℕ}

theorem eventsOf_eq_nil (h : client ∉ es.map Prod.fst) : eventsOf client es = [] := by
  have hfilter : es.filter (·.1 = client) = [] := by
    rw [filter_eq_nil_iff]
    intro e he heq
    exact h (mem_map.mpr ⟨e, he, of_decide_eq_true heq⟩)
  rw [eventsOf, hfilter, flatMap_nil]

theorem eventsOf_cons_self (client : ℕ) (types : List RegistrationType) (es : List Batch) :
    eventsOf client ((client, types) :: es) = types ++ eventsOf client es := by
  simp [eventsOf]

theorem eventsOf_cons_ne (h : e.1 ≠ client) (es : List Batch) :
    eventsOf client (e :: es) = eventsOf client es := by
  simp [eventsOf, h]

/-- Moving the front to the end changes nothing for a client that is queued once. -/
theorem eventsOf_rotate (h : ((e :: es).map Prod.fst).Nodup)
    (client : ℕ) : eventsOf client (es ++ [e]) = eventsOf client (e :: es) := by
  rw [eventsOf_append]
  obtain ⟨c, types⟩ := e
  by_cases he : c = client
  · subst he
    have hnone := (nodup_cons.mp h).1
    rw [eventsOf_eq_nil hnone, eventsOf_cons_self, eventsOf_cons_self, eventsOf_eq_nil hnone]
    rfl
  · rw [eventsOf_cons_ne he, eventsOf_cons_ne he]
    exact append_nil _

/-- The events of a client that were taken, those a thread has still to work off, and those that
wait. -/
def inLine (q : RegistrationQueue) (client : ℕ) : List RegistrationType :=
  (q.handled client).map Taken.type ++
    (eventsOf client (q.running.map Work.batch) ++ eventsOf client q.pending)

/-- An event is dropped iff a registration in front of it in the same element has failed. -/
def Justified (l : List Taken) : Prop :=
  ∀ pre e post, l = pre ++ e :: post → (e.answer = none ↔ ⟨e.element, .register, some false⟩ ∈ pre)

/-- No two threads work on the same client; the events of each client are handled in the order in
which they were reported, consecutive equal ones merged; and one of them is dropped iff it stands
behind a failed registration in the same element of the queue. -/
structure Orderly (q : RegistrationQueue) : Prop where
  exclusive : q.clients.Nodup
  inOrder : ∀ client, merged (q.inLine client) = merged (q.history client)
  complete : ∀ client, Justified (q.handled client)

/-- One more event. -/
theorem justified_concat {l : List Taken} {e : Taken} : Justified (l ++ [e]) ↔
    Justified l ∧ (e.answer = none ↔ ⟨e.element, .register, some false⟩ ∈ l) := by
  constructor
  · intro h
    refine ⟨fun pre e' post heq => h pre e' (post ++ [e]) (by simp [heq]), h l e [] rfl⟩
  · rintro ⟨h, he⟩ pre e' post heq
    rcases eq_nil_or_concat post with rfl | ⟨post, x, rfl⟩
    · obtain ⟨rfl, hlast⟩ := append_inj' heq rfl
      obtain rfl := singleton_inj.mp hlast
      exact he
    · rw [concat_eq_append, ← cons_append, ← append_assoc] at heq
      exact h pre e' post (append_inj' heq rfl).1

/-- What stands behind a failed registration is dropped. -/
theorem Justified.append_dropped {l : List Taken} (h : Justified l) {element : ℕ}
    (hfailed : ⟨element, .register, some false⟩ ∈ l) (rest : List RegistrationType) :
    Justified (l ++ rest.map (⟨element, ·, none⟩)) := by
  induction rest generalizing l with
  | nil => simpa using h
  | cons type rest ih =>
      rw [map_cons, append_cons]
      exact ih (justified_concat.mpr ⟨h, iff_of_true rfl hfailed⟩) (mem_append_left _ hfailed)

/-! ### One step -/

/-- What every step of at most two threads keeps. -/
structure Sound (q : RegistrationQueue) : Prop extends q.Orderly where
  pending : (q.pending.map Prod.fst).Nodup
  progress : ∀ client, client ∈ q.clientsInProgress ↔ client ∈ q.clients
  nodup : q.clientsInProgress.Nodup
  /-- Elements are numbered as they are taken. -/
  numbered : ∀ client, ∀ e ∈ q.handled client, e.element < q.elements
  running_lt : ∀ w ∈ q.running, w.element < q.elements
  /-- A thread that has events left has met no failed registration in its element. -/
  unbroken : ∀ w ∈ q.running, w.batch.2 ≠ [] →
    ⟨w.element, .register, some false⟩ ∉ q.handled w.batch.1

/-- An event goes to the element of its client. Source: `update_registration` -/
theorem eventsOf_addEvent (h : (es.map Prod.fst).Nodup) (client c : ℕ) (type : RegistrationType) :
    eventsOf c (addEvent client type es) =
      if c = client then mergeOne (eventsOf c es) type else eventsOf c es := by
  induction es with
  | nil =>
      split_ifs with hc
      · subst hc
        rw [addEvent, eventsOf_cons_self]
        rfl
      · rw [addEvent, eventsOf_cons_ne (Ne.symm hc)]
  | cons e es ih =>
      obtain ⟨k, types⟩ := e
      obtain ⟨hk, hes⟩ := nodup_cons.mp h
      by_cases hclient : k = client
      · subst hclient
        have hnone : eventsOf k es = [] := eventsOf_eq_nil hk
        rw [addEvent, if_pos rfl]
        split_ifs with hlast hc hc
        · subst hc
          rw [eventsOf_cons_self, eventsOf_cons_self, hnone, append_nil, append_nil,
            mergeOne, if_neg hlast]
        · rw [eventsOf_cons_ne (Ne.symm hc), eventsOf_cons_ne (Ne.symm hc)]
        · subst hc
          rw [eventsOf_cons_self, hnone, append_nil, mergeOne,
            if_pos (not_not.mp hlast)]
        · rfl
      · rw [addEvent, if_neg hclient]
        by_cases hc : k = c
        · subst hc
          rw [eventsOf_cons_self, ih hes, if_neg hclient, if_neg hclient, eventsOf_cons_self]
        · rw [eventsOf_cons_ne hc, ih hes, eventsOf_cons_ne hc]

theorem mem_addEvent {k : ℕ} {type : RegistrationType}
    (h : k ∈ (addEvent client type es).map Prod.fst) : k = client ∨ k ∈ es.map Prod.fst := by
  induction es with
  | nil => exact .inl (mem_singleton.mp h)
  | cons e es ih =>
      rw [addEvent] at h
      split_ifs at h
      · exact .inr h
      · exact .inr h
      · rcases mem_cons.mp h with h | h
        · exact .inr (mem_cons.mpr (.inl h))
        · exact (ih h).imp_right (mem_cons_of_mem _)

/-- Each client has one element. -/
theorem nodup_addEvent (h : (es.map Prod.fst).Nodup) (client : ℕ)
    (type : RegistrationType) : ((addEvent client type es).map Prod.fst).Nodup := by
  induction es with
  | nil => exact nodup_singleton client
  | cons e es ih =>
      obtain ⟨he, hes⟩ := nodup_cons.mp h
      rw [addEvent]
      split_ifs with hclient hlast
      · exact h
      · exact h
      · rw [map_cons, nodup_cons]
        refine ⟨fun hk => ?_, ih hes⟩
        rcases mem_addEvent hk with heq | hk
        · exact hclient heq
        · exact he hk

namespace Sound

variable {q : RegistrationQueue}

/-- Nothing is queued. -/
theorem start : RegistrationQueue.start.Sound where
  exclusive := .nil
  inOrder _ := rfl
  complete _ pre _ _ h := absurd h.symm (append_ne_nil_of_right_ne_nil pre (cons_ne_nil _ _))
  pending := .nil
  progress _ := Iff.rfl
  nodup := .nil
  numbered _ _ h := absurd h not_mem_nil
  running_lt _ h := absurd h not_mem_nil
  unbroken _ h := absurd h not_mem_nil

/-- An event that is reported. Source: `update_registration` -/
theorem updateRegistration (h : q.Sound) (client : ℕ) (type : RegistrationType) :
    (q.updateRegistration client type).Sound where
  exclusive := h.exclusive
  inOrder c := by
    have hline : (q.updateRegistration client type).inLine c = (q.handled c).map Taken.type ++
        (eventsOf c (q.running.map Work.batch) ++
          if c = client then mergeOne (eventsOf c q.pending) type else eventsOf c q.pending) := by
      rw [← eventsOf_addEvent h.pending]
      rfl
    rw [hline]
    simp only [RegistrationQueue.updateRegistration, update_apply]
    split_ifs with hc
    · subst hc
      rw [← append_assoc, merged_append_mergeOne, merged_concat, ← h.inOrder c, inLine,
        append_assoc]
    · exact h.inOrder c
  complete := h.complete
  pending := nodup_addEvent h.pending client type
  progress := h.progress
  nodup := h.nodup
  numbered := h.numbered
  running_lt := h.running_lt
  unbroken := h.unbroken

/-- A thread takes a batch that is not in progress. -/
theorem take (h : q.Sound) (hnodup : ((e :: es).map Prod.fst).Nodup)
    (hevents : ∀ c, eventsOf c (e :: es) = eventsOf c q.pending)
    (hnew : e.1 ∉ q.clientsInProgress) :
    Sound { q with
      pending := es
      clientsInProgress := q.clientsInProgress.insert e.1
      running := q.running ++ [⟨q.elements, e⟩]
      elements := q.elements + 1 } := by
  have hrunning : e.1 ∉ q.clients := fun hmem => hnew ((h.progress e.1).mpr hmem)
  have hclients : ∀ q' : RegistrationQueue, q'.running = q.running ++ [⟨q.elements, e⟩] →
      q'.clients = q.clients ++ [e.1] := by
    intro q' hq'
    rw [clients, hq', map_append, map_append]
    rfl
  refine ⟨⟨?_, fun c => ?_, h.complete⟩, (nodup_cons.mp hnodup).2, fun c => ?_, h.nodup.insert,
    fun c t ht => (h.numbered c t ht).trans (Nat.lt_succ_self _), fun w hw => ?_,
    fun w hw hne => ?_⟩
  · rw [hclients _ rfl, nodup_append]
    refine ⟨h.exclusive, nodup_singleton _, fun a ha b hb => ?_⟩
    rw [mem_singleton.mp hb]
    rintro rfl
    exact hrunning ha
  · have hline : eventsOf c ((q.running ++ [(⟨q.elements, e⟩ : Work)]).map Work.batch) ++
        eventsOf c es =
        eventsOf c (q.running.map Work.batch) ++ eventsOf c q.pending := by
      rw [← hevents c, map_append, eventsOf_append, append_assoc, ← eventsOf_append]
      rfl
    rw [inLine, hline]
    exact h.inOrder c
  · rw [mem_insert_iff, hclients _ rfl, mem_append, h.progress, or_comm]
    simp
  · rcases mem_append.mp hw with hw | hw
    · exact (h.running_lt w hw).trans (Nat.lt_succ_self _)
    · rw [mem_singleton.mp hw]
      exact Nat.lt_succ_self _
  · rcases mem_append.mp hw with hw | hw
    · exact h.unbroken w hw hne
    · -- nothing has been handled under the number of the new element
      obtain rfl := mem_singleton.mp hw
      exact fun hmem => Nat.lt_irrefl _ (h.numbered e.1 _ hmem)

/-- **A thread wakes up** while at most one other is at work. The new front, if the queue is rotated,
is another client than the old one, which is the only one in progress. -/
theorem wake (h : q.Sound) (hone : q.running.length ≤ 1) : q.wake.Sound := by
  unfold RegistrationQueue.wake newClientToProcess
  rcases hpending : q.pending with _ | ⟨e, _ | ⟨e', es⟩⟩
  · simp only
    rw [← hpending]
    exact h
  · simp only
    by_cases hbusy : e.1 ∈ q.clientsInProgress
    · simp only [hbusy, not_true, decide_false]
      rw [← hpending]
      exact h
    · simp only [hbusy, not_false_eq_true, decide_true]
      exact h.take (hpending ▸ h.pending) (fun c => by rw [hpending]) hbusy
  · have hnodup := h.pending
    rw [hpending] at hnodup
    by_cases hbusy : e.1 ∈ q.clientsInProgress
    · simp only [if_pos hbusy, cons_append]
      have hrotated : (((e' :: es) ++ [e]).map Prod.fst).Nodup := by
        rw [map_append, nodup_append_comm]
        exact hnodup
      refine h.take hrotated (fun c => ?_) fun hbusy' => ?_
      · rw [hpending, ← cons_append, eventsOf_rotate hnodup]
      · have hne : e.1 ≠ e'.1 := fun heq => (nodup_cons.mp hnodup).1 (by simp [heq])
        have he := (h.progress e.1).mp hbusy
        have he' := (h.progress e'.1).mp hbusy'
        unfold clients at he he'
        rcases hr : q.running with _ | ⟨b, _ | ⟨b', bs⟩⟩
        · rw [hr] at he
          exact absurd he not_mem_nil
        · rw [hr, map_singleton, map_singleton, mem_singleton] at he he'
          exact hne (he.trans he'.symm)
        · rw [hr] at hone
          simp at hone
    · simp only [if_neg hbusy]
      exact h.take hnodup (fun c => by rw [hpending]) hbusy

/-- What a thread works on, among the others. -/
theorem split_running (h : q.Sound) {i : ℕ} {w : Work} (hi : q.running[i]? = some w) :
    ∃ pre post, q.running = pre ++ w :: post ∧ i = pre.length ∧
      w.batch.1 ∉ (pre.map Work.batch).map Prod.fst ∧
      w.batch.1 ∉ (post.map Work.batch).map Prod.fst := by
  obtain ⟨hlt, heq⟩ := List.getElem?_eq_some_iff.mp hi
  have hsplit : q.running = q.running.take i ++ w :: q.running.drop (i + 1) := by
    rw [← heq, getElem_cons_drop, take_append_drop]
  have hnodup := h.exclusive
  rw [clients, hsplit, map_append, map_append, map_cons, map_cons,
    nodup_append] at hnodup
  obtain ⟨-, hpost, hdisj⟩ := hnodup
  refine ⟨_, _, hsplit, by simp; omega, fun hmem => ?_, (nodup_cons.mp hpost).1⟩
  exact hdisj _ hmem _ mem_cons_self rfl

/-- A thread goes on: the events it has worked off are handled. -/
theorem advance (h : q.Sound) {i element : ℕ} {types rest : List RegistrationType}
    (hi : q.running[i]? = some ⟨element, client, types⟩) (done : List Taken)
    (hdone : types = done.map Taken.type ++ rest) (helement : ∀ e ∈ done, e.element = element)
    (hjustified : Justified (q.handled client ++ done))
    (hrest : rest ≠ [] → ⟨element, .register, some false⟩ ∉ q.handled client ++ done) :
    Sound { q with
      running := q.running.set i ⟨element, client, rest⟩
      handled := update q.handled client (q.handled client ++ done) } := by
  obtain ⟨pre, post, hrunning, rfl, hpre, hpost⟩ := h.split_running hi
  have hset : q.running.set pre.length ⟨element, client, rest⟩ =
      pre ++ ⟨element, client, rest⟩ :: post := by
    rw [hrunning, set_append_right _ _ (Nat.le_refl _)]
    simp
  have hclients : ∀ q' : RegistrationQueue, q'.running = pre ++ ⟨element, client, rest⟩ :: post →
      q'.clients = q.clients := by
    intro q' hq'
    rw [clients, clients, hq', hrunning]
    simp
  have hlt : element < q.elements := h.running_lt _ (mem_of_getElem? hi)
  -- the other threads are as they were, and work on other clients
  have hmem : ∀ w ∈ pre ++ ⟨element, client, rest⟩ :: post,
      w = ⟨element, client, rest⟩ ∨ w ∈ q.running ∧ w.batch.1 ≠ client := by
    intro w hw
    rw [hrunning]
    rcases mem_append.mp hw with hw | hw
    · refine .inr ⟨mem_append_left _ hw, fun heq => hpre ?_⟩
      exact mem_map.mpr ⟨w.batch, mem_map_of_mem hw, heq⟩
    · refine (mem_cons.mp hw).imp_right fun hw => ⟨?_, fun heq => hpost ?_⟩
      · exact mem_append_right _ (mem_cons_of_mem _ hw)
      · exact mem_map.mpr ⟨w.batch, mem_map_of_mem hw, heq⟩
  refine ⟨⟨?_, fun c => ?_, fun c => ?_⟩, h.pending, fun c => ?_, h.nodup, fun c e he => ?_,
    fun w hw => ?_, fun w hw hne => ?_⟩
  · rw [hclients _ hset]
    exact h.exclusive
  · have hline := h.inOrder c
    rw [inLine, hrunning] at hline
    simp only [inLine, hset, update_apply]
    by_cases hc : c = client
    · subst hc
      rw [if_pos rfl, ← hline, hdone]
      simp [eventsOf_append, eventsOf_cons_self, eventsOf_eq_nil hpre]
    · have hskip : ∀ types, eventsOf c ((client, types) :: post.map Work.batch) =
          eventsOf c (post.map Work.batch) := fun types => eventsOf_cons_ne (Ne.symm hc) _
      rw [if_neg hc, ← hline]
      simp only [map_append, map_cons, eventsOf_append, hskip]
  · simp only [update_apply]
    split_ifs with hc
    · exact hjustified
    · exact h.complete c
  · rw [hclients _ hset]
    exact h.progress c
  · simp only [update_apply] at he
    split_ifs at he with hc
    · rcases mem_append.mp he with he | he
      · exact h.numbered client e he
      · rw [helement e he]
        exact hlt
    · exact h.numbered c e he
  · rw [hset] at hw
    rcases hmem w hw with rfl | ⟨hw, -⟩
    · exact hlt
    · exact h.running_lt w hw
  · rw [hset] at hw
    rcases hmem w hw with rfl | ⟨hw, hc⟩
    · simpa only [update_self] using hrest hne
    · simp only [update_of_ne hc]
      exact h.unbroken w hw hne

/-- A thread handles an event, or drops it. Source: `registration_func` -/
theorem process (h : q.Sound) (i : ℕ) (continues : Bool) : (q.process i continues).Sound := by
  unfold RegistrationQueue.process
  split
  · rename_i element client type rest hi
    have hunbroken := h.unbroken _ (mem_of_getElem? hi) (cons_ne_nil _ _)
    have hone : Justified (q.handled client ++ [⟨element, type, some continues⟩]) :=
      justified_concat.mpr ⟨h.complete client, iff_of_false (by simp) hunbroken⟩
    split_ifs with hfail
    · obtain ⟨rfl, rfl⟩ := hfail
      refine h.advance hi (⟨element, .register, some false⟩ :: rest.map (⟨element, ·, none⟩)) ?_
        ?_ ?_ (fun hne => absurd rfl hne)
      · simp [Function.comp_def]
      · simp
      · rw [append_cons]
        exact hone.append_dropped (by simp) rest
    · refine h.advance hi [⟨element, type, some continues⟩] rfl (by simp) hone fun _ hmem => ?_
      rcases mem_append.mp hmem with hmem | hmem
      · exact hunbroken hmem
      · simp only [mem_singleton, Taken.mk.injEq, true_and, Option.some.injEq] at hmem
        exact hfail ⟨hmem.1.symm, hmem.2.symm⟩
  · exact h

/-- A thread is done with its element. Source: `client_registration_func` -/
theorem finish (h : q.Sound) (i : ℕ) : (q.finish i).Sound := by
  unfold RegistrationQueue.finish
  split
  · rename_i element client hi
    obtain ⟨pre, post, hrunning, rfl, hpre, hpost⟩ := h.split_running hi
    have herase : q.running.eraseIdx pre.length = pre ++ post := by
      rw [hrunning, eraseIdx_append_of_length_le (Nat.le_refl _)]
      simp
    have hsub : (pre ++ post).Sublist q.running := by
      rw [hrunning]
      exact (sublist_cons_self _ _).append_left _
    refine ⟨⟨?_, fun c => ?_, h.complete⟩, h.pending, fun c => ?_, h.nodup.erase client, h.numbered,
      fun w hw => h.running_lt w (hsub.mem (herase ▸ hw)),
      fun w hw => h.unbroken w (hsub.mem (herase ▸ hw))⟩
    · rw [clients, herase]
      exact h.exclusive.sublist ((hsub.map _).map _)
    · have hline := h.inOrder c
      rw [inLine, hrunning] at hline
      rw [inLine, herase, ← hline]
      by_cases hc : client = c
      · subst hc
        simp [eventsOf_append, eventsOf_cons_self]
      · have hother : eventsOf c ((client, []) :: post.map Work.batch) =
            eventsOf c (post.map Work.batch) := eventsOf_cons_ne hc _
        simp only [map_append, map_cons, eventsOf_append, hother]
    · rw [h.nodup.mem_erase_iff, h.progress c, clients, clients, herase, hrunning]
      simp only [map_append, map_cons, mem_append, mem_cons]
      constructor
      · rintro ⟨hne, hmem | rfl | hmem⟩
        · exact .inl hmem
        · exact absurd rfl hne
        · exact .inr hmem
      · rintro (hmem | hmem)
        · exact ⟨fun heq => hpre (heq ▸ hmem), .inl hmem⟩
        · exact ⟨fun heq => hpost (heq ▸ hmem), .inr (.inr hmem)⟩
  · exact h

/-- **One step** of at most two threads. -/
theorem after (h : q.Sound) {threads : ℕ} (hthreads : threads ≤ 2) (e : RegistrationEvent) :
    (q.after threads e).Sound := by
  cases e with
  | update client type => exact h.updateRegistration client type
  | wake =>
      unfold RegistrationQueue.after
      split_ifs with hlt
      · exact h.wake (by omega)
      · exact h
  | process i continues => exact h.process i continues
  | finish i => exact h.finish i

end Sound

/-- Two threads are at work on two clients, for which new events have been reported. -/
def overtaking : List RegistrationEvent :=
  [.update 1 .register, .update 2 .register, .wake, .wake, .update 1 .deregister,
    .update 2 .deregister, .wake, .wake]

/-- A third thread moves the first client to the end of the queue and takes the second one, which is
in progress. -/
theorem not_exclusive_overtaking {threads : ℕ} (h : 3 ≤ threads) :
    ¬ AllSteps (step threads) (fun q _ => q.clients.Nodup) start overtaking := by
  have h₀ : 0 < threads := by omega
  have h₁ : 1 < threads := by omega
  have h₂ : 2 < threads := by omega
  intro hall
  simp [overtaking, AllSteps, step, after, start, updateRegistration, addEvent, wake,
    newClientToProcess, clients, h₀, h₁, h₂] at hall

end RegistrationQueue

open RegistrationQueue

/-- **Registration is exclusive and ordered for at most two threads**, and for no more: exactly then,
whatever is reported and whenever the threads wake up, no two threads work on the same client, the
events of each client are handled in the order in which they were reported, and one of them is
dropped iff it stands behind a failed registration in the same element of the queue. -/
theorem registrations_orderly_iff (threads : ℕ) :
    (∀ events, AllSteps (step threads) (fun q _ => q.Orderly) start events) ↔ threads ≤ 2 := by
  constructor
  · intro h
    by_contra hthreads
    refine not_exclusive_overtaking (by omega : 3 ≤ threads) ?_
    exact AllSteps.of_invariant (fun _ => True) (fun _ _ _ _ _ _ _ => trivial)
      (fun q _ _ hq => hq.exclusive) trivial (h overtaking)
  · intro hthreads events
    refine AllSteps.of_forall Sound (fun q e o q' hq hstep => ?_) (fun q _ hq => hq.toOrderly)
      .start
    cases hstep
    exact hq.after hthreads e

/-- With three threads, two work on the client 2; and an event of a client behind a registration that
fails is dropped. -/
theorem three_threads_overlap :
    (run (step 3) start overtaking).map (fun out => out.2.clients) = .ok [1, 2, 2] ∧
      (run (step 2) start [.update 1 .register, .update 1 .deregister, .wake,
        .process 0 false]).map (fun out => out.2.handled 1) =
        .ok [⟨0, .register, some false⟩, ⟨0, .deregister, none⟩] := by
  decide

end SomeipTunnel.Routing
