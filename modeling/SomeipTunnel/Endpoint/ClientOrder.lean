import SomeipTunnel.Endpoint.Client

/-!
# The order of the messages of a client endpoint

Messages of one service and method should be put into the queue in the order in which `send`
accepted them (`InOrder`). They travel in different trains, and a later train can overtake an
earlier one: `flush` takes the train with the earliest departure, a message with a short retention
time draws the departure of the train that it enters forward, and `schedule_train` puts the
departure of the train that it files off. A message that is split does not wait for a train at all.

* `OnSchedule`: a message does not give its train an earlier departure than that of a waiting train
  with a common passenger, and a message that is split has no predecessor that waits.
* `Sorted`: what is in the queue and what waits is, for each service and method, what was accepted.
* `send_order_kept`: **in a run whose steps are on schedule the order is kept**;
  `later_message_overtakes` is a run in which the second of three messages with two methods
  overtakes the first.
-/

namespace SomeipTunnel.Endpoint

open List StepRun Train

/-- The messages of a service and method. -/
def ofId (id : Identifier) (ms : List Message) : List Message :=
  ms.filter fun m => m.identifier = id

@[simp] theorem ofId_append (id : Identifier) (ms ms' : List Message) :
    ofId id (ms ++ ms') = ofId id ms ++ ofId id ms' := filter_append ms ms'

namespace Train

/-- The messages in the buffer of a train. -/
def messages (t : Train Load) : List Message := t.buffer.boarded.map Prod.fst

/-- The passengers and the buffer are those of the messages. -/
structure Loaded (t : Train Load) : Prop where
  passengers : t.passengers = (t.messages.map Message.identifier).toFinset
  bytes : t.buffer.bytes = (t.messages.map Message.data).flatten

variable {t : Train Load} {m : Message} {id : Identifier}

/-- An empty train has no messages. -/
theorem loaded_new (now : ℕ) : (new Load.empty now).Loaded := ⟨rfl, rfl⟩

/-- A train has messages of its passengers only. -/
theorem Loaded.ofId_eq_nil (h : t.Loaded) (hid : id ∉ t.passengers) : ofId id t.messages = [] := by
  rw [h.passengers] at hid
  refine filter_eq_nil_iff.mpr fun m hm => ?_
  simp only [decide_eq_true_eq]
  rintro rfl
  exact hid (mem_toFinset.mpr (mem_map_of_mem hm))

/-- A train without bytes has no messages. -/
theorem Loaded.messages_eq_nil (h : t.Loaded) (hbytes : t.buffer.bytes = []) : t.messages = [] := by
  rw [h.bytes, flatten_eq_nil_iff] at hbytes
  refine eq_nil_iff_forall_not_mem.mpr fun m hm => ?_
  exact m.data_ne_nil (hbytes m.data (mem_map_of_mem hm))

section Enter

variable {timing : Timing} {now departure : ℕ}

/-- A message enters behind those of the train. -/
theorem messages_enter :
    ({ ({ t with departure := departure }).enter timing id with
      buffer := t.buffer.add m now } : Train Load).messages = t.messages ++ [m] := by
  simp only [messages, Load.add, map_append, map_cons, map_nil]

/-- What enters is a passenger. -/
theorem Loaded.enter (h : t.Loaded) :
    ({ ({ t with departure := departure }).enter timing m.identifier with
      buffer := t.buffer.add m now } : Train Load).Loaded := by
  refine ⟨?_, ?_⟩
  · rw [messages_enter, map_append, toFinset_append, ← h.passengers]
    ext id
    simp [Train.enter, or_comm]
  · rw [messages_enter, map_append, flatten_append, ← h.bytes]
    simp [Load.add]

end Enter

end Train

/-! ### Trains that have nothing in common -/

section Disjoint

variable {trains : List (Train Load)} {t : Train Load} {id : Identifier}

/-- Trains without a passenger have no messages of it. -/
theorem ofId_flatMap_eq_nil (hloaded : ∀ s ∈ trains, s.Loaded)
    (h : ∀ s ∈ trains, id ∉ s.passengers) : ofId id (trains.flatMap messages) = [] := by
  induction trains with
  | nil => rfl
  | cons s trains ih =>
      rw [flatMap_cons, ofId_append, (hloaded s (by simp)).ofId_eq_nil (h s (by simp)),
        ih (fun s hs => hloaded s (by simp [hs])) (fun s hs => h s (by simp [hs]))]
      rfl

/-- A train can leave before others that share no passenger with it. -/
theorem ofId_append_comm (hloaded : ∀ s ∈ trains, s.Loaded) (ht : t.Loaded)
    (h : ∀ s ∈ trains, Disjoint s.passengers t.passengers) (id : Identifier) :
    ofId id (t.messages ++ trains.flatMap messages) =
      ofId id (trains.flatMap messages ++ t.messages) := by
  rw [ofId_append, ofId_append]
  by_cases hid : id ∈ t.passengers
  · rw [ofId_flatMap_eq_nil hloaded fun s hs => Finset.disjoint_right.mp (h s hs) hid,
      append_nil, nil_append]
  · rw [ht.ofId_eq_nil hid, append_nil, nil_append]

end Disjoint

/-! ### What waits -/

/-- For each service and method, what has been queued and what waits in the trains is what has been
accepted, and a train that waits does not depart later than the current one if they share a
passenger. -/
structure Sorted (d : Depot Load) (queued accepted : List Message) : Prop where
  timetable : Timetable d.dispatched
  loaded : d.train.Loaded
  allLoaded : ∀ t ∈ d.dispatched, t.Loaded
  behind : ∀ t ∈ d.dispatched, ¬ Disjoint t.passengers d.train.passengers →
    t.departure ≤ d.train.departure
  order : ∀ id, ofId id (queued ++ (d.dispatched.flatMap messages ++ d.train.messages)) =
    ofId id accepted

namespace Sorted

variable {d d' : Depot Load} {queued accepted : List Message} {m : Message} {now : ℕ}
  {timing : Timing} (h : Sorted d queued accepted)

include h

/-- The trains that leave later than the current one have nothing in common with it. -/
theorem disjoint {t : Train Load} (ht : t ∈ d.dispatched)
    (hlt : d.train.departure < t.departure) : Disjoint t.passengers d.train.passengers := by
  by_contra hnot
  have hle := h.behind t ht hnot
  omega

/-- Only the trains matter. -/
theorem congr (htrain : d'.train = d.train)
    (hdispatched : d'.dispatched = d.dispatched) : Sorted d' queued accepted := by
  obtain ⟨timetable, loaded, allLoaded, behind, order⟩ := h
  rw [← htrain] at loaded behind order
  rw [← hdispatched] at timetable allLoaded behind order
  exact ⟨timetable, loaded, allLoaded, behind, order⟩

/-- Nor do the minimal times. Source: `send_segments` -/
theorem tighten (timing : Timing) :
    Sorted { d with train := d.train.tighten timing } queued accepted :=
  ⟨h.timetable, ⟨h.loaded.passengers, h.loaded.bytes⟩, h.allLoaded, h.behind, h.order⟩

/-- A message enters the current train. -/
theorem enter (m : Message) (now : ℕ) (timing : Timing) (departure : ℕ)
    (hbehind : ∀ t ∈ d.dispatched,
      ¬ Disjoint t.passengers (insert m.identifier d.train.passengers) →
        t.departure ≤ departure) :
    Sorted
      { d with train := { ({ d.train with departure := departure }).enter timing m.identifier with
        buffer := d.train.buffer.add m now } } queued (accepted ++ [m]) where
  timetable := h.timetable
  loaded := h.loaded.enter
  allLoaded := h.allLoaded
  behind := hbehind
  order := fun id => by
    have horder := h.order id
    rw [messages_enter]
    simp only [ofId_append] at horder ⊢
    rw [← horder]
    simp only [append_assoc]

/-- The current train is filed and an empty one takes its place. -/
theorem depart (now : ℕ) (timing : Timing) :
    Sorted (d.depart .empty now timing) queued accepted := by
  obtain ⟨before, after, hdispatched, hfile, -, hafter⟩ := exists_append_file
    (t := { d.train with departure := d.train.due d.lastDeparture }) h.timetable
  have hdisjoint : ∀ t ∈ after, Disjoint t.passengers d.train.passengers := by
    intro t ht
    have hdue := d.train.departure_le_due d.lastDeparture
    exact h.disjoint (by rw [hdispatched]; exact mem_append_right _ ht)
      (hdue.trans_lt (hafter t ht))
  have hafterLoaded : ∀ t ∈ after, t.Loaded := fun t ht =>
    h.allLoaded t (by rw [hdispatched]; exact mem_append_right _ ht)
  refine ⟨h.timetable.file _, ⟨rfl, rfl⟩, ?_, ?_, fun id => ?_⟩
  · intro t ht
    rcases mem_cons.mp ((file_perm _ _).mem_iff.mp ht) with rfl | ht
    · exact ⟨h.loaded.passengers, h.loaded.bytes⟩
    · exact h.allLoaded t ht
  · intro t ht hnot
    exact absurd (Finset.disjoint_empty_right _) hnot
  · have hcomm := ofId_append_comm hafterLoaded h.loaded hdisjoint id
    have horder := h.order id
    rw [hdispatched, flatMap_append] at horder
    calc
      _ = ofId id (queued ++ ((before.flatMap messages ++
            (d.train.messages ++ after.flatMap messages)) ++ [])) := by
        simp only [Depot.depart, Depot.scheduleTrain, hfile, flatMap_append, flatMap_cons]
        rfl
      _ = ofId id (queued ++ (before.flatMap messages ++ after.flatMap messages ++
            d.train.messages)) := by
        rw [ofId_append, append_nil, ofId_append, hcomm]
        simp only [ofId_append, append_assoc]
      _ = ofId id accepted := horder

/-- The current train leaves before the others. -/
theorem flushTrain (hfirst : ∀ t ∈ d.dispatched.head?, d.train.departure < t.departure) :
    Sorted { d with train := .new .empty now } (queued ++ d.train.messages) accepted := by
  have hlater : ∀ t ∈ d.dispatched, d.train.departure < t.departure := by
    intro t ht
    obtain ⟨first, rest, hdispatched⟩ := exists_cons_of_ne_nil (ne_nil_of_mem ht)
    have htimetable := h.timetable
    rw [hdispatched] at htimetable hfirst ht
    have hlt : d.train.departure < first.departure := hfirst first rfl
    rcases mem_cons.mp ht with rfl | ht
    · exact hlt
    · exact hlt.trans_le ((pairwise_cons.mp htimetable).1 t ht)
  refine ⟨h.timetable, loaded_new now, h.allLoaded, ?_, fun id => ?_⟩
  · intro t ht hnot
    exact absurd (Finset.disjoint_empty_right _) hnot
  · have hcomm := ofId_append_comm h.allLoaded h.loaded (fun t ht => h.disjoint ht (hlater t ht)) id
    calc
      _ = ofId id (queued ++ d.train.messages ++ (d.dispatched.flatMap messages ++ [])) := rfl
      _ = ofId id (queued ++ (d.dispatched.flatMap messages ++ d.train.messages)) := by
        rw [append_nil, append_assoc, ofId_append, hcomm, ← ofId_append]
      _ = ofId id accepted := h.order id

/-- A train that waits leaves, as the first of those that wait. -/
theorem flushDispatched {t : Train Load} {rest : List (Train Load)}
    (hdispatched : d.dispatched = t :: rest) :
    Sorted { d with dispatched := rest } (queued ++ t.messages) accepted := by
  obtain ⟨timetable, loaded, allLoaded, behind, order⟩ := h
  rw [hdispatched] at timetable allLoaded behind order
  refine ⟨(pairwise_cons.mp timetable).2, loaded, fun s hs => allLoaded s (by simp [hs]),
    fun s hs => behind s (by simp [hs]), fun id => ?_⟩
  rw [← order id, flatMap_cons, append_assoc, append_assoc]

/-- A message of which no predecessor waits is put into the queue at once. -/
theorem pass (hwaiting : ∀ t ∈ d.dispatched, m.identifier ∉ t.passengers)
    (htrain : m.identifier ∉ d.train.passengers) : Sorted d (queued ++ [m]) (accepted ++ [m]) := by
  refine ⟨h.timetable, h.loaded, h.allLoaded, h.behind, fun id => ?_⟩
  have horder := h.order id
  by_cases hid : m.identifier = id
  · subst hid
    have hnone : ofId m.identifier (d.dispatched.flatMap messages) = [] :=
      ofId_flatMap_eq_nil h.allLoaded hwaiting
    simp only [ofId_append, hnone, h.loaded.ofId_eq_nil htrain, append_nil] at horder ⊢
    rw [horder]
  · have hnone : ofId id [m] = [] := by simp [ofId, hid]
    simp only [ofId_append, hnone, append_nil] at horder ⊢
    exact horder

end Sorted

/-! ### Runs -/

namespace Client

variable {cfg : Config} {c c' : Client} {i : Input} {now : ℕ} {m : Message}

/-- The departure of the train if the message enters it, see `Train.admits`. -/
def admits (cfg : Config) (c : Client) (now : ℕ) (m : Message) : Option ℕ :=
  c.depot.train.admits c.depot.train.buffer.bytes.length m.data.length cfg.maxMessageSize now
    (cfg.timing m.identifier) m.identifier

/-- If the message enters the current train: the trains that wait and share a passenger with it do
not depart later than this train with the message. If the current train must depart: the trains that
wait and have the service and method of the message do not depart later than the new train, and
neither does the current train if it has them. -/
def BoardsBehind (cfg : Config) (c : Client) (now : ℕ) (m : Message) : Prop :=
  (∀ departure ∈ c.admits cfg now m, ∀ t ∈ c.depot.dispatched,
    ¬ Disjoint t.passengers (insert m.identifier c.depot.train.passengers) →
      t.departure ≤ departure) ∧
  (c.admits cfg now m = none →
    (∀ t ∈ c.depot.dispatched, m.identifier ∈ t.passengers →
      t.departure ≤ now + (cfg.timing m.identifier).retention) ∧
    (m.identifier ∈ c.depot.train.passengers → c.depot.train.due c.depot.lastDeparture ≤
      now + (cfg.timing m.identifier).retention))
deriving Decidable

/-- No message with the service and method waits in a train. -/
def NoneWaits (c : Client) (id : Identifier) : Prop :=
  id ∉ c.depot.train.passengers ∧ ∀ t ∈ c.depot.dispatched, id ∉ t.passengers
deriving Decidable

/-- A message that is taken for a train boards behind its predecessors, and a message that is split
has no predecessor that waits. -/
def OnSchedule (cfg : Config) (c : Client) : Input → Prop
  | .send now m => (Boards cfg c m → c.BoardsBehind cfg now m) ∧
      (Splits cfg c m → c.NoneWaits m.identifier)
  | _ => True

instance decidableOnSchedule (cfg : Config) (c : Client) :
    (i : Input) → Decidable (OnSchedule cfg c i)
  | .send _ _ => inferInstanceAs (Decidable (_ ∧ _))
  | .flushCbk _ | .sendCbk _ | .stop => .isTrue trivial

/-- For each service and method, what has been queued is what was accepted first. -/
def InOrder (c : Client) : Prop :=
  ∀ id, ofId id c.queued <+: ofId id (c.accepted.map Prod.fst)

/-- The trains and the queue of the endpoint are sorted. -/
def IsSorted (c : Client) : Prop := Sorted c.depot c.queued (c.accepted.map Prod.fst)

/-- A new endpoint has nothing. -/
theorem isSorted_create (now : ℕ) : (create now).IsSorted :=
  ⟨List.Pairwise.nil, loaded_new now, by simp [create, Depot.new], by simp [create, Depot.new],
    fun _ => rfl⟩

/-- What is in the queue was accepted first. -/
theorem IsSorted.inOrder (h : c.IsSorted) : c.InOrder := fun id => by
  rw [← h.order id, ofId_append]
  exact prefix_append _ _

/-- A message that boards behind its predecessors keeps the order. Source: `send`, STEP 1 to 10 -/
theorem IsSorted.board (h : c.IsSorted) (hbehind : c.BoardsBehind cfg now m) :
    (c.board cfg now m).IsSorted := by
  have haccepted : (c.board cfg now m).accepted.map Prod.fst =
      c.accepted.map Prod.fst ++ [m] := by simp [Client.board]
  unfold IsSorted at h ⊢
  rw [haccepted]
  rcases hadmits : c.admits cfg now m with _ | departure
  · obtain ⟨hdispatched, hcurrent⟩ := hbehind.2 hadmits
    have hdepart := h.depart now (cfg.timing m.identifier)
    refine (hdepart.enter m now (cfg.timing m.identifier)
      (now + (cfg.timing m.identifier).retention) ?_).congr ?_ ?_
    · intro t ht hnot
      have hmem : m.identifier ∈ t.passengers := by
        by_contra hno
        exact hnot (by simpa [Depot.depart, new] using hno)
      rcases mem_cons.mp ((file_perm _ _).mem_iff.mp ht) with rfl | ht
      · exact hcurrent hmem
      · exact hdispatched t ht hmem
    · simp only [Client.board, Depot.board_of_not_admits hadmits]
      rfl
    · simp only [Client.board, Depot.board_of_not_admits hadmits]
      rfl
  · refine (h.enter m now (cfg.timing m.identifier) departure
      (hbehind.1 departure hadmits)).congr ?_ ?_
    · simp only [Client.board, Depot.board_of_admits hadmits]
      rfl
    · simp only [Client.board, Depot.board_of_admits hadmits]
      rfl

/-- Segments: the current train is filed unless it is empty, and the message is queued. -/
theorem IsSorted.segments (h : c.IsSorted) (hnone : c.NoneWaits m.identifier) {id : Identifier}
    (hdepot : c'.depot = passSegments cfg c.depot now id)
    (haccepted : c'.accepted = c.accepted ++ [(m, now)]) (hqueued : c'.queued = c.queued ++ [m]) :
    c'.IsSorted := by
  obtain ⟨htrain, hdispatched⟩ := hnone
  have htight := h.tighten (cfg.timing id)
  unfold IsSorted
  rw [hdepot, haccepted, hqueued, map_append]
  unfold passSegments
  dsimp only
  split_ifs with hempty
  · exact htight.pass hdispatched htrain
  · refine (htight.depart now (cfg.timing id)).pass ?_ (by simp [Depot.depart, new])
    intro t ht
    rcases mem_cons.mp ((file_perm _ _).mem_iff.mp ht) with rfl | ht
    · exact htrain
    · exact hdispatched t ht

/-- **One step** that is on schedule keeps the order. -/
theorem IsSorted.of_moves (h : c.IsSorted) (hschedule : OnSchedule cfg c i)
    (hmoves : Moves cfg c c' i) : c'.IsSorted := by
  cases hmoves with
  | idle train dispatched accepted queued =>
      unfold IsSorted
      rw [accepted, queued]
      exact h.congr train dispatched
  | boards hboards eq =>
      rw [eq]
      exact h.board (hschedule.1 hboards)
  | segments id splits depot accepted queued =>
      exact h.segments (hschedule.2 splits) depot accepted queued
  | flushes t flushes accepted queued =>
      unfold IsSorted
      rw [accepted, queued]
      cases flushes with
      | train somebody first train dispatched => exact (h.flushTrain first).congr train dispatched
      | dispatched t somebody first train => exact (h.flushDispatched first).congr train rfl
  | discards t nobody first train accepted queued =>
      have hnil := (h.allLoaded t (by rw [first]; simp)).messages_eq_nil nobody
      have hsorted := h.flushDispatched first
      unfold IsSorted
      rw [hnil, append_nil] at hsorted
      rw [accepted, queued]
      exact hsorted.congr train rfl

/-- **The order of the messages of a service and method is kept** in every state of a run whose
steps are on schedule, with any clock and any configured times: what has been put into the queue is
what `send` accepted first. -/
theorem send_order_kept (cfg : Config) (now : ℕ) (inputs : List Input)
    (h : AllSteps (step cfg) (OnSchedule cfg) (create now) inputs) :
    AllSteps (step cfg) (fun c i => ∀ o c', step cfg c i = .ok (o, c') → c'.InOrder)
      (create now) inputs := by
  refine AllSteps.of_invariant IsSorted ?_ ?_ (isSorted_create now) h
  · intro c i o c' hsorted hschedule hstep
    exact hsorted.of_moves hschedule (moves_of_step hstep)
  · intro c i hsorted hschedule o c' hstep
    exact (hsorted.of_moves hschedule (moves_of_step hstep)).inOrder

/-- Two messages of a method in two trains, with a retention time of 100. -/
theorem send_order_kept_twoTrains :
    let cfg : Config := ⟨1416, 0xFFFFFFFF, fun _ => ⟨5, 100, by decide, by decide⟩, fun _ => none, nofun⟩
    let first : Message := ⟨[0, 1, 0, 2, 1], by decide, by decide⟩
    let second : Message := ⟨[0, 1, 0, 2, 2], by decide, by decide⟩
    AllSteps (step cfg) (fun c i => ∀ o c', step cfg c i = .ok (o, c') → c'.InOrder) (create 0)
      [.send 1 first, .send 2 second, .flushCbk 101, .sendCbk 101, .flushCbk 102] :=
  send_order_kept _ _ _ (by decide +kernel)

/-- Method 2 has a debounce time of 5 and a retention time of 100, method 3 none and 5. The second
message of method 2 makes the train of the first one depart, at 101. A message of method 3 enters
the new train and draws its departure to 8: the second message overtakes the first. -/
theorem later_message_overtakes :
    let cfg : Config := ⟨1416, 0xFFFFFFFF, fun id => if id.2 = 2 then ⟨5, 100, by decide, by decide⟩
      else ⟨0, 5, by decide, by decide⟩, fun _ => none, nofun⟩
    let first : Message := ⟨[0, 1, 0, 2, 1], by decide, by decide⟩
    let second : Message := ⟨[0, 1, 0, 2, 2], by decide, by decide⟩
    let other : Message := ⟨[0, 1, 0, 3], by decide, by decide⟩
    let inputs := [.send 1 first, .send 2 second, .send 3 other, .flushCbk 8, .flushCbk 101]
    first.identifier = second.identifier ∧ AllSteps (step cfg) OnTime (create 0) inputs ∧
      ∃ outs c, run (step cfg) (create 0) inputs = .ok (outs, c) ∧
        c.accepted.map Prod.fst = [first, second, other] ∧ c.queued = [second, other, first] ∧
        ¬ c.InOrder := by
  intro cfg first second other inputs
  have heval : ((run (step cfg) (create 0) inputs).toOption.map
      fun out => (out.2.accepted.map Prod.fst, out.2.queued)) =
        some ([first, second, other], [second, other, first]) := by decide +kernel
  refine ⟨by decide, by decide +kernel, ?_⟩
  rcases hrun : run (step cfg) (create 0) inputs with e | ⟨outs, c⟩
  · rw [hrun] at heval
    cases heval
  · rw [hrun] at heval
    obtain ⟨haccepted, hqueued⟩ := Prod.mk.inj (Option.some.inj heval)
    refine ⟨outs, c, rfl, haccepted, hqueued, fun horder => ?_⟩
    have hprefix := horder first.identifier
    rw [haccepted, hqueued] at hprefix
    revert hprefix
    decide +kernel

end Client

end SomeipTunnel.Endpoint
