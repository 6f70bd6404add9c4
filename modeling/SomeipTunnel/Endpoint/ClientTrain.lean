import SomeipTunnel.Endpoint.Client

/-!
# The current train of a client endpoint

A train that is not empty should be what its messages make it: at most one message per service and
method, a buffer with these messages one behind the other that is not larger than the maximum
message size, the departure at which the first of them must leave, and the smallest of their
debounce and maximum retention times (`Manifest`).

All of this is kept by every step except for the two minimal times: `send_segments` lowers those of
the current train even if the train is empty and stays, and the next message that enters it finds
minimal times that are not of one of its messages.

* `train_manifest_iff`: **when a train that is not empty is as its messages make it, in every state
  of a run**; `segments_tighten_empty_train` is a run where one is not.
-/

namespace SomeipTunnel.Endpoint

open StepRun Load List

/-- The latest departure for a message that was accepted at a time. -/
def latest (cfg : Config) (b : Message × ℕ) : ℕ := b.2 + (cfg.timing b.1.identifier).retention

/-- The train is what its messages make it. -/
structure Manifest (cfg : Config) (accepted : List (Message × ℕ)) (t : Train Load) : Prop where
  passengers : t.passengers = (t.buffer.boarded.map (·.1.identifier)).toFinset
  nodup : (t.buffer.boarded.map (·.1.identifier)).Nodup
  order : t.buffer.boarded <:+ accepted
  bytes : t.buffer.bytes = (t.buffer.boarded.map (·.1.data)).flatten
  size_le : t.buffer.bytes.length ≤ cfg.maxMessageSize
  departure : IsLeast (latest cfg '' {b | b ∈ t.buffer.boarded}) t.departure
  debounce : IsLeast ((fun b => (cfg.timing b.1.identifier).debouncing) ''
    {b | b ∈ t.buffer.boarded}) t.minimalDebounceTime
  retention : IsLeast ((fun b => (cfg.timing b.1.identifier).retention) ''
    {b | b ∈ t.buffer.boarded}) t.minimalMaxRetentionTime

section Manifest

variable {cfg : Config} {now : ℕ} {m : Message} {t : Train Load} {accepted : List (Message × ℕ)}

/-- The least value with one more element. -/
theorem isLeast_image_concat {α : Type*} {l : List α} {a : α} {f : α → ℕ} {x : ℕ}
    (h : IsLeast (f '' {b | b ∈ l}) x) : IsLeast (f '' {b | b ∈ l ++ [a]}) (min x (f a)) := by
  have hset : {b | b ∈ l ++ [a]} = insert a {b | b ∈ l} := by
    ext b
    simp [or_comm]
  rw [hset, Set.image_insert_eq, min_comm]
  exact h.insert (f a)

/-- The first message of a train. -/
theorem manifest_single (hsize : m.data.length ≤ cfg.maxMessageSize)
    (hdebounce : (cfg.timing m.identifier).debouncing ≤ t.minimalDebounceTime)
    (hretention : (cfg.timing m.identifier).retention ≤ t.minimalMaxRetentionTime)
    (hpassengers : t.passengers = ∅) (hdeparture : t.departure = latest cfg (m, now)) :
    Manifest cfg (accepted ++ [(m, now)])
      { t.enter (cfg.timing m.identifier) m.identifier with buffer := empty.add m now } where
  passengers := by simp [Train.enter, hpassengers, add, empty]
  nodup := by simp [add, empty]
  order := suffix_append accepted [(m, now)]
  bytes := by simp [add, empty]
  size_le := by simpa [add, empty] using hsize
  departure := by simp [add, empty, Train.enter, Train.tighten, hdeparture]
  debounce := by simp [add, empty, Train.enter, Train.tighten, hdebounce]
  retention := by simp [add, empty, Train.enter, Train.tighten, hretention]

/-- One more message. -/
theorem Manifest.concat (h : Manifest cfg accepted t) (hid : m.identifier ∉ t.passengers)
    (hsize : t.buffer.bytes.length + m.data.length ≤ cfg.maxMessageSize) {departure : ℕ}
    (hdeparture : departure = min t.departure (latest cfg (m, now))) :
    Manifest cfg (accepted ++ [(m, now)])
      { ({ t with departure := departure }).enter (cfg.timing m.identifier) m.identifier with
        buffer := t.buffer.add m now } where
  passengers := by
    simp only [Train.enter, add, map_append, toFinset_append, ← h.passengers]
    ext id
    simp [or_comm]
  nodup := by
    rw [h.passengers, mem_toFinset] at hid
    rw [add, map_append]
    exact List.Nodup.append h.nodup (nodup_singleton _) (by simpa using hid)
  order := by
    obtain ⟨front, rfl⟩ := h.order
    exact ⟨front, by simp [add]⟩
  bytes := by simp [add, h.bytes]
  size_le := by simpa [add] using hsize
  departure := by
    rw [hdeparture]
    exact isLeast_image_concat h.departure
  debounce := isLeast_image_concat h.debounce
  retention := isLeast_image_concat h.retention

end Manifest

namespace Client

variable {cfg : Config} {c c' : Client} {i : Input} {now : ℕ} {m : Message}

/-- An empty train has an empty buffer, another one is what its messages make it. -/
structure Carries (cfg : Config) (c : Client) : Prop where
  empty : c.depot.train.passengers = ∅ → c.depot.train.buffer = .empty
  manifest : c.depot.train.passengers ≠ ∅ → Manifest cfg c.accepted c.depot.train

/-- A message that enters an empty train does not wait longer than the minimal times in it. -/
def EntersTight (cfg : Config) (c : Client) : Input → Prop
  | .send _ m => Boards cfg c m → c.depot.train.passengers = ∅ →
      (cfg.timing m.identifier).debouncing ≤ c.depot.train.minimalDebounceTime ∧
        (cfg.timing m.identifier).retention ≤ c.depot.train.minimalMaxRetentionTime
  | _ => True

/-- A new endpoint has an empty train. -/
theorem carries_create (cfg : Config) (now : ℕ) : Carries cfg (create now) :=
  ⟨fun _ => rfl, fun h => absurd rfl h⟩

/-- An empty train is what its messages make it. -/
theorem carries_of_empty (hpassengers : c.depot.train.passengers = ∅)
    (hbuffer : c.depot.train.buffer = .empty) : Carries cfg c :=
  ⟨fun _ => hbuffer, fun h => absurd hpassengers h⟩

/-- A message is a passenger of the train that it boards. -/
theorem passengers_board (cfg : Config) (c : Client) (now : ℕ) (m : Message) :
    m.identifier ∈ (c.board cfg now m).depot.train.passengers := by
  unfold board Depot.board
  split
  · exact Finset.mem_insert_self _ _
  · exact Finset.mem_insert_self _ _

/-- A message that enters an empty train. -/
theorem board_of_empty (h : Carries cfg c) (hempty : c.depot.train.passengers = ∅) :
    (c.board cfg now m).depot.train =
      { ({ c.depot.train with departure := latest cfg (m, now) }).enter (cfg.timing m.identifier)
          m.identifier with buffer := empty.add m now } := by
  have hadmits : c.depot.train.admits c.depot.train.buffer.bytes.length m.data.length
      cfg.maxMessageSize now (cfg.timing m.identifier) m.identifier =
        some (latest cfg (m, now)) := if_pos hempty
  have hbuffer := h.empty hempty
  unfold board
  rw [Depot.board_of_admits hadmits, Depot.startDispatchTimer_train]
  simp only [Train.enter, Train.tighten, hbuffer]

/-- A message that boards keeps the train right, unless the train is empty with smaller minimal
times. Source: `send`, STEP 1 to 10 -/
theorem Carries.board (h : Carries cfg c) (hboards : Boards cfg c m)
    (htight : EntersTight cfg c (.send now m)) : Carries cfg (c.board cfg now m) := by
  have hsize := (cfg.checkMessageSize_iff m).mp hboards.2.2
  refine ⟨fun hnone => ?_, fun _ => ?_⟩
  · have hmem := passengers_board cfg c now m
    rw [hnone] at hmem
    simp at hmem
  by_cases hempty : c.depot.train.passengers = ∅
  · obtain ⟨hdebounce, hretention⟩ := htight hboards hempty
    rw [board_of_empty h hempty]
    exact manifest_single hsize hdebounce hretention hempty rfl
  · have hmanifest := h.manifest hempty
    unfold Client.board
    rcases hadmits : c.depot.train.admits c.depot.train.buffer.bytes.length m.data.length
      cfg.maxMessageSize now (cfg.timing m.identifier) m.identifier with _ | departure
    · -- the current train departs, and the message is the first one of a new train
      rw [Depot.board_of_not_admits hadmits, Depot.startDispatchTimer_train]
      exact manifest_single (t := { Train.new Load.empty now with departure := latest cfg (m, now) })
        hsize (cfg.timing m.identifier).debouncing_le (cfg.timing m.identifier).retention_le rfl rfl
    · rw [Depot.board_of_admits hadmits, Depot.startDispatchTimer_train]
      obtain ⟨hnone, -⟩ | ⟨-, hid, hfits, hdeparture⟩ := Train.admits_eq_some hadmits
      · exact absurd hnone hempty
      · exact hmanifest.concat hid hfits hdeparture

/-- Segments leave an empty train. -/
theorem Carries.passSegments (h : Carries cfg c) {id : Identifier}
    (hdepot : c'.depot = passSegments cfg c.depot now id) : Carries cfg c' := by
  by_cases hempty : c.depot.train.passengers = ∅
  · have hpass : c'.depot.train = c.depot.train.tighten (cfg.timing id) := by
      rw [hdepot]
      exact congrArg Depot.train (if_pos hempty)
    refine carries_of_empty ?_ ?_
    · rw [hpass]
      exact hempty
    · rw [hpass]
      exact h.empty hempty
  · have hpass : c'.depot.train =
        { Train.new Load.empty now with departure := now + (cfg.timing id).retention } := by
      rw [hdepot]
      exact congrArg Depot.train (if_neg hempty)
    exact carries_of_empty (by rw [hpass]; rfl) (by rw [hpass]; rfl)

/-- Only the current train matters. -/
theorem Carries.of_train_eq (h : Carries cfg c) (htrain : c'.depot.train = c.depot.train)
    (haccepted : c'.accepted = c.accepted) : Carries cfg c' := by
  refine ⟨?_, ?_⟩
  · rw [htrain]
    exact h.empty
  · rw [htrain, haccepted]
    exact h.manifest

/-- **One step.** Each move of `moves_of_step` keeps the train right. -/
theorem Carries.of_moves (h : Carries cfg c) (htight : EntersTight cfg c i)
    (hmoves : Moves cfg c c' i) : Carries cfg c' := by
  cases hmoves with
  | idle train dispatched accepted queued => exact h.of_train_eq train accepted
  | boards hboards eq =>
      rw [eq]
      exact h.board hboards htight
  | segments id splits depot accepted queued => exact h.passSegments depot
  | flushes t flushes accepted queued =>
      cases flushes with
      | train somebody first train dispatched =>
          exact carries_of_empty (by rw [train]; rfl) (by rw [train]; rfl)
      | dispatched t somebody first train => exact h.of_train_eq train accepted
  | discards t nobody first train accepted queued => exact h.of_train_eq train accepted

/-- A train that is not empty is as its messages make it after the step. -/
def KeepsManifest (cfg : Config) (c : Client) (i : Input) : Prop :=
  ∀ o c', step cfg c i = .ok (o, c') → c'.depot.train.passengers ≠ ∅ →
    Manifest cfg c'.accepted c'.depot.train

/-- Conversely, a step behind which the train is right enters no empty one with smaller times. -/
theorem entersTight_of_keepsManifest (h : Carries cfg c) (hkeeps : KeepsManifest cfg c i) :
    EntersTight cfg c i := by
  rcases i with ⟨now, m⟩ | now | now | _
  · intro hboards hempty
    have hne : (c.board cfg now m).depot.train.passengers ≠ ∅ :=
      Finset.ne_empty_of_mem (passengers_board cfg c now m)
    have hmanifest := hkeeps true (c.board cfg now m) (send_of_boards hboards) hne
    rw [board_of_empty h hempty] at hmanifest
    obtain ⟨b, hb, hdebounce⟩ := hmanifest.debounce.1
    obtain ⟨b', hb', hretention⟩ := hmanifest.retention.1
    obtain rfl := mem_singleton.mp hb
    obtain rfl := mem_singleton.mp hb'
    exact ⟨min_eq_right_iff.mp hdebounce.symm, min_eq_right_iff.mp hretention.symm⟩
  · trivial
  · trivial
  · trivial

/-- **The train of a client endpoint is what its messages make it, iff no message enters an empty
train with times longer than the minimal times in it**, in every state that a run reaches. -/
theorem train_manifest_iff (cfg : Config) (now : ℕ) (inputs : List Input) :
    AllSteps (step cfg) (KeepsManifest cfg) (create now) inputs ↔
      AllSteps (step cfg) (EntersTight cfg) (create now) inputs := by
  refine AllSteps.iff_of_invariant (Carries cfg) ?_ ?_ (carries_create cfg now)
  · intro c i o c' h htight hstep
    exact h.of_moves htight (moves_of_step hstep)
  · intro c i h
    refine ⟨entersTight_of_keepsManifest h, fun htight o c' hstep => ?_⟩
    exact (h.of_moves htight (moves_of_step hstep)).manifest

/-- A large message of service 0x1234 with a debounce and a retention time of 1 is split while the
train is empty. The train of the next message has 1 as its minimal times, not the 10 and 100 of that
message. -/
theorem segments_tighten_empty_train :
    let cfg : Config := {
      maxMessageSize := 1416
      queueLimit := 0xFFFFFFFF
      timing := fun id => if id.1 = 0x1234 then ⟨1, 1, by decide, by decide⟩
        else ⟨10, 100, by decide, by decide⟩
      segmentation := fun _ => some (1392, 0)
      udp := fun _ _ => rfl }
    let large : Message := ⟨Tp.requestMessage 1401 0, by decide +kernel, by decide +kernel⟩
    let small : Message := ⟨[0, 1, 0, 2], by decide, by decide⟩
    ∃ outs c, run (step cfg) (create 0) [.send 0 large, .send 0 small] = .ok (outs, c) ∧
      c.depot.train.passengers = {(1, 2)} ∧ ¬ Manifest cfg c.accepted c.depot.train := by
  intro cfg large small
  have heval : ((run (step cfg) (create 0) [.send 0 large, .send 0 small]).toOption.map
      fun out => (out.2.depot.train.passengers, out.2.depot.train.minimalDebounceTime,
        out.2.depot.train.buffer.boarded)) = some ({(1, 2)}, 1, [(small, 0)]) := by
    decide +kernel
  rcases hrun : run (step cfg) (create 0) [.send 0 large, .send 0 small] with e | ⟨outs, c⟩
  · rw [hrun] at heval
    cases heval
  · rw [hrun] at heval
    obtain ⟨hpassengers, htimes⟩ := Prod.mk.inj (Option.some.inj heval)
    obtain ⟨hdebounce, hboarded⟩ := Prod.mk.inj htimes
    refine ⟨outs, c, rfl, hpassengers, fun hmanifest => ?_⟩
    obtain ⟨b, hb, hleast⟩ := hmanifest.debounce.1
    rw [hboarded] at hb
    obtain rfl := mem_singleton.mp hb
    rw [hdebounce] at hleast
    revert hleast
    decide +kernel

end Client

end SomeipTunnel.Endpoint
