import SomeipTunnel.Endpoint.Target

/-!
# What the steps of a target do to its buffers

As long as no buffer has two owners (`Separate`), each operation of a target moves buffers between
the current train, the trains that wait and the queue, appends to one of them, or takes one from the
queue because it has been sent. `Effect t t' new` says so: nothing that was there is lost or doubled,
`new` is what came in, and the size of the queue is kept.

There are two things a step must not do: a `prepare_stop` queues the buffer of the current train
and leaves it to the train as well, and a `send_queued` that finds no connection drops the queue
without its size.

* `Undisturbed`: the step does neither.
* `step_effect`: **an undisturbed step has an effect**, and `new` is not larger than what the input
  brings (`demand`).
-/

namespace SomeipTunnel.Endpoint

open List Store
open Tp (readUint16Be tpSplitMessage)

/-- The number of bytes of a buffer. -/
def weight (pieces : List Piece) : ℕ := (bytes pieces).length

@[simp] theorem weight_nil : weight [] = 0 := rfl

@[simp] theorem weight_append (ps qs : List Piece) : weight (ps ++ qs) = weight ps + weight qs := by
  simp [weight]

@[simp] theorem weight_cons (p : Piece) (ps : List Piece) :
    weight (p :: ps) = p.data.length + weight ps := by
  simp [weight, bytes]

theorem weight_perm {ps qs : List Piece} (h : ps.Perm qs) : weight ps = weight qs :=
  (h.flatMap_right Piece.data).length_eq

theorem messages_perm {ps qs : List Piece} (h : ps.Perm qs) : (messages ps).Perm (messages qs) :=
  h.filterMap _

/-! ### Addresses -/

/-- The addresses of the buffers of the trains. -/
def Depot.addresses (d : Depot ℕ) : List ℕ := d.dispatched.map Train.buffer ++ [d.train.buffer]

/-- A departure adds the buffer of a new train. -/
theorem Depot.addresses_depart (d : Depot ℕ) (fresh now : ℕ) (timing : Timing) :
    (d.depart fresh now timing).addresses.Perm (d.addresses ++ [fresh]) := by
  have hfile := (file_perm { d.train with departure := d.train.due d.lastDeparture }
    d.dispatched).map Train.buffer
  have hswap : ([d.train.buffer] ++ d.dispatched.map Train.buffer).Perm d.addresses :=
    perm_append_comm
  exact (hfile.trans hswap).append_right [fresh]

namespace Target

variable {cfg : Config} {t t' t'' : Target} {o : Outcome}

/-- The addresses of the buffers in the queue. -/
def queued (t : Target) : List ℕ := t.queue.map Prod.fst

/-- The pieces in the queue. -/
def queueLoad (t : Target) : List Piece := t.store.gather t.queued

/-- The pieces in the trains. -/
def trainLoad (t : Target) : List Piece := t.store.gather t.depot.addresses

/-- The pieces that have been sent, are in the queue, or wait in the trains. -/
def held (t : Target) : List Piece := t.sent ++ (t.queueLoad ++ t.trainLoad)

theorem queuedBytes_eq (t : Target) : t.queuedBytes = weight t.queueLoad := by
  unfold queuedBytes queueLoad queued
  induction t.queue with
  | nil => rfl
  | cons entry queue ih =>
      rw [map_cons, sum_cons, ih, map_cons, gather_cons, weight_append]
      rfl

/-- No buffer has two owners, and a write in progress has its buffer in the queue. -/
structure Separate (t : Target) : Prop where
  nodup : (t.queued ++ t.depot.addresses).Nodup
  lt_fresh : ∀ p ∈ t.queued ++ t.depot.addresses, p < t.store.fresh
  flying : t.inFlight → t.isSending ∧ t.queue ≠ []

/-- A new target owns one buffer. -/
theorem separate_create (now : ℕ) : (create now).Separate :=
  ⟨by simp [create, queued, Depot.addresses, Depot.new, Train.new],
    by simp [create, queued, Depot.addresses, Depot.new, Train.new], nofun⟩

/-- From `t` to `t'` nothing is lost or doubled, and `new` comes in. -/
structure Effect (t t' : Target) (new : List Piece) : Prop where
  separate : t'.Separate
  messages : (messages t'.held).Perm (messages t.held ++ messages new)
  weight : weight t'.held = weight t.held + weight new
  sent : t.sent <+: t'.sent
  accepted : t'.accepted = t.accepted ++ Endpoint.messages new
  queueSize : t.queueSize = Endpoint.weight t.queueLoad →
    t'.queueSize = Endpoint.weight t'.queueLoad

/-- Nothing happens. -/
theorem Effect.refl (h : t.Separate) : Effect t t [] :=
  ⟨h, by simp, by simp, prefix_refl _, by simp, id⟩

variable {new : List Piece} {d : Depot ℕ}

/-- One after the other. -/
theorem Effect.trans {new' : List Piece} (h : Effect t t' new) (h' : Effect t' t'' new') :
    Effect t t'' (new ++ new') where
  separate := h'.separate
  messages := by
    refine h'.messages.trans ?_
    rw [messages_append, ← append_assoc]
    exact h.messages.append_right _
  weight := by rw [h'.weight, h.weight, weight_append, Nat.add_assoc]
  sent := h.sent.trans h'.sent
  accepted := by rw [h'.accepted, h.accepted, messages_append, append_assoc]
  queueSize := fun hsize => h'.queueSize (h.queueSize hsize)

/-- An effect from what the queue and the trains load. -/
theorem Effect.of_loads {queue trains : List Piece} (hseparate : t'.Separate)
    (hqueue : t'.queueLoad = queue) (htrains : t'.trainLoad.Perm trains)
    (hheld : (t'.sent ++ (queue ++ trains)).Perm (t.held ++ new)) (hsent : t.sent <+: t'.sent)
    (haccepted : t'.accepted = t.accepted ++ Endpoint.messages new)
    (hsize : t.queueSize = Endpoint.weight t.queueLoad → t'.queueSize = Endpoint.weight queue) :
    Effect t t' new := by
  have hperm : t'.held.Perm (t.held ++ new) := by
    unfold held at hheld ⊢
    rw [hqueue]
    exact ((htrains.append_left _).append_left _).trans hheld
  refine ⟨hseparate, ?_, ?_, hsent, haccepted, ?_⟩
  · rw [← messages_append]
    exact messages_perm hperm
  · rw [weight_perm hperm, weight_append]
  · rwa [hqueue]

/-! ### Sending -/

/-- The most that `send_queued` inserts. -/
def cookieSize (o : Outcome) : ℕ := if o = .started true then serviceCookie.length else 0

/-- Segments and cookies of at most `n` bytes. -/
structure Extra (new : List Piece) (n : ℕ) : Prop where
  messages : messages new = []
  weight : weight new ≤ n

theorem extra_nil (n : ℕ) : Extra [] n := ⟨rfl, Nat.zero_le _⟩

theorem Extra.append {new' : List Piece} {n n' : ℕ} (h : Extra new n) (h' : Extra new' n') :
    Extra (new ++ new') (n + n') :=
  ⟨by rw [messages_append, h.messages, h'.messages]; rfl,
    (weight_append _ _).trans_le (Nat.add_le_add h.weight h'.weight)⟩

/-- A cookie comes into the front of the queue. -/
theorem effect_insertCookie (h : t.Separate) {front separationTime : ℕ} {rest : List (ℕ × ℕ)}
    (hqueue : t.queue = (front, separationTime) :: rest) :
    Effect t (t.insertCookie front) [.cookie] := by
  have hqueued : t.queued = front :: rest.map Prod.fst := by rw [queued, hqueue, map_cons]
  have hnodup := h.nodup
  rw [hqueued, cons_append, nodup_cons, mem_append, not_or] at hnodup
  obtain ⟨⟨hrest, htrains⟩, -⟩ := hnodup
  have hqueueLoad : (t.insertCookie front).queueLoad = [.cookie] ++ t.queueLoad := by
    have hgather : (t.insertCookie front).queueLoad =
        (t.store.modify front fun pieces => .cookie :: pieces).gather t.queued := rfl
    rw [hgather, queueLoad, hqueued, gather_cons, gather_cons, content_modify,
      gather_modify_of_not_mem hrest]
    rfl
  have htrainLoad : (t.insertCookie front).trainLoad = t.trainLoad :=
    gather_modify_of_not_mem htrains
  refine .of_loads ⟨h.nodup, h.lt_fresh, h.flying⟩ hqueueLoad (.of_eq htrainLoad) ?_
    (prefix_refl _) (append_nil _).symm ?_
  · have hsent : (t.insertCookie front).sent = t.sent := rfl
    rw [hsent, held, ← Multiset.coe_eq_coe]
    simp only [← Multiset.coe_add]
    abel
  · intro hsize
    rw [weight_append, ← hsize, Nat.add_comm]
    rfl

/-- A write is started. -/
theorem Effect.startWrite (h : Effect t t' new) (hqueue : t'.queue ≠ []) :
    Effect t t'.startWrite new :=
  ⟨⟨h.separate.nodup, h.separate.lt_fresh, fun _ => ⟨rfl, hqueue⟩⟩, h.messages, h.weight, h.sent,
    h.accepted, h.queueSize⟩

/-- Nothing but a cookie comes in, unless the queue is dropped. Source: `send_queued` -/
theorem effect_sendQueued (cfg : Config) (h : t.Separate) (ho : o ≠ .dropped) :
    ∃ new, Effect t (t.sendQueued cfg o).2 new ∧ Extra new (cookieSize o) := by
  rcases o with cookie | _ | _
  · unfold sendQueued
    rcases hqueue : t.queue with _ | ⟨⟨front, separationTime⟩, rest⟩
    · exact ⟨[], .refl h, extra_nil _⟩
    · have hne : t.queue ≠ [] := by simp [hqueue]
      dsimp only
      split_ifs with hcookie
      · refine ⟨[.cookie], (effect_insertCookie h hqueue).startWrite hne, rfl, ?_⟩
        rw [hcookie.1]
        exact le_rfl
      · exact ⟨[], (Effect.refl h).startWrite hne, extra_nil _⟩
  · exact ⟨[], .refl h, extra_nil _⟩
  · exact absurd rfl ho

/-- The same where a write may be in flight. -/
theorem effect_sendUnlessSending (cfg : Config) (h : t.Separate) (ho : o ≠ .dropped) :
    ∃ new, Effect t (t.sendUnlessSending cfg o).2 new ∧ Extra new (cookieSize o) := by
  unfold sendUnlessSending
  split_ifs
  · exact ⟨[], .refl h, extra_nil _⟩
  · exact effect_sendQueued cfg h ho

/-! ### Owners -/

/-- A new address is nobody's. -/
theorem Separate.nodup_fresh (h : t.Separate) :
    (t.queued ++ t.depot.addresses ++ [t.store.fresh]).Nodup := by
  refine List.Nodup.append h.nodup (nodup_singleton _) ?_
  rw [disjoint_singleton]
  exact fun hmem => (h.lt_fresh _ hmem).false

/-- Owners of old addresses and of a new one. -/
theorem Separate.of_subperm (h : t.Separate) (hperm : (t'.queued ++ t'.depot.addresses).Subperm
      (t.queued ++ t.depot.addresses ++ [t.store.fresh]))
    (hfresh : t'.store.fresh = t.store.fresh + 1)
    (hflying : t'.inFlight → t'.isSending ∧ t'.queue ≠ []) : t'.Separate := by
  refine ⟨?_, fun p hp => ?_, hflying⟩
  · obtain ⟨l, hl, hsub⟩ := hperm
    exact hl.nodup_iff.mp (h.nodup_fresh.sublist hsub)
  rw [hfresh]
  rcases mem_append.mp (hperm.subset hp) with hp | hp
  · have := h.lt_fresh p hp
    omega
  · rw [mem_singleton.mp hp]
    omega

theorem Separate.queued_lt (h : t.Separate) : ∀ p ∈ t.queued, p < t.store.fresh :=
  fun p hp => h.lt_fresh p (mem_append_left _ hp)

theorem Separate.addresses_lt (h : t.Separate) : ∀ p ∈ t.depot.addresses, p < t.store.fresh :=
  fun p hp => h.lt_fresh p (mem_append_right _ hp)

theorem Separate.not_mem_queued (h : t.Separate) {p : ℕ} (hp : p ∈ t.depot.addresses) :
    p ∉ t.queued := fun hq => (disjoint_of_nodup_append h.nodup) hq hp

/-! ### Boarding -/

/-- The trains have the same buffers. -/
theorem effect_depot (h : t.Separate) (hd : d.addresses = t.depot.addresses) :
    Effect t { t with depot := d } [] := by
  have htrainLoad : t.store.gather d.addresses = t.trainLoad := congrArg t.store.gather hd
  refine .of_loads ⟨?_, ?_, h.flying⟩ rfl (.of_eq htrainLoad) ?_ (prefix_refl _)
    (append_nil _).symm id
  · exact hd ▸ h.nodup
  · exact hd ▸ h.lt_fresh
  · rw [append_nil]
    exact .refl _

/-- The trains have the same buffers, perhaps with a new one. -/
theorem effect_withDepot (h : t.Separate) (hd : d.addresses = t.depot.addresses ∨
      d.addresses.Perm (t.depot.addresses ++ [t.store.fresh])) : Effect t (t.withDepot d) [] := by
  have hqueueLoad : (t.store.alloc []).gather t.queued = t.queueLoad :=
    gather_alloc h.queued_lt
  have haddresses : (t.store.alloc []).gather t.depot.addresses = t.trainLoad :=
    gather_alloc h.addresses_lt
  have htrainLoad : ((t.store.alloc []).gather d.addresses).Perm t.trainLoad := by
    rcases hd with hd | hd
    · rw [hd, haddresses]
    · refine (gather_perm hd).trans ?_
      rw [gather_append, haddresses, gather_cons, content_alloc_fresh,
        gather_nil, append_nil, append_nil]
  have hsubperm : (t.queued ++ d.addresses).Subperm
      (t.queued ++ t.depot.addresses ++ [t.store.fresh]) := by
    rcases hd with hd | hd
    · rw [hd]
      exact (sublist_append_left _ _).subperm
    · rw [append_assoc]
      exact (hd.append_left _).subperm
  refine .of_loads (h.of_subperm hsubperm rfl h.flying) hqueueLoad htrainLoad ?_
    (prefix_refl _) (append_nil _).symm id
  rw [append_nil]
  exact .refl _

/-- A message is inserted into the buffer of the current train. -/
theorem effect_insert (h : t.Separate) (number : ℕ) (m : Message) :
    Effect t { t with
      store := t.store.modify t.depot.train.buffer fun pieces => pieces ++ [.message number m]
      accepted := t.accepted ++ [(number, m)] } [.message number m] := by
  have hmem : t.depot.train.buffer ∈ t.depot.addresses := by simp [Depot.addresses]
  have hothers : t.depot.train.buffer ∉ t.depot.dispatched.map Train.buffer := by
    have hnodup := (nodup_append.mp h.nodup).2.1
    rw [Depot.addresses, nodup_append] at hnodup
    exact fun hmem => hnodup.2.2 _ hmem _ (mem_singleton_self _) rfl
  have hqueueLoad : (t.store.modify t.depot.train.buffer fun pieces =>
      pieces ++ [.message number m]).gather t.queued = t.queueLoad :=
    gather_modify_of_not_mem (h.not_mem_queued hmem)
  have htrainLoad : (t.store.modify t.depot.train.buffer fun pieces =>
      pieces ++ [.message number m]).gather t.depot.addresses =
        t.trainLoad ++ [.message number m] := by
    rw [trainLoad, Depot.addresses, gather_append, gather_append,
      gather_modify_of_not_mem hothers, gather_cons, gather_cons,
      content_modify, gather_nil, gather_nil, append_nil, append_nil,
      append_assoc]
  refine .of_loads ⟨h.nodup, h.lt_fresh, h.flying⟩ hqueueLoad (.of_eq htrainLoad) ?_
    (prefix_refl _) rfl id
  rw [held, append_assoc, append_assoc]

/-- Boarding owns at most one buffer more. -/
theorem addresses_board (d : Depot ℕ) (fresh bufferSize size maxMessageSize now : ℕ)
    (timing : Timing) (id : Identifier) :
    (d.board fresh bufferSize size maxMessageSize now timing id).addresses = d.addresses ∨
      (d.board fresh bufferSize size maxMessageSize now timing id).addresses.Perm
        (d.addresses ++ [fresh]) := by
  rcases hadmits : d.train.admits bufferSize size maxMessageSize now timing id with _ | departure
  · rw [Depot.board_of_not_admits hadmits]
    exact .inr (d.addresses_depart fresh now timing)
  · rw [Depot.board_of_admits hadmits]
    exact .inl rfl

/-- The message comes into a train. Source: `send_intern`, STEP 4 to 9 -/
theorem effect_board (cfg : Config) (h : t.Separate) (now number : ℕ) (m : Message) :
    Effect t (t.board cfg now number m) [.message number m] := by
  have halloc := effect_withDepot h (d := (t.depot.board t.store.fresh (t.size t.depot.train.buffer)
    m.data.length cfg.maxMessageSize now (timing cfg m.identifier) m.identifier).startDispatchTimer
      now) (addresses_board _ _ _ _ _ _ _ _)
  exact halloc.trans (effect_insert halloc.separate number m)

/-- A train with passengers departs in front of segments. Source: `send_segments` -/
theorem effect_passSegments (cfg : Config) (h : t.Separate) (now : ℕ) (id : Identifier) :
    Effect t (t.passSegments cfg now id) [] := by
  unfold passSegments
  dsimp only
  split_ifs
  · exact effect_depot h rfl
  · exact effect_withDepot h (.inr (Depot.addresses_depart _ _ _ _))

/-! ### Segments -/

/-- A segment comes into the queue. -/
theorem effect_enqueue (h : t.Separate) (number : ℕ) (data : List UInt8) (separationTime : ℕ) :
    Effect t (t.enqueue (.segment number data) separationTime) [.segment number data] := by
  have hqueued : (t.enqueue (.segment number data) separationTime).queued =
      t.queued ++ [t.store.fresh] := by simp [enqueue, queued]
  have hqueueLoad : (t.enqueue (.segment number data) separationTime).queueLoad =
      t.queueLoad ++ [.segment number data] := by
    rw [queueLoad, hqueued]
    exact (gather_append).trans (by
      rw [enqueue, gather_alloc h.queued_lt, gather_cons, content_alloc_fresh]
      rfl)
  have htrainLoad : (t.enqueue (.segment number data) separationTime).trainLoad = t.trainLoad :=
    gather_alloc h.addresses_lt
  have hperm : (t.queued ++ [t.store.fresh] ++ t.depot.addresses).Perm
      (t.queued ++ t.depot.addresses ++ [t.store.fresh]) := by
    rw [← Multiset.coe_eq_coe]
    simp only [← Multiset.coe_add]
    abel
  refine .of_loads (h.of_subperm (hqueued ▸ hperm.subperm) rfl fun hflying => ?_) hqueueLoad
    (.of_eq htrainLoad) ?_ (prefix_refl _) (append_nil _).symm fun hsize => ?_
  · exact ⟨(h.flying hflying).1, by simp [enqueue]⟩
  · have hsent : (t.enqueue (.segment number data) separationTime).sent = t.sent := rfl
    rw [hsent, held, ← Multiset.coe_eq_coe]
    simp only [← Multiset.coe_add]
    abel
  · rw [weight_append, ← hsize]
    simp [enqueue, weight, bytes]

theorem effect_enqueueAll (number separationTime : ℕ) (segments : List (List UInt8)) :
    ∀ {t : Target}, t.Separate → Effect t
      (segments.foldl (fun t s => t.enqueue (.segment number s) separationTime) t)
      (segments.map (.segment number)) := by
  induction segments with
  | nil => exact fun h => .refl h
  | cons s segments ih =>
      intro t h
      have henqueue := effect_enqueue h number s separationTime
      exact henqueue.trans (ih henqueue.separate)

theorem extra_segments (number : ℕ) (segments : List (List UInt8)) :
    Extra (segments.map (.segment number)) (segments.map List.length).sum := by
  induction segments with
  | nil => exact extra_nil _
  | cons s segments ih =>
      have hfirst : Extra [.segment number s] s.length := ⟨rfl, (weight_cons _ _).le⟩
      exact hfirst.append ih

/-- The segments come in, and perhaps a cookie. Source: `send_segments` -/
theorem effect_sendSegments (cfg : Config) (h : t.Separate) (ho : o ≠ .dropped) (now number : ℕ)
    (segments : List (List UInt8)) (separationTime : ℕ) :
    ∃ new, Effect t (t.sendSegments cfg now number segments separationTime o).2 new ∧
      Extra new ((segments.map List.length).sum + cookieSize o) := by
  rcases segments with _ | ⟨first, rest⟩
  · exact ⟨[], .refl h, extra_nil _⟩
  · have hpass := effect_passSegments cfg h now (readUint16Be first 0, readUint16Be first 2)
    have hqueue := effect_enqueueAll number separationTime (first :: rest) hpass.separate
    obtain ⟨new, hsend, hnew⟩ := effect_sendUnlessSending cfg hqueue.separate ho
    exact ⟨_, (hpass.trans hqueue).trans hsend, (extra_segments number _).append hnew⟩

/-! ### Queueing and completing -/

/-- The buffer of a train moves to the queue; the new train, if there is one, has a new buffer. -/
theorem effect_putTrain (h : t.Separate) {b : ℕ}
    (hd : (b :: d.addresses).Perm (t.depot.addresses ++ [t.store.fresh]) ∨
      t.depot.addresses = b :: d.addresses) : Effect t ((t.withDepot d).putTrain b) [] := by
  have haddresses : (t.store.alloc []).gather t.depot.addresses = t.trainLoad :=
    gather_alloc h.addresses_lt
  have hqueued : ((t.withDepot d).putTrain b).queued = t.queued ++ [b] := by
    simp [putTrain, withDepot, queued]
  have hqueueLoad : ((t.withDepot d).putTrain b).queueLoad =
      t.queueLoad ++ (t.store.alloc []).content b := by
    rw [queueLoad, hqueued]
    exact (gather_append).trans (congrArg₂ _ (gather_alloc h.queued_lt)
      (gather_cons.trans (append_nil _)))
  have htrainLoad : ((t.store.alloc []).gather (b :: d.addresses)).Perm t.trainLoad := by
    rcases hd with hd | hd
    · refine (gather_perm hd).trans ?_
      rw [gather_append, haddresses, gather_cons, content_alloc_fresh,
        gather_nil, append_nil, append_nil]
    · rw [← hd, haddresses]
  have hsubperm : (((t.withDepot d).putTrain b).queued ++ d.addresses).Subperm
      (t.queued ++ t.depot.addresses ++ [t.store.fresh]) := by
    rw [hqueued, append_assoc, append_assoc]
    rcases hd with hd | hd
    · exact (hd.append_left _).subperm
    · rw [hd]
      exact ((sublist_append_left _ _).append_left _).subperm
  refine .of_loads (h.of_subperm hsubperm rfl fun hflying => ?_) hqueueLoad (.refl _) ?_
    (prefix_refl _) (append_nil _).symm fun hsize => ?_
  · exact ⟨(h.flying hflying).1, by simp [putTrain]⟩
  · rw [gather_cons] at htrainLoad
    rw [append_nil, append_assoc]
    exact (htrainLoad.append_left _).append_left _
  · rw [weight_append, ← hsize]
    rfl

/-- A train with an empty buffer is discarded. -/
theorem effect_discard (h : t.Separate) {b : ℕ} (hd : t.depot.addresses = b :: d.addresses)
    (hbytes : bytes (t.store.content b) = []) :
    Effect t { t with depot := d } [] := by
  have htrainLoad : t.trainLoad = t.store.content b ++ t.store.gather d.addresses := by
    rw [trainLoad, hd, gather_cons]
  have hsublist : (t.queued ++ d.addresses).Sublist (t.queued ++ t.depot.addresses) := by
    rw [hd]
    exact (sublist_cons_self _ _).append_left _
  have hmessages : messages t.held = messages ({ t with depot := d } : Target).held := by
    simp only [held, htrainLoad, messages_append, messages_eq_nil hbytes]
    rfl
  have hweight : weight t.held = weight ({ t with depot := d } : Target).held := by
    have hnone : weight (t.store.content b) = 0 := by rw [weight, hbytes, length_nil]
    simp only [held, htrainLoad, weight_append, hnone, Nat.zero_add]
    rfl
  refine ⟨⟨h.nodup.sublist hsublist, fun p hp => h.lt_fresh p (hsublist.subset hp), h.flying⟩, ?_,
    ?_, prefix_refl _, (append_nil _).symm, id⟩
  · rw [hmessages, messages_nil, append_nil]
  · rw [hweight, weight_nil, Nat.add_zero]

/-- A train goes to the queue. Source: `flush` -/
theorem effect_flush (cfg : Config) (h : t.Separate) (ho : o ≠ .dropped) (now : ℕ) :
    ∃ new, Effect t (t.flush cfg now o).2 new ∧ Extra new (cookieSize o) := by
  have hflushes := t.depot.flushes (fun buffer => (bytes (t.store.content buffer)).isEmpty)
    t.store.fresh now
  unfold flush
  rcases hout : t.depot.flush (fun buffer => (bytes (t.store.content buffer)).isEmpty)
    t.store.fresh now with ⟨_ | train, d⟩
  · rw [hout] at hflushes
    cases hflushes with
    | idle nobody train dispatched =>
        simp only at train dispatched
        exact ⟨[], effect_depot h (by simp only [Depot.addresses, train, dispatched]),
          extra_nil _⟩
    | discards s nobody first train =>
        simp only at nobody first train
        refine ⟨[], effect_discard h ?_ (isEmpty_iff.mp nobody), extra_nil _⟩
        simp only [Depot.addresses, first, train, map_cons, cons_append]
  · rw [hout] at hflushes
    have hput : Effect t ((t.withDepot d).putTrain train.buffer) [] := by
      refine effect_putTrain h ?_
      cases hflushes with
      | train somebody first train dispatched =>
          simp only at train dispatched
          left
          simp only [Depot.addresses, train, dispatched, Train.new]
          have hswap : ([t.depot.train.buffer] ++ t.depot.dispatched.map Train.buffer).Perm
              (t.depot.dispatched.map Train.buffer ++ [t.depot.train.buffer]) :=
            perm_append_comm
          exact hswap.append_right [t.store.fresh]
      | dispatched s somebody first train =>
          simp only at first train
          right
          simp only [Depot.addresses, first, train, map_cons, cons_append]
    obtain ⟨new, hsend, hnew⟩ := effect_sendUnlessSending cfg hput.separate ho
    exact ⟨_, hput.trans hsend, hnew⟩

/-- The front of the queue has been sent. Source: `send_cbk` -/
theorem effect_complete (h : t.Separate) {now : ℕ} (hcomplete : t.complete now = .ok t') :
    Effect t t' [] ∧ t'.inFlight = false := by
  unfold complete at hcomplete
  rcases hqueue : t.queue with _ | ⟨⟨front, separationTime⟩, rest⟩
  · simp [hqueue] at hcomplete
  · simp only [hqueue] at hcomplete
    obtain rfl := Except.ok.inj hcomplete
    have hqueued : t.queued = front :: rest.map Prod.fst := by rw [queued, hqueue, map_cons]
    have hqueueLoad : t.queueLoad = t.store.content front ++ t.store.gather (rest.map Prod.fst) := by
      rw [queueLoad, hqueued, gather_cons]
    have hsublist : (rest.map Prod.fst ++ t.depot.addresses).Sublist
        (t.queued ++ t.depot.addresses) := by
      rw [hqueued]
      exact (sublist_cons_self _ _).append_right _
    refine ⟨.of_loads ⟨h.nodup.sublist hsublist, fun p hp => h.lt_fresh p (hsublist.subset hp), nofun⟩
      rfl (.refl _) ?_ (prefix_append _ _) (append_nil _).symm fun hsize => ?_, rfl⟩
    · rw [append_nil, held, hqueueLoad]
      simp only [append_assoc]
      exact .refl _
    · have hweight : t.queueSize = t.size front + weight (t.store.gather (rest.map Prod.fst)) := by
        rw [hsize, hqueueLoad, weight_append]
        rfl
      simp only [hweight, Nat.le_add_right, if_true, Nat.add_sub_cancel_left]
      rfl

/-- The next one is sent. Source: `send_cbk` -/
theorem effect_proceed (cfg : Config) (h : t.Separate) (ho : o ≠ .dropped)
    (hflight : t.inFlight = false) :
    ∃ new, Effect t (t.proceed cfg o).2 new ∧ Extra new (cookieSize o) := by
  unfold proceed
  split_ifs
  · exact effect_sendQueued cfg h ho
  · have hflying : ({ t with isSending := false } : Target).inFlight → False := by simp [hflight]
    have hrefl := Effect.refl h
    exact ⟨[], ⟨⟨h.nodup, h.lt_fresh, fun hf => (hflying hf).elim⟩, hrefl.messages, hrefl.weight,
      hrefl.sent, hrefl.accepted, hrefl.queueSize⟩, extra_nil _⟩

/-! ### Steps -/

/-- `queue_size_` is calculated anew. -/
theorem effect_checkQueueLimit (cfg : Config) (h : t.Separate) (size : ℕ) :
    Effect t (t.checkQueueLimit cfg size).2 [] := by
  have hrefl := Effect.refl h
  have hanew : Effect t { t with queueSize := t.queuedBytes } [] :=
    ⟨⟨h.nodup, h.lt_fresh, h.flying⟩, hrefl.messages, hrefl.weight, hrefl.sent, hrefl.accepted,
      fun _ => queuedBytes_eq t⟩
  unfold checkQueueLimit
  split_ifs
  · exact hrefl
  · exact hanew
  · exact hrefl

/-- A step that does not drop the queue and does not queue the buffer of the current train for a
service that is stopped. -/
def Undisturbed (t : Target) : Input → Prop
  | .sendIntern _ _ _ o | .flushCbk _ o | .sendCbk _ o => o ≠ .dropped
  | .prepareStop service _ => ¬ t.Boarded service

instance (t : Target) : (i : Input) → Decidable (t.Undisturbed i)
  | .sendIntern _ _ _ o | .flushCbk _ o | .sendCbk _ o =>
      inferInstanceAs (Decidable (o ≠ .dropped))
  | .prepareStop service _ => inferInstanceAs (Decidable (¬ t.Boarded service))

/-- The message that an input brings to the trains, by the answer of `send_intern`. -/
def taken (cfg : Config) (i : Input) (answer : Bool) : List (ℕ × Message) :=
  match i with
  | .sendIntern _ number m _ =>
      if cfg.checkMessageSize m.data.length ∧ answer then [(number, m)] else []
  | _ => []

/-- The bytes of the segments that a message is split into. -/
def segmentBytes (cfg : Config) (m : Message) : ℕ :=
  match cfg.segmentation m.identifier with
  | none => 0
  | some (maxSegmentLength, _) =>
      ((tpSplitMessage m.data maxSegmentLength).map fun segments =>
        (segments.map List.length).sum).getD 0

/-- The most that an input brings. -/
def demand (cfg : Config) (t : Target) (i : Input) : ℕ :=
  match i with
  | .sendIntern _ _ m o =>
      if ¬ cfg.checkMessageSize m.data.length then segmentBytes cfg m + cookieSize o
      else if (t.checkQueueLimit cfg m.data.length).1 then m.data.length else 0
  | .flushCbk _ o | .sendCbk _ o => cookieSize o
  | .prepareStop _ _ => 0

/-- A message that is too long comes in as segments. Source: `segment_message` -/
theorem effect_segmentMessage (h : t.Separate) (ho : o ≠ .dropped) {now number : ℕ} {m : Message}
    {out : Bool × Option (List ℕ) × Target}
    (hsegment : t.segmentMessage cfg now number m o = .ok out) :
    ∃ new, Effect t out.2.2 new ∧ Extra new (segmentBytes cfg m + cookieSize o) := by
  unfold segmentMessage at hsegment
  rcases hcfg : cfg.segmentation m.identifier with _ | ⟨maxSegmentLength, separationTime⟩
  · simp only [hcfg] at hsegment
    obtain rfl := Except.ok.inj hsegment
    exact ⟨[], .refl h, extra_nil _⟩
  · simp only [hcfg] at hsegment
    rcases hsplit : tpSplitMessage m.data maxSegmentLength with _ | segments
    · simp [hsplit] at hsegment
    · simp only [hsplit] at hsegment
      obtain rfl := Except.ok.inj hsegment
      have hbytes : segmentBytes cfg m = (segments.map List.length).sum := by
        simp only [segmentBytes, hcfg, hsplit, Option.map_some, Option.getD_some]
      rw [hbytes]
      exact effect_sendSegments cfg h ho now number segments separationTime

/-- A message comes in if it is accepted. Source: `send_intern` -/
theorem effect_sendTrain (cfg : Config) (h : t.Separate) (now number : ℕ) (m : Message) :
    ∃ new, Effect t (t.sendTrain cfg now number m).2 new ∧
      messages new = (if (t.sendTrain cfg now number m).1 then [(number, m)] else []) ∧
        weight new ≤ if (t.checkQueueLimit cfg m.data.length).1 then m.data.length else 0 := by
  have hlimit := effect_checkQueueLimit cfg h m.data.length
  unfold sendTrain
  rcases hcheck : t.checkQueueLimit cfg m.data.length with ⟨fits, t₁⟩
  rw [hcheck] at hlimit
  rcases fits with _ | _
  · exact ⟨[], hlimit, rfl, Nat.zero_le _⟩
  · exact ⟨_, hlimit.trans (effect_board cfg hlimit.separate now number m), rfl, (weight_cons _ _).le⟩

/-- **What an undisturbed step does.** -/
theorem step_effect {i : Input} {answer : Bool} (h : t.Separate) (hi : t.Undisturbed i)
    (hstep : step cfg t i = .ok (answer, t')) :
    ∃ new, Effect t t' new ∧ messages new = taken cfg i answer ∧ weight new ≤ demand cfg t i := by
  rcases i with ⟨now, number, m, o⟩ | ⟨now, o⟩ | ⟨now, o⟩ | ⟨service, o⟩
  · by_cases hsize : cfg.checkMessageSize m.data.length = true
    · simp only [step, hsize, not_true_eq_false, if_false] at hstep
      obtain ⟨new, heffect, hmessages, hweight⟩ := effect_sendTrain cfg h now number m
      rw [Except.ok.inj hstep] at heffect hmessages
      refine ⟨new, heffect, ?_, ?_⟩
      · simpa [taken, hsize] using hmessages
      · simpa [demand, hsize] using hweight
    · rw [step, if_pos hsize] at hstep
      rcases hsegment : t.segmentMessage cfg now number m o with e | out
      · simp [hsegment, Except.map] at hstep
      · rw [hsegment] at hstep
        obtain ⟨rfl, rfl⟩ := Prod.mk.inj (Except.ok.inj hstep)
        obtain ⟨new, heffect, hextra⟩ := effect_segmentMessage h hi hsegment
        refine ⟨new, heffect, ?_, ?_⟩
        · simpa [taken, hsize] using hextra.messages
        · simpa [demand, hsize] using hextra.weight
  · obtain ⟨-, rfl⟩ := Prod.mk.inj (Except.ok.inj hstep)
    have htimer := effect_depot h (d := { t.depot with dispatchTimer := none }) rfl
    obtain ⟨new, hflush, hextra⟩ := effect_flush cfg htimer.separate hi now
    exact ⟨_, htimer.trans hflush, hextra.messages, hextra.weight⟩
  · by_cases hflight : t.inFlight = true
    · simp only [step, hflight, if_true] at hstep
      rcases hcomplete : t.complete now with e | t₁
      · simp [hcomplete, Except.map] at hstep
      · rw [hcomplete] at hstep
        obtain ⟨-, rfl⟩ := Prod.mk.inj (Except.ok.inj hstep)
        obtain ⟨hdone, hlanded⟩ := effect_complete h hcomplete
        obtain ⟨new, hproceed, hextra⟩ := effect_proceed cfg hdone.separate hi hlanded
        exact ⟨_, hdone.trans hproceed, hextra.messages, hextra.weight⟩
    · simp only [step, hflight] at hstep
      obtain ⟨-, rfl⟩ := Prod.mk.inj (Except.ok.inj hstep)
      exact ⟨[], .refl h, rfl, Nat.zero_le _⟩
  · obtain ⟨-, rfl⟩ := Prod.mk.inj (Except.ok.inj hstep)
    rw [prepareStop, if_neg hi]
    exact ⟨[], .refl h, rfl, Nat.zero_le _⟩

/-- A callback finds the buffer that it is for in the queue. -/
theorem step_ne_emptyQueue (cfg : Config) (h : t.Separate) (i : Input) :
    step cfg t i ≠ .error .emptyQueue := by
  rcases i with ⟨now, number, m, o⟩ | ⟨now, o⟩ | ⟨now, o⟩ | ⟨service, o⟩
  · by_cases hsize : ¬ cfg.checkMessageSize m.data.length
    · rw [step, if_pos hsize, segmentMessage]
      rcases cfg.segmentation m.identifier with _ | ⟨maxSegmentLength, separationTime⟩
      · simp [Except.map]
      · dsimp only
        rcases tpSplitMessage m.data maxSegmentLength with _ | segments <;> simp [Except.map]
    · rw [step, if_neg hsize]
      nofun
  · nofun
  · by_cases hflight : t.inFlight = true
    · rw [step, if_pos hflight, complete]
      rcases hqueue : t.queue with _ | ⟨entry, rest⟩
      · exact absurd hqueue (h.flying hflight).2
      · simp [Except.map]
    · rw [step, if_neg hflight]
      nofun
  · nofun

end Target

end SomeipTunnel.Endpoint
