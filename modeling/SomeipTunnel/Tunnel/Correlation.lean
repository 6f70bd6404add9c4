import SomeipTunnel.Tunnel.Bounds

/-!
# Requests and their responses

What the bridge is for, seen from a SOME/IP client: a request that is forwarded under an identifier
is pending until a `MESSAGE` sample with that identifier arrives, and then it is answered, once. The
`Ledger` keeps this list of pending requests beside the state of the bridge; `Ledger.Correlates` says
that a call sends the responses that are due and that `mMessagesInProgress` is the list of pending
requests.

The bridge never erases an entry, so the two agree only as long as no request is answered at all
(`State.NeverAnswers`).

* `Ledger.Exact.emplace_iff`: when forwarding a message keeps table and ledger equal.
* `correlation_iff`: the runs in which every call correlates.
* `first_forwarded_kept`: what identifiers stand for in all runs, and to whom is answered.
-/

namespace SomeipTunnel.Tunnel

open OrderedSet StepRun List

/-! ### The ledger -/

/-- The message is a request whose sender waits for a response. -/
def Message.ExpectsResponse (msg : Message) : Prop := msg.messageType = mtRequest

instance (msg : Message) : Decidable msg.ExpectsResponse := inferInstanceAs (Decidable (_ = _))

/-- The bridge and the requests that were forwarded and not yet answered, with their identifiers.
Source: none: the pending requests are what `mMessagesInProgress` is meant to hold -/
structure Ledger where
  bridge : State
  pending : List ((_ : UInt64) × Message)

def Ledger.start : Ledger := ⟨State.new, []⟩

/-- The pending request that a sample answers. -/
def Ledger.due (l : Ledger) (sample : Sample) : Option ((_ : UInt64) × Message) :=
  if TunnelMsgType.ofRaw sample.header.type = some .message then
    l.pending.find? fun e => e.1 = sample.header.id
  else none

/-- The responses that a call has to send. -/
def Ledger.owed (l : Ledger) : Event → List AppCall
  | .incommingMsg sample =>
      ((l.due sample).map fun e => .send (responseTo e.2 sample.payload.bytes)).toList
  | _ => []

/-- The pending requests behind a call. -/
def Ledger.pendingAfter (l : Ledger) : Event → List ((_ : UInt64) × Message)
  | .fromSomeip msg p =>
      if msg.ExpectsResponse then l.pending ++ [⟨p.drawn, msg⟩] else l.pending
  | .serviceStateChanged _ _ _ _ => l.pending
  | .incommingMsg sample =>
      match l.due sample with
      | some e => l.pending.erase e
      | none => l.pending

/-- A call of the bridge, with the pending requests kept. -/
def Ledger.step (asserts : Bool) (l : Ledger) (e : Event) : Except Fault (Effect × Ledger) :=
  (l.bridge.step asserts e).map fun out => (out.1, ⟨out.2, l.pendingAfter e⟩)

/-- The responses among the calls of the application. -/
def Effect.responses : Effect → List AppCall
  | .published _ => []
  | .called calls => calls.filter fun
      | .send _ => true
      | _ => false

/-- **The table holds exactly the pending requests.** -/
def Ledger.Exact (l : Ledger) : Prop := l.bridge.mMessagesInProgress.entries.Perm l.pending

/-- **A call correlates**: it sends the responses that are due, and the table holds the pending
requests afterwards. A call that ends the process or the thread has sent nothing. -/
def Ledger.Correlates (asserts : Bool) (l : Ledger) (e : Event) : Prop :=
  match l.step asserts e with
  | .ok (effect, l') => effect.responses = l.owed e ∧ l'.Exact
  | .error .outOfBounds => False
  | .error _ => l.owed e = []

/-- **The calls that correlate.** A message that is published is stored under its identifier iff it
expects a response and the identifier is new; a sample that answers finds no entry, because the
entry would stay.
Source: `iceoryx2_bridge.cpp`, lines 106, 116 and 200–203 -/
def State.NeverAnswers (asserts : Bool) (t : State) : Event → Prop
  | .fromSomeip msg p =>
      p.loan = true → ¬ (asserts = true ∧ 15000 ≤ msg.payload.length) →
        msg.payload.length ≤ 1500 ∧
          (p.sent = true → (msg.ExpectsResponse ↔ p.drawn ∉ t.mMessagesInProgress))
  | .serviceStateChanged _ _ _ _ => True
  | .incommingMsg sample =>
      sample.InBounds ∧ (sample.Answers → sample.header.id ∉ t.mMessagesInProgress)

/-! ### One call -/

section calls

variable {l : Ledger} {sample : Sample}

namespace Ledger

/-- **Forwarding keeps the table exact** iff it stores the message exactly when it expects a
response. -/
theorem Exact.emplace_iff (h : l.Exact) (id : UInt64) (msg : Message) :
    Exact ⟨l.bridge.emplace id msg,
      if msg.ExpectsResponse then l.pending ++ [⟨id, msg⟩] else l.pending⟩ ↔
      (msg.ExpectsResponse ↔ id ∉ l.bridge.mMessagesInProgress) := by
  have hlen := List.Perm.length_eq h
  unfold Exact State.emplace at *
  by_cases hexp : msg.ExpectsResponse <;> by_cases hmem : id ∈ l.bridge.mMessagesInProgress
  · -- the entry that is there stays, and the new request is lost
    simp only [hexp, hmem, if_true, not_true, iff_false]
    intro hperm
    have := hperm.length_eq
    simp only [length_append, length_singleton] at this
    omega
  · simp only [hexp, hmem, if_true, if_false, not_false_iff, iff_true]
    rw [AList.entries_insert_of_notMem hmem]
    exact (h.cons _).trans (perm_append_singleton _ _).symm
  · simpa only [hexp, hmem, if_true, if_false, not_true, iff_true] using h
  · -- a message without a response is stored
    simp only [hexp, hmem, if_false, not_false_iff, iff_true, iff_false]
    intro hperm
    have := hperm.length_eq
    rw [AList.entries_insert_of_notMem hmem, length_cons] at this
    omega

/-- What is due is pending under the identifier of the sample. -/
theorem mem_of_due {e : (_ : UInt64) × Message} (h : l.due sample = some e) :
    e ∈ l.pending ∧ e.1 = sample.header.id := by
  unfold due at h
  split_ifs at h
  exact ⟨mem_of_find?_eq_some h, by simpa using List.find?_some h⟩

/-- Nothing is due if the table, which is exact, has no entry. -/
theorem Exact.due_eq_none (h : l.Exact)
    (hid : sample.header.id ∉ l.bridge.mMessagesInProgress) : l.due sample = none := by
  rcases hdue : l.due sample with _ | e
  · rfl
  · obtain ⟨hmem, hkey⟩ := mem_of_due hdue
    refine absurd ?_ hid
    rw [← hkey, AList.mem_keys]
    exact mem_map_of_mem (h.mem_iff.mpr hmem)

/-- **A call of `fromSomeip` correlates iff it meets the condition.** -/
theorem Exact.correlates_fromSomeip_iff (h : l.Exact) (asserts : Bool) (msg : Message)
    (p : Publishing) : l.Correlates asserts (.fromSomeip msg p) ↔
      l.bridge.NeverAnswers asserts (.fromSomeip msg p) := by
  unfold Correlates
  simp only [step, State.step, State.fromSomeip_eq, State.NeverAnswers, owed]
  by_cases hloan : p.loan = false
  · simp [hloan, Except.map]
  · by_cases hassert : asserts = true ∧ 15000 ≤ msg.payload.length
    · simp [hassert, hloan, Except.map]
    · by_cases hlong : 1500 < msg.payload.length
      · simp only [hloan, hassert, hlong, if_true, if_false, Except.map]
        simp [Nat.not_le.mpr hlong]
      · have hle := Nat.le_of_not_lt hlong
        by_cases hsent : p.sent = true
        · simp only [hloan, hassert, hlong, hsent, if_true, if_false, Except.map,
            pendingAfter]
          simpa [Effect.responses, hle] using h.emplace_iff p.drawn msg
        · simp [hloan, hassert, hlong, hsent, Except.map, hle]

/-- A sample that finds an entry does not correlate: a response is sent and the entry stays. -/
theorem Exact.not_correlates_of_mem (h : l.Exact) (asserts : Bool) (hin : sample.InBounds)
    (hans : sample.Answers) (hid : sample.header.id ∈ l.bridge.mMessagesInProgress) :
    ¬ l.Correlates asserts (.incommingMsg sample) := by
  obtain ⟨request, hreq⟩ := Option.isSome_iff_exists.mp (AList.lookup_isSome.mpr hid)
  unfold Correlates
  simp only [step, State.step, State.incommingMsg_eq, if_pos hin,
    State.handle_of_answers _ hans, hreq, Except.map, owed, pendingAfter]
  rintro ⟨hresp, hexact⟩
  rcases hdue : l.due sample with _ | e
  · -- an acknowledgement, or a second answer
    simp [hdue, Effect.responses] at hresp
  · -- the answered request is not pending any more
    simp only [hdue] at hexact
    have hpos := length_pos_of_mem (mem_of_due hdue).1
    have hbefore := List.Perm.length_eq h
    have hafter := List.Perm.length_eq hexact
    simp only [length_erase_of_mem (mem_of_due hdue).1] at hafter
    omega

/-- **A sample correlates iff it meets the condition.** -/
theorem Exact.correlates_incommingMsg_iff (h : l.Exact) (asserts : Bool) (sample : Sample) :
    l.Correlates asserts (.incommingMsg sample) ↔
      l.bridge.NeverAnswers asserts (.incommingMsg sample) := by
  simp only [State.NeverAnswers]
  by_cases hin : sample.InBounds
  · by_cases hans : sample.Answers
    · by_cases hid : sample.header.id ∈ l.bridge.mMessagesInProgress
      · simp only [h.not_correlates_of_mem asserts hin hans hid, hin, hans, hid, not_true,
          imp_false, and_false]
      · unfold Correlates
        simp only [step, State.step, State.incommingMsg_eq, if_pos hin,
          State.handle_of_answers _ hans, AList.lookup_eq_none.mpr hid, Except.map, owed,
          h.due_eq_none hid]
        simp [hin, hid]
    · obtain ⟨calls, hcalls, hsend⟩ := State.handle_of_not_answers hans
      have hdue : l.due sample = none := by
        rw [due, if_neg]
        intro hmsg
        exact hans (by simp [Sample.Answers, hmsg])
      unfold Correlates
      simp only [step, State.step, State.incommingMsg_eq, if_pos hin, hcalls, Except.map,
        owed, pendingAfter, hdue, Effect.responses]
      simp only [hin, hans, false_imp_iff, and_true, iff_true]
      refine ⟨?_, h⟩
      simp only [Option.map_none, Option.toList_none, filter_eq_nil_iff]
      intro call hcall
      cases call
      case send m => exact absurd hcall (hsend m)
      all_goals simp
  · unfold Correlates
    simp [step, State.step, State.incommingMsg_eq, hin, Except.map]

/-- **The step lemma**: where the table is exact, a call correlates iff it meets the condition. -/
theorem Exact.correlates_iff (h : l.Exact) (asserts : Bool) (e : Event) :
    l.Correlates asserts e ↔ l.bridge.NeverAnswers asserts e := by
  rcases e with ⟨msg, p⟩ | ⟨s, i, active, p⟩ | sample
  · exact h.correlates_fromSomeip_iff asserts msg p
  · unfold Correlates
    simp only [State.NeverAnswers, iff_true, step, State.step, serviceStateChanged]
    by_cases hloan : p.loan = true <;> by_cases hsent : p.sent = true
    · simpa [hloan, hsent, Except.map, Effect.responses, owed, pendingAfter] using h
    all_goals simp [hloan, hsent, Except.map, owed]
  · exact h.correlates_incommingMsg_iff asserts sample

end Ledger

end calls

/-! ### Runs -/

/-- **The runs in which requests and responses correlate**: for every interleaving of calls, with
any identifiers drawn and any messages and samples, every call sends exactly the responses that are
due and leaves `mMessagesInProgress` with exactly the pending requests, if and only if every call
meets `State.NeverAnswers` at the state before it.
Source: `iceoryx2_bridge.cpp`, `fromSomeip`, `incommingMsg` -/
theorem correlation_iff (asserts : Bool) (events : List Event) :
    AllSteps (Ledger.step asserts) (Ledger.Correlates asserts) Ledger.start events ↔
      AllSteps (State.step asserts) (State.NeverAnswers asserts) State.new events := by
  have hbridge : ∀ l e, State.step asserts (Ledger.bridge l) e =
      (Ledger.step asserts l e).map fun out => (out.1, out.2.bridge) := by
    intro l e
    simp only [Ledger.step]
    rcases l.bridge.step asserts e with f | ⟨effect, t⟩ <;> rfl
  refine Iff.trans ?_ (allSteps_comp (s := Ledger.start) Ledger.bridge hbridge)
  refine AllSteps.iff_of_invariant Ledger.Exact (fun l e effect l' h hC hs => ?_)
    (fun l e h => h.correlates_iff asserts e) (List.Perm.refl _)
  have hcorr := (h.correlates_iff asserts e).mpr hC
  rw [Ledger.Correlates, hs] at hcorr
  exact hcorr.2

/-- A request is forwarded under the identifier 9, and two samples with that identifier arrive. -/
def answeredTwice : List Event :=
  [.fromSomeip (requestWith 7 [1, 2]) ⟨true, true, 9⟩,
    .incommingMsg (sampleWith .message 9 [] [3]), .incommingMsg (sampleWith .message 9 [] [4])]

/-- Both samples lead to a response to the same request, and the table still holds it. -/
theorem request_answered_twice : (∃ t, run (State.step false) State.new answeredTwice =
        .ok ([.published (forwardedSample (requestWith 7 [1, 2]) 9),
          .called [.send (responseTo (requestWith 7 [1, 2]) [3])],
          .called [.send (responseTo (requestWith 7 [1, 2]) [4])]], t) ∧
      t.mMessagesInProgress.lookup 9 = some (requestWith 7 [1, 2])) ∧
    ¬ AllSteps (Ledger.step false) (Ledger.Correlates false) Ledger.start answeredTwice := by
  have hforward : State.step false State.new (.fromSomeip (requestWith 7 [1, 2]) ⟨true, true, 9⟩) =
      .ok (.published (forwardedSample (requestWith 7 [1, 2]) 9),
        ⟨AList.singleton 9 (requestWith 7 [1, 2])⟩) := by
    rw [State.step, State.fromSomeip_eq]
    rfl
  have hcalls : ∀ byte ∈ [3, 4], State.incommingMsg ⟨AList.singleton 9 (requestWith 7 [1, 2])⟩
      (sampleWith .message 9 [] [byte]) =
      .ok [.send (responseTo (requestWith 7 [1, 2]) [byte])] := by
    decide +kernel
  have hanswer : ∀ byte ∈ [3, 4], State.step false ⟨AList.singleton 9 (requestWith 7 [1, 2])⟩
      (.incommingMsg (sampleWith .message 9 [] [byte])) =
      .ok (.called [.send (responseTo (requestWith 7 [1, 2]) [byte])],
        ⟨AList.singleton 9 (requestWith 7 [1, 2])⟩) := by
    intro byte hbyte
    rw [State.step, hcalls byte hbyte, Except.map]
  refine ⟨⟨⟨AList.singleton 9 (requestWith 7 [1, 2])⟩, ?_, rfl⟩, fun h => ?_⟩
  · exact run_cons_eq_ok.mpr ⟨_, _, _, hforward, run_cons_eq_ok.mpr ⟨_, _, _, hanswer 3 (by simp),
      run_cons_eq_ok.mpr ⟨_, _, _, hanswer 4 (by simp), run_nil, rfl⟩, rfl⟩, rfl⟩
  · have hstep : Ledger.step false Ledger.start
        (.fromSomeip (requestWith 7 [1, 2]) ⟨true, true, 9⟩) =
        .ok (.published (forwardedSample (requestWith 7 [1, 2]) 9),
          ⟨⟨AList.singleton 9 (requestWith 7 [1, 2])⟩, [⟨9, requestWith 7 [1, 2]⟩]⟩) := by
      rw [Ledger.step, Ledger.start, hforward]
      rfl
    have hcorr := (h.2 _ _ hstep).1
    rw [Ledger.Correlates, Ledger.step, hanswer 3 (by simp)] at hcorr
    exact absurd hcorr.2.length_eq (by decide)

/-! ### Runs of any calls -/

/-- The message that a call forwards under an identifier. -/
def Event.forwarded (id : UInt64) : Event → Option Message
  | .fromSomeip msg p => if id = p.drawn then some msg else none
  | _ => none

variable {effect : Effect} {t t' : State} {e : Event} {asserts : Bool}

/-- A call keeps every entry, and stores what it forwards where there is none. -/
theorem State.lookup_step (h : t.step asserts e = .ok (effect, t')) (id : UInt64) :
    t'.mMessagesInProgress.lookup id = (t.mMessagesInProgress.lookup id).or (e.forwarded id) := by
  rcases e with ⟨msg, p⟩ | ⟨s, i, active, p⟩ | sample
  · rw [step, fromSomeip_eq] at h
    split_ifs at h <;> cases h
    have hmem := AList.lookup_isSome (a := p.drawn) (s := t.mMessagesInProgress)
    unfold emplace Event.forwarded
    by_cases hid : id = p.drawn
    · subst hid
      cases hm : t.mMessagesInProgress.lookup p.drawn <;> simp_all
    · split_ifs <;> simp [hid]
  all_goals
    -- nothing is forwarded, and the state stays
    simp only [step, Except.map] at h
    split at h <;> cases h
    exact (Option.or_none ..).symm

/-- The message that an identifier stands for: the entry of the table, or else the first that was
forwarded under it. -/
def State.firstUnder (t : State) (events : List Event) (id : UInt64) : Option Message :=
  (t.mMessagesInProgress.lookup id).or (events.findSome? (Event.forwarded id))

/-- The responses of a call, where each identifier stands for a message. -/
def Event.answers (requests : UInt64 → Option Message) : Event → List AppCall
  | .incommingMsg sample =>
      if sample.Answers then
        (requests sample.header.id).toList.map fun request =>
          .send (responseTo request sample.payload.bytes)
      else []
  | _ => []

/-- What identifiers stand for does not change with a call. -/
theorem State.firstUnder_step (h : t.step asserts e = .ok (effect, t')) (events : List Event) :
    t'.firstUnder events = t.firstUnder (e :: events) := by
  funext id
  rw [firstUnder, firstUnder, lookup_step h, List.findSome?_cons, Option.or_assoc]
  cases e.forwarded id <;> rfl

/-- A call answers from the table. -/
theorem State.responses_step
    (h : t.step asserts e = .ok (effect, t')) : effect.responses = e.answers (t.firstUnder []) := by
  rcases e with ⟨msg, p⟩ | ⟨s, i, active, p⟩ | sample <;> simp only [step, Except.map] at h
  case incommingMsg =>
    rw [incommingMsg_eq] at h
    split_ifs at h with hin
    rw [Event.answers, firstUnder, List.findSome?_nil, Option.or_none]
    by_cases hanswers : sample.Answers
    · rw [t.handle_of_answers hanswers] at h
      rw [if_pos hanswers]
      cases hlookup : t.mMessagesInProgress.lookup sample.header.id <;> rw [hlookup] at h <;>
        cases h
      rfl
    · obtain ⟨calls, hcalls, hsend⟩ := handle_of_not_answers hanswers
      rw [hcalls t] at h
      rw [if_neg hanswers]
      cases h
      refine filter_eq_nil_iff.mpr fun call hcall => ?_
      cases call <;> first | exact Bool.false_ne_true | exact absurd hcall (hsend _)
  -- what is published is not a response
  all_goals
    split at h <;> cases h
    rfl

/-- **An identifier stands for the first message that was forwarded under it**, in every run of any
calls: the entry is neither replaced nor lost, and an identifier that was not drawn has none. Every
response is one to the message that the identifier of the sample stands for when the sample comes,
and no other call sends a response. -/
theorem first_forwarded_kept (asserts : Bool) (t : State) (events : List Event) :
    match run (State.step asserts) t events with
    | .error _ => True
    | .ok (effects, t') =>
        (∀ id, t'.mMessagesInProgress.lookup id = t.firstUnder events id) ∧
        ∀ before e behind, events = before ++ e :: behind →
          effects[before.length]?.map Effect.responses = some (e.answers (t.firstUnder before)) := by
  split
  · trivial
  · rename_i effects t' hrun
    induction events generalizing t effects with
    | nil =>
        cases hrun
        exact ⟨fun id => (Option.or_none ..).symm, fun before e behind h => by simp at h⟩
    | cons e events ih =>
        obtain ⟨effect, s, effects', hstep, hrest, rfl⟩ := run_cons_eq_ok.mp hrun
        obtain ⟨hlookup, hanswers⟩ := ih s effects' hrest
        refine ⟨fun id => ?_, ?_⟩
        · rw [hlookup, State.firstUnder_step hstep]
        · rintro (- | ⟨e', before⟩) e'' behind heq
          · obtain ⟨rfl, -⟩ := List.cons.inj heq
            exact congrArg some (State.responses_step hstep)
          · obtain ⟨rfl, rfl⟩ := List.cons.inj heq
            rw [← State.firstUnder_step hstep]
            exact hanswers before e'' behind rfl

end SomeipTunnel.Tunnel
