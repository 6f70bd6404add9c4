import SomeipTunnel.Tunnel.Bounds

/-!
# What the gateway thread survives

The gateway thread handles whatever samples the other process publishes. A sample whose type is no
enumerator has no effect, but one that answers under an identifier that is not in the table makes
`unordered_map::at` throw, and nothing on the way out of the thread catches the exception.
`State.Survives` is what the thread should do with both: every call returns, and without those
samples the other calls have the same effects.

* `State.step_isOk_iff`: the calls that return.
* `State.fromGateway_eq_run`: the receive loop is a run of the samples in front of the first failure.
* `gateway_survives_iff`: the runs that the bridge survives.
-/

namespace SomeipTunnel.Tunnel

open StepRun

/-! ### Unknown samples -/

/-- The sample has a type that is no enumerator, or it answers under an unknown identifier. -/
def State.Unknown (t : State) : Event → Prop
  | .incommingMsg sample => TunnelMsgType.ofRaw sample.header.type = none ∨
      (sample.Answers ∧ sample.header.id ∉ t.mMessagesInProgress)
  | _ => False

instance (t : State) : (e : Event) → Decidable (t.Unknown e)
  | .incommingMsg _ => inferInstanceAs (Decidable (_ ∨ _))
  | .fromSomeip _ _ => inferInstanceAs (Decidable False)
  | .serviceStateChanged _ _ _ _ => inferInstanceAs (Decidable False)

/-- The calls of a run without those with an unknown sample. -/
def wanted (asserts : Bool) (t : State) (events : List Event) : List Bool :=
  mask (State.step asserts) (fun t e => !decide (t.Unknown e)) t events

/-- **The bridge survives a run**: every call returns, and the run without the unknown samples has
the same effects, call by call, and ends in the same state. -/
def State.Survives (asserts : Bool) (t : State) (events : List Event) : Prop :=
  ∃ effects t', run (State.step asserts) t events = .ok (effects, t') ∧
    run (State.step asserts) t (select (wanted asserts t events) events) =
      .ok (select (wanted asserts t events) effects, t')

/-- **The calls that return.** A message is forwarded if the publisher works and the payload fits; a
sample is handled if its lengths stay inside of the arrays and, if it answers, its identifier is in
the table.
Source: `iceoryx2_bridge.cpp`, the `expect` and `at` calls and the array accesses -/
def State.Survivable (t : State) : Event → Prop
  | .fromSomeip msg p => p.loan = true ∧ p.sent = true ∧ msg.payload.length ≤ 1500
  | .serviceStateChanged _ _ _ p => p.loan = true ∧ p.sent = true
  | .incommingMsg sample =>
      sample.InBounds ∧ (sample.Answers → sample.header.id ∈ t.mMessagesInProgress)

/-! ### One call -/

section calls

variable {t t' : State} {effect : Effect}

theorem State.handle_isOk_iff (t : State) (sample : Sample) :
    (∃ calls, t.handle sample = .ok calls) ↔
      (sample.Answers → sample.header.id ∈ t.mMessagesInProgress) := by
  by_cases h : sample.Answers
  · rw [t.handle_of_answers h, ← AList.lookup_isSome]
    rcases t.mMessagesInProgress.lookup sample.header.id with _ | request <;> simp [h]
  · obtain ⟨calls, hcalls, -⟩ := State.handle_of_not_answers h
    simp [hcalls t, h]

/-- **The step lemma**: a call returns iff it is survivable. -/
theorem State.step_isOk_iff (asserts : Bool) (t : State) (e : Event) :
    (∃ effect t', t.step asserts e = .ok (effect, t')) ↔ t.Survivable e := by
  have hmap : ∀ {α : Type} (x : Except Fault α) (f : α → Effect × State),
      (∃ effect t', x.map f = .ok (effect, t')) ↔ ∃ a, x = .ok a := by
    intro α x f
    rcases x with e | a
    · simp [Except.map]
    · exact ⟨fun _ => ⟨a, rfl⟩, fun _ => ⟨(f a).1, (f a).2, rfl⟩⟩
  rcases e with ⟨msg, p⟩ | ⟨s, i, active, p⟩ | sample
  · simp only [State.step, hmap, State.fromSomeip_eq, State.Survivable]
    split_ifs with h₁ h₂ h₃ h₄
    · simp [h₁]
    · simp only [exists_false, false_iff]
      omega
    · simp only [exists_false, false_iff]
      omega
    · simp [h₁, h₄, Nat.le_of_not_lt h₃]
    · simp [h₄]
  · simp only [State.step, hmap, serviceStateChanged, State.Survivable]
    rcases p with ⟨loan, sent, drawn⟩
    cases loan <;> cases sent <;> simp
  · simp only [State.step, hmap, State.incommingMsg_eq, State.Survivable]
    split_ifs with h
    · simp [h, State.handle_isOk_iff]
    · simp [h]

/-- An unknown sample leaves the state alone. -/
theorem State.Unknown.state_eq {asserts : Bool} {e : Event} (h : t.Unknown e)
    (hs : t.step asserts e = .ok (effect, t')) : t' = t := by
  rcases e with ⟨msg, p⟩ | ⟨s, i, active, p⟩ | sample
  · exact h.elim
  · exact h.elim
  · rw [State.step] at hs
    rcases hmsg : t.incommingMsg sample with f | calls
    · rw [hmsg] at hs
      cases hs
    · rw [hmsg] at hs
      cases hs
      rfl

end calls

/-! ### The receive loop -/

/-- The samples in front of the first result that is none. -/
def receivedSamples : List Received → List Sample
  | .sample s :: rest => s :: receivedSamples rest
  | _ => []

/-- **`fromGateway` is a run** of the samples that it receives. -/
theorem State.fromGateway_eq_run (asserts : Bool) (t : State) (received : List Received) :
    (t.fromGateway received).map (fun calls => (calls.map Effect.called, t)) =
      run (State.step asserts) t ((receivedSamples received).map .incommingMsg) := by
  induction received with
  | nil => rfl
  | cons r received ih =>
      rcases r with _ | _ | sample
      · rfl
      · rfl
      · simp only [State.fromGateway, receivedSamples, List.map_cons]
        rcases hmsg : t.incommingMsg sample with f | calls
        · have hs : t.step asserts (.incommingMsg sample) = .error f := by
            rw [State.step, hmsg, Except.map]
          rw [run_cons_of_error hs]
          rfl
        · have hs : t.step asserts (.incommingMsg sample) = .ok (.called calls, t) := by
            rw [State.step, hmsg, Except.map]
          rw [run_cons_of_ok hs, ← ih]
          rcases t.fromGateway received with f | later <;> rfl

/-! ### Runs -/

/-- **The runs that the bridge survives**: from every state and for every interleaving of calls, all
calls return and the unknown samples change nothing for the others, if and only if every call is
`Survivable` at the state before it. In particular `fromGateway` returns iff all samples are that it
receives.
Source: `iceoryx2_bridge.cpp`, `fromGateway`, `incommingMsg` -/
theorem gateway_survives_iff (asserts : Bool) (t : State) : (∀ events, t.Survives asserts events ↔
      AllSteps (State.step asserts) State.Survivable t events) ∧
    (∀ received, (∃ calls, t.fromGateway received = .ok calls) ↔
      AllSteps (State.step asserts) State.Survivable t
        ((receivedSamples received).map .incommingMsg)) := by
  have hok : ∀ events, (∃ effects t', run (State.step asserts) t events = .ok (effects, t')) ↔
      AllSteps (State.step asserts) State.Survivable t events := by
    intro events
    rw [run_isOk_iff]
    simp only [State.step_isOk_iff]
  refine ⟨fun events => ?_, fun received => ?_⟩
  · rw [← hok]
    constructor
    · rintro ⟨effects, t', hrun, -⟩
      exact ⟨effects, t', hrun⟩
    · rintro ⟨effects, t', hrun⟩
      refine ⟨effects, t', hrun, run_select (fun t e effect t' hunknown hs => ?_) hrun⟩
      simp only [Bool.not_eq_false', decide_eq_true_eq] at hunknown
      exact hunknown.state_eq hs
  · rw [← hok, ← State.fromGateway_eq_run]
    rcases t.fromGateway received with f | calls
    · simp [Except.map]
    · simp [Except.map]

/-- A sample that notifies an event, handled alone and behind one with an unknown identifier: the
exception of the first one ends the thread, and the notification is lost. -/
theorem unknown_id_ends_thread : State.new.fromGateway [.sample (sampleWith .event 0 [] [5])] =
      .ok [[.notify 0x1234 1 0 [5]]] ∧ State.new.fromGateway [.sample (sampleWith .message 9 [] []),
      .sample (sampleWith .event 0 [] [5])] = .error .outOfRange ∧
    ¬ State.new.Survives false [.incommingMsg (sampleWith .message 9 [] []),
      .incommingMsg (sampleWith .event 0 [] [5])] := by
  have hunknown : State.new.incommingMsg (sampleWith .message 9 [] []) = .error .outOfRange := by
    rw [State.incommingMsg_eq]
    decide +kernel
  have hevent : State.new.incommingMsg (sampleWith .event 0 [] [5]) =
      .ok [.notify 0x1234 1 0 [5]] := by
    rw [State.incommingMsg_eq]
    decide +kernel
  refine ⟨?_, ?_, ?_⟩
  · rw [State.fromGateway, hevent]
    rfl
  · rw [State.fromGateway, hunknown]
    rfl
  · rintro ⟨effects, t', hrun, -⟩
    obtain ⟨effect, t₁, -, hs, -, -⟩ := run_cons_eq_ok.mp hrun
    rw [State.step, hunknown] at hs
    cases hs

end SomeipTunnel.Tunnel
