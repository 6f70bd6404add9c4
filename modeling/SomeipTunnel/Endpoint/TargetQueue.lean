import SomeipTunnel.Endpoint.TargetFlow

/-!
# The messages and the bytes of a target

Two consequences of what the steps of a target do to its buffers (`step_effect`).

* `no_loss_no_duplication`: **every message that `send_intern` has accepted for a train is exactly
  once in what was sent, in the queue or in a train**, in every state of a run whose steps are
  `Undisturbed`. Behind a `prepare_stop` for a service in the current train it is there twice
  (`stopped_train_is_doubled`): the train is queued and stays the current one.
* `queue_size_exact`: **`queue_size_` is the sum of the sizes of the buffers in the queue, and within
  the limit**, if for all that comes in there is `Room` in the queue and the trains together. The
  limit is only checked against what is in the queue when a message enters a train, so that a train
  can exceed it later (`train_exceeds_limit`).
-/

namespace SomeipTunnel.Endpoint.Target

open StepRun

variable {cfg : Config} {t t' : Target} {i : Input} {answer : Bool}

/-! ### Messages -/

/-- Every message that was accepted is there exactly once. -/
def Balanced (t : Target) : Prop := t.accepted.Perm (messages t.held)

/-- The answer of `send_intern` says which message was accepted, and every message that was is there
exactly once behind the step. -/
def KeepsEach (cfg : Config) (t : Target) (i : Input) : Prop :=
  step cfg t i ≠ .error .emptyQueue ∧
    ∀ answer t', step cfg t i = .ok (answer, t') →
      t'.accepted = t.accepted ++ taken cfg i answer ∧ t'.Balanced

theorem Balanced.effect {new : List Piece} (h : t.Balanced) (heffect : Effect t t' new) :
    t'.Balanced := by
  unfold Balanced
  rw [heffect.accepted]
  exact (h.append_right _).trans heffect.messages.symm

/-- **No loss and no duplication**, unless the queue is dropped or the current train is queued for a
service that is stopped. -/
theorem no_loss_no_duplication (cfg : Config) (now : ℕ) (is : List Input)
    (h : AllSteps (step cfg) Undisturbed (create now) is) :
    AllSteps (step cfg) (KeepsEach cfg) (create now) is := by
  refine h.of_invariant (fun t => t.Separate ∧ t.Balanced) ?_ ?_
    ⟨separate_create now, List.Perm.refl _⟩
  · rintro t i answer t' ⟨hseparate, hbalanced⟩ hi hstep
    obtain ⟨new, heffect, -, -⟩ := step_effect hseparate hi hstep
    exact ⟨heffect.separate, hbalanced.effect heffect⟩
  · rintro t i ⟨hseparate, hbalanced⟩ hi
    refine ⟨step_ne_emptyQueue cfg hseparate i, fun answer t' hstep => ?_⟩
    obtain ⟨new, heffect, hnew, -⟩ := step_effect hseparate hi hstep
    exact ⟨hnew ▸ heffect.accepted, hbalanced.effect heffect⟩

/-- Two messages go through a train and the queue of a UDP endpoint, and the service is stopped behind
them. -/
theorem no_loss_no_duplication_oneTrain :
    let cfg : Config := ⟨1416, 0xFFFFFFFF, fun _ => ⟨0, 5, by decide, by decide⟩, fun _ => none, nofun⟩
    let m : Message := ⟨[0, 1, 0, 2], by decide, by decide⟩
    AllSteps (step cfg) (KeepsEach cfg) (create 0)
      [.sendIntern 1 0 m .skipped, .sendIntern 2 1 m .skipped, .flushCbk 6 (.started false),
        .sendCbk 7 (.started false), .flushCbk 8 (.started false), .sendCbk 9 (.started false),
        .prepareStop 1 .skipped] :=
  no_loss_no_duplication _ _ _ (by decide +kernel)

/-- `prepare_stop` for the service of a message in the current train: the message is in the queue and
in the train. -/
theorem stopped_train_is_doubled :
    let cfg : Config := ⟨1416, 0xFFFFFFFF, fun _ => ⟨0, 5, by decide, by decide⟩, fun _ => none, nofun⟩
    let m : Message := ⟨[0, 1, 0, 2] ++ List.replicate 12 0, by decide, by decide⟩
    let inputs := [.sendIntern 1 0 m .skipped, .prepareStop 1 (.started false)]
    ∃ outs t, run (step cfg) (create 0) inputs = .ok (outs, t) ∧ t.accepted = [(0, m)] ∧
      messages t.queueLoad = [(0, m)] ∧ messages t.trainLoad = [(0, m)] ∧ ¬ t.Balanced := by
  intro cfg m inputs
  have heval : ((run (step cfg) (create 0) inputs).toOption.map fun out =>
      (out.2.accepted, messages out.2.queueLoad, messages out.2.trainLoad, out.2.sent)) =
        some ([(0, m)], [(0, m)], [(0, m)], []) := by decide +kernel
  rcases hrun : run (step cfg) (create 0) inputs with e | ⟨outs, t⟩
  · rw [hrun] at heval
    cases heval
  · rw [hrun] at heval
    obtain ⟨haccepted, hrest⟩ := Prod.mk.inj (Option.some.inj heval)
    obtain ⟨hqueue, hrest⟩ := Prod.mk.inj hrest
    obtain ⟨htrain, hsent⟩ := Prod.mk.inj hrest
    refine ⟨outs, t, rfl, haccepted, hqueue, htrain, fun hbalanced => ?_⟩
    have hlength := hbalanced.length_eq
    rw [held, messages_append, messages_append, haccepted, hqueue, htrain, hsent] at hlength
    exact absurd hlength (by decide)

/-! ### Bytes -/

/-- `queue_size_` is the sum of the sizes of the buffers in the queue, and within a limit. -/
def Accounts (cfg : Config) (t : Target) : Prop :=
  t.queueSize = t.queuedBytes ∧ (cfg.queueLimit ≠ 0xFFFFFFFF → t.queueSize ≤ cfg.queueLimit)
deriving Decidable

/-- There is room for what the input brings, in the queue and the trains together. -/
def Room (cfg : Config) (t : Target) (i : Input) : Prop :=
  cfg.queueLimit ≠ 0xFFFFFFFF → 0 < demand cfg t i →
    t.queueSize + weight t.trainLoad + demand cfg t i ≤ cfg.queueLimit
deriving Decidable

/-- The queue is accounted, and queue and trains together are within a limit. -/
structure WithinLimit (cfg : Config) (t : Target) : Prop where
  exact : t.queueSize = weight t.queueLoad
  bound : cfg.queueLimit ≠ 0xFFFFFFFF → t.queueSize + weight t.trainLoad ≤ cfg.queueLimit

theorem WithinLimit.accounts (h : t.WithinLimit cfg) : t.Accounts cfg :=
  ⟨h.exact.trans (queuedBytes_eq t).symm, fun hlimit =>
    (Nat.le_add_right _ _).trans (h.bound hlimit)⟩

/-- What is in the queue and the trains grows by what comes in at most. -/
theorem Effect.load_le {new : List Piece} (h : Effect t t' new) :
    Endpoint.weight t'.queueLoad + Endpoint.weight t'.trainLoad ≤
      Endpoint.weight t.queueLoad + Endpoint.weight t.trainLoad + Endpoint.weight new := by
  obtain ⟨done, hdone⟩ := h.sent
  have hweight := h.weight
  simp only [held, weight_append, ← hdone] at hweight
  omega

theorem WithinLimit.step (h : t.WithinLimit cfg) (hroom : Room cfg t i) {new : List Piece}
    (heffect : Effect t t' new) (hnew : weight new ≤ demand cfg t i) : t'.WithinLimit cfg := by
  have hexact := heffect.queueSize h.exact
  refine ⟨hexact, fun hlimit => ?_⟩
  have hload := heffect.load_le
  have hbound := h.bound hlimit
  rw [h.exact] at hbound
  rw [hexact]
  rcases Nat.eq_zero_or_pos (demand cfg t i) with hzero | hpos
  · omega
  · have := hroom hlimit hpos
    rw [h.exact] at this
    omega

/-- **The size of the queue is exact and within the limit**, if there is room for all that comes
in. -/
theorem queue_size_exact (cfg : Config) (now : ℕ) (is : List Input)
    (h : AllSteps (step cfg) (fun t i => t.Undisturbed i ∧ Room cfg t i) (create now) is) :
    AllSteps (step cfg) (fun t i => step cfg t i ≠ .error .emptyQueue ∧
      ∀ answer t', step cfg t i = .ok (answer, t') → t'.Accounts cfg) (create now) is := by
  refine h.of_invariant (fun t => t.Separate ∧ t.WithinLimit cfg) ?_ ?_
    ⟨separate_create now, rfl, fun _ => Nat.zero_le _⟩
  · rintro t i answer t' ⟨hseparate, hwithin⟩ ⟨hi, hroom⟩ hstep
    obtain ⟨new, heffect, -, hnew⟩ := step_effect hseparate hi hstep
    exact ⟨heffect.separate, hwithin.step hroom heffect hnew⟩
  · rintro t i ⟨hseparate, hwithin⟩ ⟨hi, hroom⟩
    refine ⟨step_ne_emptyQueue cfg hseparate i, fun answer t' hstep => ?_⟩
    obtain ⟨new, heffect, -, hnew⟩ := step_effect hseparate hi hstep
    exact (hwithin.step hroom heffect hnew).accounts

/-- With a limit of 10, two messages of 4 bytes are taken and the third is refused. -/
theorem queue_size_exact_limitTen :
    let cfg : Config := ⟨1416, 10, fun _ => ⟨0, 5, by decide, by decide⟩, fun _ => none, nofun⟩
    let m : Message := ⟨[0, 1, 0, 2], by decide, by decide⟩
    AllSteps (step cfg) (fun t i => step cfg t i ≠ .error .emptyQueue ∧
      ∀ answer t', step cfg t i = .ok (answer, t') → t'.Accounts cfg) (create 0)
      [.sendIntern 1 0 m .skipped, .flushCbk 6 (.started false), .sendIntern 7 1 m .skipped,
        .flushCbk 13 (.started false), .sendIntern 14 2 m .skipped, .sendCbk 15 (.started false)] :=
  queue_size_exact _ _ _ (by decide +kernel)

/-- With a limit of 20, two messages of 16 bytes are taken, because none is in the queue; they leave
in a train of 32 bytes. -/
theorem train_exceeds_limit :
    let cfg : Config := ⟨1416, 20, fun _ => ⟨0, 5, by decide, by decide⟩, fun _ => none, nofun⟩
    let first : Message := ⟨[0, 1, 0, 2] ++ List.replicate 12 0, by decide, by decide⟩
    let second : Message := ⟨[0, 1, 0, 3] ++ List.replicate 12 0, by decide, by decide⟩
    let inputs := [.sendIntern 1 0 first .skipped, .sendIntern 2 1 second .skipped,
      .flushCbk 6 (.started false)]
    ∃ outs t, run (step cfg) (create 0) inputs = .ok (outs, t) ∧ t.queueSize = 32 ∧
      ¬ t.Accounts cfg := by
  intro cfg first second inputs
  have heval : ((run (step cfg) (create 0) inputs).toOption.map fun out => out.2.queueSize) =
      some 32 := by decide +kernel
  rcases hrun : run (step cfg) (create 0) inputs with e | ⟨outs, t⟩
  · rw [hrun] at heval
    cases heval
  · rw [hrun] at heval
    have hsize : t.queueSize = 32 := Option.some.inj heval
    refine ⟨outs, t, rfl, hsize, fun haccounts => ?_⟩
    have hlimit := haccounts.2 (by decide)
    rw [hsize] at hlimit
    exact absurd hlimit (by decide)

end SomeipTunnel.Endpoint.Target
