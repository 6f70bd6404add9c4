import SomeipTunnel.Lib.Run

/-!
# Machines that serve many keys

A machine serves many independent clients if its state can be viewed as one part per key and an
input works on the part of its own key only (`Scope.one`), on all parts alike (`Scope.all`, a sweep)
or on none. `Local` states this for a step function, with `own` and `sweep` as what happens to a
part.

`Local.isolated` is the rule: what a run answers to the inputs of a key does not change when the
inputs of the other keys are left out.
-/

namespace Keyed

open StepRun

/-- What an input is about: one key, every key, or no key. -/
inductive Scope (κ : Type*) where
  | one (k : κ)
  | all
  | nothing
deriving DecidableEq

variable {κ σ ι ο ε α : Type*} [DecidableEq κ]

/-- The inputs that work on the part of `k`. -/
def Scope.concerns (k : κ) : Scope κ → Bool
  | .one k' => k' = k
  | .all => true
  | .nothing => false

/-- The answers to the inputs of `k`. -/
def outputsFor (scope : ι → Scope κ) (k : κ) (is : List ι) (os : List ο) : List ο :=
  ((is.zip os).filter fun p => scope p.1 = .one k).map Prod.snd

/-- Every input works on the parts of the state as its scope says. -/
structure Local (step : σ → ι → Except ε (ο × σ)) (scope : ι → Scope κ) (view : σ → κ → α)
    (own : ι → α → Except ε (ο × α)) (sweep : ι → α → α) : Prop where
  one_own : ∀ {s i k o s'}, scope i = .one k → step s i = .ok (o, s') →
    own i (view s k) = .ok (o, view s' k)
  one_ok : ∀ {s i k o a}, scope i = .one k → own i (view s k) = .ok (o, a) →
    ∃ s', step s i = .ok (o, s')
  one_other : ∀ {s i k k' o s'}, scope i = .one k → step s i = .ok (o, s') → k' ≠ k →
    view s' k' = view s k'
  all_ok : ∀ {i} s, scope i = .all → ∃ o s', step s i = .ok (o, s')
  all_view : ∀ {s i o s'} k, scope i = .all → step s i = .ok (o, s') →
    view s' k = sweep i (view s k)
  nothing_view : ∀ {s i o s'} k, scope i = .nothing → step s i = .ok (o, s') →
    view s' k = view s k

variable {step : σ → ι → Except ε (ο × σ)} {scope : ι → Scope κ} {view : σ → κ → α}
  {own : ι → α → Except ε (ο × α)} {sweep : ι → α → α} {is : List ι} {os : List ο} {k : κ}

theorem outputsFor_cons_of_one {i : ι} {o : ο} (h : scope i = .one k) :
    outputsFor scope k (i :: is) (o :: os) = o :: outputsFor scope k is os := by
  simp [outputsFor, h]

theorem outputsFor_cons_of_ne {i : ι} {o : ο} (h : scope i ≠ .one k) :
    outputsFor scope k (i :: is) (o :: os) = outputsFor scope k is os := by
  simp [outputsFor, h]

/-- **Isolation**: a run that agrees with another state on the part of `k` answers the inputs of
`k` as the run from that state without the inputs of other keys. -/
theorem Local.isolated (h : Local step scope view own sweep) {s t s' : σ} (hv : view s k = view t k)
    (hr : run step s is = .ok (os, s')) :
    ∃ os' t', run step t (is.filter fun i => (scope i).concerns k) = .ok (os', t') ∧
      outputsFor scope k (is.filter fun i => (scope i).concerns k) os' =
        outputsFor scope k is os ∧ view s' k = view t' k := by
  induction is generalizing s t os with
  | nil =>
      cases hr
      exact ⟨[], t, rfl, rfl, hv⟩
  | cons i is ih =>
      obtain ⟨o, s₁, os₁, hstep, hrest, rfl⟩ := run_cons_eq_ok.mp hr
      rcases hscope : scope i with k' | _ | _
      · by_cases hk : k' = k
        · -- an input of `k`: both runs do the same to its part
          subst hk
          have hown := h.one_own hscope hstep
          rw [hv] at hown
          obtain ⟨t₁, ht₁⟩ := h.one_ok hscope hown
          have hv₁ : view s₁ k' = view t₁ k' := by
            have := h.one_own hscope ht₁
            rw [hown, Except.ok.injEq, Prod.mk.injEq] at this
            exact this.2
          obtain ⟨os', t', hrun, hout, hview⟩ := ih hv₁ hrest
          refine ⟨o :: os', t', ?_, ?_, hview⟩
          · rw [List.filter_cons_of_pos (by simp [hscope, Scope.concerns]), run_cons_eq_ok]
            exact ⟨o, t₁, os', ht₁, hrun, rfl⟩
          · rw [List.filter_cons_of_pos (by simp [hscope, Scope.concerns]),
              outputsFor_cons_of_one hscope, outputsFor_cons_of_one hscope, hout]
        · have hv₁ : view s₁ k = view t k :=
            (h.one_other hscope hstep (Ne.symm hk)).trans hv
          obtain ⟨os', t', hrun, hout, hview⟩ := ih hv₁ hrest
          rw [List.filter_cons_of_neg (by simp [hscope, Scope.concerns, hk]),
            outputsFor_cons_of_ne (by simp [hscope, hk])]
          exact ⟨os', t', hrun, hout, hview⟩
      · -- a sweep is in both runs
        obtain ⟨o₁, t₁, ht₁⟩ := h.all_ok t hscope
        have hv₁ : view s₁ k = view t₁ k := by
          rw [h.all_view k hscope hstep, h.all_view k hscope ht₁, hv]
        obtain ⟨os', t', hrun, hout, hview⟩ := ih hv₁ hrest
        refine ⟨o₁ :: os', t', ?_, ?_, hview⟩
        · rw [List.filter_cons_of_pos (by simp [hscope, Scope.concerns]), run_cons_eq_ok]
          exact ⟨o₁, t₁, os', ht₁, hrun, rfl⟩
        · rw [List.filter_cons_of_pos (by simp [hscope, Scope.concerns]),
            outputsFor_cons_of_ne (by simp [hscope]), outputsFor_cons_of_ne (by simp [hscope]),
            hout]
      · have hv₁ : view s₁ k = view t k := (h.nothing_view k hscope hstep).trans hv
        obtain ⟨os', t', hrun, hout, hview⟩ := ih hv₁ hrest
        rw [List.filter_cons_of_neg (by simp [hscope, Scope.concerns]),
          outputsFor_cons_of_ne (by simp [hscope])]
        exact ⟨os', t', hrun, hout, hview⟩

end Keyed
