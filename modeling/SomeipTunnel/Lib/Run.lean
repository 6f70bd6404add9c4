import Mathlib

/-!
# Runs of a step function that can fail

A machine is a function `step : σ → ι → Except ε (ο × σ)`: in a state `s` it reads an input and
either stops with an error or answers an output and the next state. Everything a development
says about "every run" is phrased with two definitions.

* `run step s is` feeds the inputs one after the other; the first error ends the run.
* `AllSteps step Q s is`: `Q` holds at every pair (state, input) the run meets. A condition on the
  steps of a run and a property of its steps are both of this form.

The rules are `AllSteps.of_invariant` (an invariant kept by the steps that meet `C` turns
`AllSteps C` into `AllSteps Q`), `AllSteps.iff_of_invariant` (the same for an equivalence),
`AllSteps.run_ok` (a run whose steps all succeed), `run_invariant` (the invariant at the end of
a run) and `run_select` (a run without the inputs that leave the state alone).
-/

namespace StepRun

variable {σ ι ο ε : Type*}

/-- Feed the inputs one after the other and collect the outputs; the first error ends the run. -/
def run (step : σ → ι → Except ε (ο × σ)) : σ → List ι → Except ε (List ο × σ)
  | s, [] => .ok ([], s)
  | s, i :: is =>
      match step s i with
      | .error e => .error e
      | .ok (o, s') =>
          match run step s' is with
          | .error e => .error e
          | .ok (os, t) => .ok (o :: os, t)

/-- `Q` holds at every pair of a state and an input that the run from `s` meets. -/
def AllSteps (step : σ → ι → Except ε (ο × σ)) (Q : σ → ι → Prop) : σ → List ι → Prop
  | _, [] => True
  | s, i :: is => Q s i ∧ ∀ o s', step s i = .ok (o, s') → AllSteps step Q s' is

variable {step : σ → ι → Except ε (ο × σ)} {Q C : σ → ι → Prop} {s : σ} {i : ι} {is : List ι}

/-- A step has one output and one next state. -/
theorem ok_unique {out : Except ε (ο × σ)} {o o' : ο} {s s' : σ} (h : out = .ok (o, s))
    (h' : out = .ok (o', s')) : o = o' ∧ s = s' :=
  Prod.mk.inj (Except.ok.inj (h.symm.trans h'))

@[simp] theorem run_nil : run step s [] = .ok ([], s) := rfl

theorem run_cons_of_ok {o : ο} {s' : σ} (h : step s i = .ok (o, s')) :
    run step s (i :: is) =
      match run step s' is with
      | .error e => .error e
      | .ok (os, t) => .ok (o :: os, t) := by
  simp only [run, h]

/-- An error ends the run. -/
theorem run_cons_of_error {e : ε} (h : step s i = .error e) : run step s (i :: is) = .error e := by
  simp only [run, h]

variable {os : List ο} {t : σ}

/-- A run of `i :: is` that succeeds is a step followed by a run that succeeds. -/
theorem run_cons_eq_ok : run step s (i :: is) = .ok (os, t) ↔
      ∃ o s' os', step s i = .ok (o, s') ∧ run step s' is = .ok (os', t) ∧ os = o :: os' := by
  rcases h : step s i with e | ⟨o, s'⟩
  · simp [run_cons_of_error h]
  · rw [run_cons_of_ok h]
    rcases h' : run step s' is with e | ⟨os', t'⟩
    · simp only [reduceCtorEq, Except.ok.injEq, Prod.mk.injEq, false_iff, not_exists]
      rintro o₁ s₁ os₁ ⟨⟨rfl, rfl⟩, hr, -⟩
      rw [h'] at hr
      cases hr
    · constructor
      · rintro ⟨rfl, rfl⟩
        exact ⟨o, s', os', rfl, h', rfl⟩
      · rintro ⟨o₁, s₁, os₁, ⟨rfl, rfl⟩, hr, rfl⟩
        rw [h'] at hr
        cases hr
        rfl

@[simp] theorem allSteps_nil : AllSteps step Q s [] := trivial

/-- The first step, and the run behind it. -/
theorem allSteps_cons : AllSteps step Q s (i :: is) ↔
      Q s i ∧ ∀ o s', step s i = .ok (o, s') → AllSteps step Q s' is := Iff.rfl

/-- A property of the steps of a run can be evaluated along the run. -/
instance decidableAllSteps [∀ s i, Decidable (Q s i)] :
    (s : σ) → (is : List ι) → Decidable (AllSteps step Q s is)
  | _, [] => .isTrue trivial
  | s, i :: is =>
      match h : step s i with
      | .error _ => decidable_of_iff (Q s i)
          ⟨fun hq => ⟨hq, fun _ _ ho => nomatch h.symm.trans ho⟩, And.left⟩
      | .ok (o, s') =>
          haveI := decidableAllSteps s' is
          decidable_of_iff (Q s i ∧ AllSteps step Q s' is)
            ⟨fun hq => ⟨hq.1, fun o₁ s₁ ho => by
              obtain ⟨rfl, rfl⟩ := ok_unique h ho
              exact hq.2⟩, fun hq => ⟨hq.1, hq.2 o s' h⟩⟩

variable (Inv : σ → Prop)

/-- **The invariant rule.** If the steps that meet `C` keep `Inv`, and `Inv` with `C` gives `Q`,
then a run whose steps all meet `C` has `Q` at every step. -/
theorem AllSteps.of_invariant (hstep : ∀ s i o s', Inv s → C s i → step s i = .ok (o, s') → Inv s')
    (hQ : ∀ s i, Inv s → C s i → Q s i) (hs : Inv s) (h : AllSteps step C s is) :
    AllSteps step Q s is := by
  induction is generalizing s with
  | nil => trivial
  | cons i is ih =>
      obtain ⟨hC, hrest⟩ := h
      refine ⟨hQ s i hs hC, fun o s' ho => ?_⟩
      exact ih (hstep s i o s' hs hC ho) (hrest o s' ho)

/-- The invariant rule where every step keeps the invariant. -/
theorem AllSteps.of_forall (hstep : ∀ s i o s', Inv s → step s i = .ok (o, s') → Inv s')
    (hQ : ∀ s i, Inv s → Q s i) (hs : Inv s) : AllSteps step Q s is := by
  induction is generalizing s with
  | nil => trivial
  | cons i is ih => exact ⟨hQ s i hs, fun o s' ho => ih (hstep s i o s' hs ho)⟩

/-- The invariant rule for an equivalence: where the invariant makes `Q` and `C` the same
condition and a step that meets `C` keeps it, the two agree on whole runs. -/
theorem AllSteps.iff_of_invariant
    (hstep : ∀ s i o s', Inv s → C s i → step s i = .ok (o, s') → Inv s')
    (hQ : ∀ s i, Inv s → (Q s i ↔ C s i)) (hs : Inv s) :
    AllSteps step Q s is ↔ AllSteps step C s is := by
  induction is generalizing s with
  | nil => exact Iff.rfl
  | cons i is ih =>
      rw [allSteps_cons, allSteps_cons, hQ s i hs]
      refine and_congr_right fun hC => ?_
      exact forall_congr' fun o => forall_congr' fun s' =>
        imp_congr_right fun ho => ih (hstep s i o s' hs hC ho)

/-- A condition on a part of the state is a condition on the run of that part, if the part runs on
its own. -/
theorem allSteps_comp {τ : Type*} {step' : τ → ι → Except ε (ο × τ)} {C : τ → ι → Prop} (f : σ → τ)
    (hf : ∀ s i, step' (f s) i = (step s i).map fun out => (out.1, f out.2)) :
    AllSteps step (fun s i => C (f s) i) s is ↔ AllSteps step' C (f s) is := by
  induction is generalizing s with
  | nil => exact Iff.rfl
  | cons i is ih =>
      rw [allSteps_cons, allSteps_cons, hf]
      refine and_congr_right fun _ => ?_
      rcases step s i with e | ⟨o, s'⟩
      · simp [Except.map]
      · simp [Except.map, ih]

/-- What holds at every step holds at a step behind a run that succeeds. -/
theorem AllSteps.of_run_concat (h : AllSteps step Q s (is ++ [i]))
    (hr : run step s is = .ok (os, t)) : Q t i := by
  induction is generalizing s os with
  | nil =>
      cases hr
      exact h.1
  | cons j is ih =>
      obtain ⟨o, s', os', ho, hr', -⟩ := run_cons_eq_ok.mp hr
      exact ih (h.2 o s' ho) hr'

/-- Two runs one behind the other. -/
theorem run_append {is' : List ι} {os' : List ο} {u : σ} (h : run step s is = .ok (os, t))
    (h' : run step t is' = .ok (os', u)) : run step s (is ++ is') = .ok (os ++ os', u) := by
  induction is generalizing s os with
  | nil =>
      cases h
      exact h'
  | cons i is ih =>
      obtain ⟨o, s', os₁, ho, hr, rfl⟩ := run_cons_eq_ok.mp h
      exact run_cons_eq_ok.mpr ⟨o, s', os₁ ++ os', ho, ih hr, rfl⟩

/-- A run succeeds iff all its steps do. -/
theorem run_isOk_iff : (∃ os t, run step s is = .ok (os, t)) ↔
    AllSteps step (fun s i => ∃ o s', step s i = .ok (o, s')) s is := by
  induction is generalizing s with
  | nil => simp
  | cons i is ih =>
      rw [allSteps_cons]
      constructor
      · rintro ⟨os, t, hr⟩
        obtain ⟨o, s', os', ho, hr', -⟩ := run_cons_eq_ok.mp hr
        refine ⟨⟨o, s', ho⟩, fun o₁ s₁ ho₁ => ?_⟩
        obtain ⟨rfl, rfl⟩ := ok_unique ho ho₁
        exact ih.mp ⟨os', t, hr'⟩
      · rintro ⟨⟨o, s', ho⟩, hrest⟩
        obtain ⟨os, t, hr⟩ := ih.mpr (hrest o s' ho)
        exact ⟨o :: os, t, run_cons_eq_ok.mpr ⟨o, s', os, ho, hr, rfl⟩⟩

/-- If the steps that meet `C` succeed and keep an invariant, a run whose steps all meet `C`
succeeds and ends with the invariant. -/
theorem AllSteps.run_ok (hstep : ∀ s i, Inv s → C s i → ∃ o s', step s i = .ok (o, s') ∧ Inv s')
    (hs : Inv s) (h : AllSteps step C s is) : ∃ os t, run step s is = .ok (os, t) ∧ Inv t := by
  induction is generalizing s with
  | nil => exact ⟨[], s, rfl, hs⟩
  | cons i is ih =>
      obtain ⟨hC, hrest⟩ := h
      obtain ⟨o, s', ho, hs'⟩ := hstep s i hs hC
      obtain ⟨os, t, hr, ht⟩ := ih hs' (hrest o s' ho)
      exact ⟨o :: os, t, run_cons_eq_ok.mpr ⟨o, s', os, ho, hr, rfl⟩, ht⟩

/-- An invariant that every step keeps holds at the end of a run that succeeds. -/
theorem run_invariant (hstep : ∀ s i o s', Inv s → step s i = .ok (o, s') → Inv s') (hs : Inv s)
    (h : run step s is = .ok (os, t)) : Inv t := by
  induction is generalizing s os with
  | nil =>
      cases h
      exact hs
  | cons i is ih =>
      obtain ⟨o, s', os', ho, hr, -⟩ := run_cons_eq_ok.mp h
      exact ih (hstep s i o s' hs ho) hr

/-! ### Leaving out inputs -/

/-- Which inputs of a run satisfy `K` at the state that they meet. -/
def mask (step : σ → ι → Except ε (ο × σ)) (K : σ → ι → Bool) : σ → List ι → List Bool
  | _, [] => []
  | s, i :: is =>
      K s i :: mask step K
        (match step s i with
        | .error _ => s
        | .ok (_, s') => s') is

/-- The elements of a list that a mask keeps. -/
def select {α : Type*} : List Bool → List α → List α
  | true :: bs, a :: as => a :: select bs as
  | false :: bs, _ :: as => select bs as
  | _, _ => []

/-- **Inputs that leave the state alone can be left out**: the others meet the same states and have
the same outputs. -/
theorem run_select {K : σ → ι → Bool}
    (hK : ∀ s i o s', K s i = false → step s i = .ok (o, s') → s' = s)
    (h : run step s is = .ok (os, t)) :
    run step s (select (mask step K s is) is) = .ok (select (mask step K s is) os, t) := by
  induction is generalizing s os with
  | nil =>
      cases h
      rfl
  | cons i is ih =>
      obtain ⟨o, s', os', ho, hr, rfl⟩ := run_cons_eq_ok.mp h
      have ih' := ih hr
      simp only [mask, ho]
      rcases hk : K s i with _ | _
      · obtain rfl := hK s i o s' hk ho
        exact ih'
      · exact run_cons_eq_ok.mpr ⟨o, s', _, ho, ih', rfl⟩

end StepRun
