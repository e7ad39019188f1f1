import Mathlib.Data.List.Basic

/-! # Machines that take one step after another

    A machine is a function `step` from a state and an action to the next state,
    `none` where the action is not possible.  `run` takes the steps of a list,
    `Reach` collects the states of all runs whose steps meet a condition, and
    `Reach.invariant` is the rule for what such runs keep.

    `run_project` is the rule for looking at a machine through a projection: if every
    action is either an action of the smaller machine or invisible to it, then runs
    are runs of the smaller machine over the visible actions. -/

namespace Transition

variable {σ τ A B : Type}

/-- A whole run, action by action. -/
def run (step : σ → A → Option σ) (s : σ) : List A → Option σ
  | [] => some s
  | a :: as => (step s a).bind fun s' => run step s' as

/-- The states that runs from `s₀` reach, if each step meets `ok` where it is taken. -/
inductive Reach (step : σ → A → Option σ) (ok : σ → A → Prop) (s₀ : σ) : σ → Prop
  | refl : Reach step ok s₀ s₀
  | step {s s' : σ} {a : A} :
      Reach step ok s₀ s → ok s a → step s a = some s' → Reach step ok s₀ s'

/-- No condition on the steps. -/
abbrev Free (_ : σ) (_ : A) : Prop := True

variable {step : σ → A → Option σ} {ok : σ → A → Prop}

/-- **The invariant rule**. -/
theorem Reach.invariant {I : σ → Prop} {s₀ s : σ} (hr : Reach step ok s₀ s) (h₀ : I s₀)
    (hstep : ∀ s a s', I s → ok s a → step s a = some s' → I s') : I s := by
  induction hr with
  | refl => exact h₀
  | step _ hok hs ih => exact hstep _ _ _ ih hok hs

theorem Reach.mono {ok' : σ → A → Prop} {s₀ s : σ} (hr : Reach step ok s₀ s)
    (hok : ∀ s a, ok s a → ok' s a) : Reach step ok' s₀ s := by
  induction hr with
  | refl => exact .refl
  | step _ ha hs ih => exact .step ih (hok _ _ ha) hs

/-- A run that stops short of a step that does not meet `ok`. -/
def runWithin (step : σ → A → Option σ) (ok : σ → A → Prop) [∀ s a, Decidable (ok s a)]
    (s : σ) : List A → Option σ
  | [] => some s
  | a :: as => if ok s a then (step s a).bind fun s' => runWithin step ok s' as else none

theorem Reach.trans {s₀ s₁ s₂ : σ} (h₁ : Reach step ok s₀ s₁) (h₂ : Reach step ok s₁ s₂) :
    Reach step ok s₀ s₂ := by
  induction h₂ with
  | refl => exact h₁
  | step _ ha hs ih => exact .step ih ha hs

/-- A run that can be computed is a run. -/
theorem reach_of_runWithin [∀ s a, Decidable (ok s a)] {s s' : σ} {as : List A}
    (h : runWithin step ok s as = some s') : Reach step ok s s' := by
  induction as generalizing s with
  | nil =>
      obtain rfl := Option.some.inj h
      exact .refl
  | cons a as ih =>
      rw [runWithin] at h
      split at h
      · next hok =>
          obtain ⟨s₁, hs, hrest⟩ := Option.bind_eq_some_iff.mp h
          exact (Reach.step .refl hok hs).trans (ih hrest)
      · exact absurd h (by simp)

/-- **Runs through a projection**: an action that `view` shows is a step of the smaller
    machine, any other leaves the projected state alone. -/
theorem run_project {small : τ → B → Option τ} {f : σ → τ} {view : A → Option B}
    (hshown : ∀ s a s' b, step s a = some s' → view a = some b → small (f s) b = some (f s'))
    (hhidden : ∀ s a s', step s a = some s' → view a = none → f s' = f s)
    {s s' : σ} {as : List A} (h : run step s as = some s') :
    run small (f s) (as.filterMap view) = some (f s') := by
  induction as generalizing s with
  | nil =>
      obtain rfl := Option.some.inj h
      rfl
  | cons a as ih =>
      obtain ⟨s₁, hs, hrest⟩ := Option.bind_eq_some_iff.mp h
      cases hview : view a with
      | none =>
          rw [List.filterMap_cons_none hview, ← hhidden s a s₁ hs hview]
          exact ih hrest
      | some b =>
          rw [List.filterMap_cons_some hview]
          exact Option.bind_eq_some_iff.mpr ⟨_, hshown s a s₁ b hs hview, ih hrest⟩

end Transition
