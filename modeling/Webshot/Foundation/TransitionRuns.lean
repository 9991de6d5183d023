import Mathlib.Logic.Function.Basic

/-! Runs of a system whose parties take their steps in any order, and invariants along them. -/
namespace Webshot.Foundation.TransitionRuns
variable {σ α : Type*} {step : σ → α → Option σ} {ok : σ → α → Prop} {s s' : σ} {as : List α}

/-- The actions lead from one state to the other, each of them enabled and taken in a state where
`ok` allows it. -/
inductive Run (step : σ → α → Option σ) (ok : σ → α → Prop) : σ → List α → σ → Prop where
  | nil (s : σ) : Run step ok s [] s
  | cons {s t u : σ} {a : α} {as : List α} : ok s a → step s a = some t → Run step ok t as u → Run step ok s (a :: as) u

/-- Every action is allowed. -/
def always : σ → α → Prop := fun _ _ => True

/-- The state a list of actions leads to, if each of them is enabled in its turn. -/
def execute (step : σ → α → Option σ) : σ → List α → Option σ
  | s, [] => some s
  | s, a :: as => (step s a).bind (execute step · as)

namespace Run

/-- What every allowed step preserves holds at the end of a run if it holds at its start. -/
theorem invariant (h : Run step ok s as s') (Inv : σ → Prop) (hs : Inv s)
    (hstep : ∀ s a t, ok s a → step s a = some t → Inv s → Inv t) : Inv s' := by
  induction h with
  | nil _ => exact hs
  | cons hok hst _ ih => exact ih (hstep _ _ _ hok hst hs)

theorem append {bs : List α} {t : σ} (h : Run step ok s as t) (h' : Run step ok t bs s') :
    Run step ok s (as ++ bs) s' := by
  induction h with
  | nil _ => exact h'
  | cons hok hstep _ ih => exact .cons hok hstep (ih h')

theorem of_execute (h : execute step s as = some s') : Run step always s as s' := by
  induction as generalizing s with
  | nil => exact Option.some.inj h ▸ .nil s
  | cons a as ih =>
    obtain ⟨t, hstep, hrest⟩ := Option.bind_eq_some_iff.mp h
    exact .cons trivial hstep (ih hrest)

/-- A run whose last state was computed to pass a test. -/
theorem exists_of_execute (p : σ → Bool) (h : (execute step s as).any p = true) :
    ∃ s', Run step always s as s' ∧ p s' = true := by
  obtain ⟨s', hs', hp⟩ := (Option.any_eq_true p _).mp h
  exact ⟨s', of_execute hs', hp⟩

/-- A run of actions that are allowed in every state. -/
theorem of_allowed (h : Run step always s as s') (hok : ∀ a ∈ as, ∀ s, ok s a) : Run step ok s as s' := by
  induction h with
  | nil s => exact .nil s
  | cons _ hstep _ ih =>
    exact .cons (hok _ List.mem_cons_self _) hstep (ih fun a ha => hok a (List.mem_cons_of_mem _ ha))

/-- A run of the steps that pass a check, where the check allows only what `ok` allows. -/
theorem of_checked {check : σ → α → Bool} (hcheck : ∀ s a, check s a = true → ok s a)
    (h : Run (fun s a => if check s a then step s a else none) always s as s') : Run step ok s as s' := by
  induction h with
  | nil s => exact .nil s
  | @cons s t u a as _ hstep _ ih =>
    split at hstep
    · exact .cons (hcheck s a ‹_›) hstep ih
    · cases hstep

end Run
section Parties
variable {ι β : Type*} [DecidableEq ι] {f : ι → β} {i j : ι} {b y : β}

/-- After a step of one party, a state is its new one, or that of another party as it was. -/
theorem update_cases (h : Function.update f i b j = y) : (j = i ∧ b = y) ∨ (j ≠ i ∧ f j = y) := by
  by_cases hj : j = i
  · subst hj
    rw [Function.update_self] at h
    exact Or.inl ⟨rfl, h⟩
  · rw [Function.update_of_ne hj] at h
    exact Or.inr ⟨hj, h⟩

/-- What is true of the new state of a party only if it was true of the old one becomes true of no party. -/
theorem of_update (P : β → Prop) (hb : P b → P (f i)) (h : P (Function.update f i b j)) : P (f j) := by
  obtain ⟨rfl, hnew⟩ | ⟨_, hold⟩ := update_cases (y := Function.update f i b j) rfl
  · exact hb (hnew ▸ h)
  · exact hold ▸ h

end Parties

end Webshot.Foundation.TransitionRuns
