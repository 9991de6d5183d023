import Mathlib.Logic.Basic

/-! Programs over a state that outlives their failure, and the rules of what they establish. -/
namespace Webshot.Foundation.FailingPrograms
variable {σ ε ε' α β : Type}

/-- A program that may change its state and then end with a value or with an error. -/
abbrev Program (σ ε α : Type) := ExceptT ε (StateM σ) α

/-- How a program ends when it is started in the given state. -/
def outcome (m : Program σ ε α) (s : σ) : Except ε α × σ := (m.run).run s

/-- The program runs, and its error is a value. -/
def attempt (m : Program σ ε α) : Program σ ε' (Except ε α) := ExceptT.mk fun s => (.ok (outcome m s).1, (outcome m s).2)

/-- What holds of the end of a program started in the given state. -/
def After (m : Program σ ε α) (s : σ) (post : Except ε α → σ → Prop) : Prop := post (outcome m s).1 (outcome m s).2

section Rules
variable {s : σ} {post post' : Except ε α → σ → Prop}

@[simp] theorem after_pure (a : α) : After (pure a) s post ↔ post (.ok a) s := Iff.rfl

@[simp] theorem after_throw (e : ε) : After (throw e) s post ↔ post (.error e) s := Iff.rfl

@[simp] theorem after_get {post : Except ε σ → σ → Prop} : After (get : Program σ ε σ) s post ↔ post (.ok s) s := Iff.rfl

@[simp] theorem after_modify (f : σ → σ) {post : Except ε PUnit → σ → Prop} :
    After (modify f : Program σ ε PUnit) s post ↔ post (.ok ⟨⟩) (f s) := Iff.rfl

@[simp] theorem after_attempt (m : Program σ ε α) {post : Except ε' (Except ε α) → σ → Prop} :
    After (attempt m) s post ↔ After m s fun r t => post (.ok r) t := Iff.rfl

/-- The second program starts where the first has ended with a value. -/
theorem after_bind (m : Program σ ε α) (f : α → Program σ ε β) {post : Except ε β → σ → Prop} :
    After (m >>= f) s post ↔
      After m s fun r t =>
        match r with
        | .ok a => After (f a) t post
        | .error e => post (.error e) t := by
  have hrun : outcome (m >>= f) s =
      match (outcome m s).1 with
      | .ok a => outcome (f a) (outcome m s).2
      | .error e => (.error e, (outcome m s).2) := by
    change (ExceptT.bindCont f (outcome m s).1).run (outcome m s).2 = _
    cases (outcome m s).1 <;> rfl
  unfold After
  rw [hrun]
  cases (outcome m s).1 <;> rfl

/-- A change of the state, and a program after it. -/
theorem after_modify_bind (f : σ → σ) (g : PUnit → Program σ ε α) : After (modify f >>= g) s post ↔ After (g ⟨⟩) (f s) post := by
  rw [after_bind, after_modify]

/-- A look at the state, and a program that depends on it. -/
theorem after_get_bind (g : σ → Program σ ε α) : After (get >>= g) s post ↔ After (g s) s post := by
  rw [after_bind, after_get]

theorem After.imp {m : Program σ ε α} (h : After m s post) (himp : ∀ r t, post r t → post' r t) : After m s post' :=
  himp _ _ h

end Rules
end Webshot.Foundation.FailingPrograms
