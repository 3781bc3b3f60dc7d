import Mathlib.Tactic

/-!
Machines that answer every operation, over arbitrary states, operations and answers.

* `answers step s ops`, `after step s ops`: the answers to a list of operations, and the state they
  lead to; `answers_append` cuts the list in two, `answers_map` renames the operations.
* `answers_eq_of_simulation`: two machines answer alike if a relation between their states is kept
  and related states give the same answers.
-/

namespace Answers

variable {σ τ α β : Type*}

/-- The answers to the operations, one after the other. -/
def answers (step : σ → α → β × σ) : σ → List α → List β
  | _, [] => []
  | s, a :: as => (step s a).1 :: answers step (step s a).2 as

/-- The state after the operations. -/
def after (step : σ → α → β × σ) : σ → List α → σ
  | s, [] => s
  | s, a :: as => after step (step s a).2 as

lemma answers_append (step : σ → α → β × σ) (s : σ) (as bs : List α) :
    answers step s (as ++ bs) = answers step s as ++ answers step (after step s as) bs := by
  induction as generalizing s with
  | nil => rfl
  | cons a as ih => simp only [List.cons_append, answers, after, ih]

/-- Operations under other names. -/
lemma answers_map {γ : Type*} (step : σ → α → β × σ) (f : γ → α) (s : σ) (cs : List γ) :
    answers step s (cs.map f) = answers (fun s c => step s (f c)) s cs := by
  induction cs generalizing s with
  | nil => rfl
  | cons c cs ih => simp only [List.map_cons, answers, ih]

/-- **Machines that simulate each other answer alike**, to operations that meet the condition
`ok`. -/
theorem answers_eq_of_simulation {f : σ → α → β × σ} {g : τ → α → β × τ} {R : σ → τ → Prop}
    {ok : α → Prop}
    (hsim : ∀ s t a, R s t → ok a → (f s a).1 = (g t a).1 ∧ R (f s a).2 (g t a).2)
    {s : σ} {t : τ} (h : R s t) {as : List α} (has : ∀ a ∈ as, ok a) :
    answers f s as = answers g t as := by
  induction as generalizing s t with
  | nil => rfl
  | cons a as ih =>
      obtain ⟨ha, has⟩ := List.forall_mem_cons.mp has
      obtain ⟨hans, hnext⟩ := hsim s t a h ha
      rw [answers, answers, hans, ih hnext has]

end Answers
