import Mathlib

/-!
# Runs of a deterministic system

A system is a function `step : S → A → S`. `run step s as` is the state after the actions `as`, and
`Along step P s as` says that every step of the run meets a condition `P` on the state before it and
the action. `run_invariant` is the induction rule: what holds at the start and is kept by every step
that meets the condition holds in the state reached. `Along` is closed under prefixes, so it then
holds in every state on the way.
-/

namespace VibeOS

variable {S A : Type*} (step : S → A → S)

def run (s : S) (as : List A) : S := as.foldl step s

/-- Every step of the run meets `P`. -/
def Along (P : S → A → Prop) : S → List A → Prop
  | _, [] => True
  | s, a :: as => P s a ∧ Along P (step s a) as

variable {step} {P Q : S → A → Prop}

instance Along.instDecidable [∀ s a, Decidable (P s a)] : ∀ (s : S) (as : List A), Decidable (Along step P s as)
  | _, [] => .isTrue trivial
  | s, a :: as =>
    have := Along.instDecidable (step s a) as
    inferInstanceAs (Decidable (P s a ∧ Along step P (step s a) as))

@[simp] lemma run_nil (s : S) : run step s [] = s := rfl

@[simp] lemma run_cons (s : S) (a : A) (as : List A) : run step s (a :: as) = run step (step s a) as := rfl

lemma run_append (s : S) (as bs : List A) : run step s (as ++ bs) = run step (run step s as) bs := List.foldl_append

lemma along_true (s : S) (as : List A) : Along step (fun _ _ => True) s as := by
  induction as generalizing s with
  | nil => trivial
  | cons a as ih => exact ⟨trivial, ih _⟩

lemma run_invariant {I : S → Prop} (hstep : ∀ s a, I s → P s a → I (step s a)) {s : S}
    {as : List A} (hs : I s) (h : Along step P s as) : I (run step s as) := by
  induction as generalizing s with
  | nil => exact hs
  | cons a as ih => exact ih (hstep s a hs h.1) h.2

lemma Along.mono (hPQ : ∀ s a, P s a → Q s a) {s : S} {as : List A} (h : Along step P s as) : Along step Q s as := by
  induction as generalizing s with
  | nil => trivial
  | cons a as ih => exact ⟨hPQ s a h.1, ih h.2⟩

/-- What follows from the condition in every state with the invariant holds of every step. -/
lemma Along.mono_invariant {I : S → Prop} (hstep : ∀ s a, I s → P s a → I (step s a))
    (hPQ : ∀ s a, I s → P s a → Q s a) {s : S} {as : List A} (hs : I s) (h : Along step P s as) :
    Along step Q s as := by
  induction as generalizing s with
  | nil => trivial
  | cons a as ih => exact ⟨hPQ s a hs h.1, ih (hstep s a hs h.1) h.2⟩

end VibeOS
