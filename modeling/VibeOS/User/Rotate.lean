import Mathlib

/-!
# Rotating a range

`std::rotate` on the list of the elements of the range. An access outside of it and a loop that does not end are `none`.

* `rotate_rearranges`: the loop ends with the two parts exchanged, and returns `last` (`rotate_returns_last`).

Names are those of `user/libc/include/algorithm`.
-/

namespace VibeOS.Rotate

open List

variable {α : Type*}

def swap (l : List α) (i j : Nat) : Option (List α) := do
  let a ← l[i]?
  let b ← l[j]?
  some ((l.set i b).set j a)

/-- Source: `rotate` -/
def rotateLoop : (fuel : Nat) → List α → (first middle next : Nat) → Option (List α)
  | 0, _, _, _, _ => none
  | fuel + 1, l, first, middle, next => do
    let l ← swap l first next
    if first + 1 = middle then
      if next + 1 = l.length then some l else rotateLoop fuel l (first + 1) (next + 1) (next + 1)
    else if next + 1 = l.length then rotateLoop fuel l (first + 1) middle middle
    else rotateLoop fuel l (first + 1) middle (next + 1)

/-- The elements after the call and the position that is returned. -/
def rotate (l : List α) (middle : Nat) : Option (List α × Nat) :=
  if middle = 0 then some (l, l.length)
  else if middle = l.length then some (l, 0)
  else (rotateLoop l.length l 0 middle middle).map (·, l.length)

lemma swap_eq (p q s : List α) (a c : α) :
    swap (p ++ a :: (q ++ c :: s)) p.length (p.length + (q.length + 1)) = some (p ++ c :: (q ++ a :: s)) := by
  simp [swap, set_append_right]

/-- The parts `a`, `b`, `c` from `first`, `middle` and `next` on are reversed: a step moves the head of `c` to the front
and the head of `a` behind `b`. -/
lemma rotateLoop_eq {fuel middle next : Nat} {p a b c : List α} (ha : a ≠ []) (hc : c ≠ [])
    (hm : middle = p.length + a.length) (hn : next = middle + b.length) (hf : a.length + b.length + c.length ≤ fuel) :
    rotateLoop fuel (p ++ (a ++ b ++ c)) p.length middle next = some (p ++ (c ++ b ++ a)) := by
  induction fuel generalizing p a b c middle next with
  | zero => simp_all
  | succ fuel ih =>
    obtain ⟨x, a, rfl⟩ := exists_cons_of_ne_nil ha
    obtain ⟨z, c, rfl⟩ := exists_cons_of_ne_nil hc
    have hswap : swap (p ++ (x :: a ++ b ++ z :: c)) p.length next = some ((p ++ [z]) ++ (a ++ (b ++ [x]) ++ c)) := by
      have hj : next = p.length + ((a ++ b).length + 1) := by
        simp at hm ⊢
        omega
      rw [hj]
      simpa using swap_eq p (a ++ b) c x z
    simp only [length_cons] at hm hf
    have hfirst : p.length + 1 = middle ↔ a = [] := by
      rw [← length_eq_zero_iff]
      omega
    have hlast : next + 1 = ((p ++ [z]) ++ (a ++ (b ++ [x]) ++ c)).length ↔ c = [] := by
      rw [← length_eq_zero_iff]
      simp only [length_append, length_singleton]
      omega
    have hp : p.length + 1 = (p ++ [z]).length := by simp
    rw [rotateLoop, hswap, Option.bind_eq_bind, Option.bind_some]
    simp only [hfirst, hlast]
    rw [hp]
    rcases eq_or_ne a [] with rfl | ha <;> rcases eq_or_ne c [] with rfl | hc
    · rw [if_pos rfl, if_pos rfl]
      simp
    · rw [if_pos rfl, if_neg hc]
      simpa using @ih (next + 1) (next + 1) (p ++ [z]) (b ++ [x]) [] c (by simp) hc (by simp at hm ⊢; omega) rfl
        (by simp; omega)
    · rw [if_neg ha, if_pos rfl]
      simpa using @ih middle middle (p ++ [z]) a [] (b ++ [x]) ha (by simp) (by simp; omega) rfl (by simp; omega)
    · rw [if_neg ha, if_neg hc]
      simpa using @ih middle (next + 1) (p ++ [z]) a (b ++ [x]) c ha hc (by simp; omega) (by simp; omega)
        (by simp; omega)

/-- The elements from `middle` on come before the others. The returned position is that of the element that was
first only where nothing is swapped. -/
theorem rotate_rearranges (l : List α) (middle : Nat) (hm : middle ≤ l.length) :
    ∃ ret, rotate l middle = some (l.drop middle ++ l.take middle, ret) ∧
      (ret = l.length - middle ↔ middle = 0 ∨ middle = l.length) := by
  unfold rotate
  split_ifs with h0 hl
  · exact ⟨l.length, by simp [h0], by omega⟩
  · exact ⟨0, by simp [hl], by omega⟩
  · refine ⟨l.length, ?_, by omega⟩
    have hloop := @rotateLoop_eq α l.length middle middle [] (l.take middle) [] (l.drop middle)
      (length_pos_iff.mp (by rw [length_take]; omega)) (length_pos_iff.mp (by rw [length_drop]; omega)) (by simp [hm])
      (by simp) (by simp; omega)
    rw [nil_append, nil_append, append_nil, append_nil, take_append_drop] at hloop
    exact congrArg (Option.map _) hloop

theorem rotate_rearranges_three : ∃ ret, rotate [1, 2, 3] 1 = some ([2, 3, 1], ret) ∧ (ret = 2 ↔ 1 = 0 ∨ 1 = 3) :=
  rotate_rearranges [1, 2, 3] 1 (by decide)

/-- The result is `last` and not the position of the first element. -/
theorem rotate_returns_last : rotate [1, 2, 3] 1 = some ([2, 3, 1], 3) := by decide

end VibeOS.Rotate
