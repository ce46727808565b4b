import Mathlib

/-!
# Growable arrays

A list as an array that a write may extend. `overwrite l o d` stores `d` at position `o`, filling the
gap with zeros when `o` is past the end; `length_overwrite` and `getD_overwrite` are all that a proof
needs about it. `window l o n` is what a read of `n` elements at `o` gives. `GrowArray` is such an
array with a record of the positions that were written; the others hold zeros.
-/

namespace VibeOS

open List

namespace Growable

variable {α : Type*} [Zero α]

def overwrite (l : List α) (o : Nat) (d : List α) : List α :=
  (l ++ List.replicate (o - l.length) 0).take o ++ d ++ l.drop (o + d.length)

/-- At most `n` elements from position `o`. -/
def window (l : List α) (o n : Nat) : List α := (l.drop o).take n

@[simp] lemma length_overwrite (l : List α) (o : Nat) (d : List α) :
    (overwrite l o d).length = max l.length (o + d.length) := by
  simp only [overwrite, length_append, length_take, length_replicate, length_drop]
  omega

lemma getD_overwrite (l : List α) (o : Nat) (d : List α) (i : Nat) : (overwrite l o d).getD i 0 =
      if o ≤ i ∧ i < o + d.length then d.getD (i - o) 0 else l.getD i 0 := by
  have hlen : ((l ++ List.replicate (o - l.length) 0).take o).length = o := by
    simp only [length_take, length_append, length_replicate]
    omega
  simp only [overwrite, getD_eq_getElem?_getD, append_assoc]
  split_ifs with h
  · rw [getElem?_append_right (by omega), getElem?_append_left (by omega), hlen]
  · by_cases hi : i < o
    · rw [getElem?_append_left (by omega), getElem?_take_of_lt hi]
      by_cases hil : i < l.length
      · rw [getElem?_append_left hil]
      · rw [getElem?_append_right (by omega), getElem?_eq_none (by omega : l.length ≤ i)]
        rcases h : (List.replicate (o - l.length) (0 : α))[i - l.length]? with _ | x
        · rfl
        · have := mem_of_getElem? h
          rw [eq_of_mem_replicate this]
          rfl
    · rw [getElem?_append_right (by omega), getElem?_append_right (by omega), getElem?_drop, hlen]
      congr 2
      omega

lemma ext_getD {l l' : List α} (hlen : l.length = l'.length)
    (h : ∀ i < l.length, l.getD i 0 = l'.getD i 0) : l = l' := by
  refine ext_getElem hlen fun i h1 h2 => ?_
  have hi := h i h1
  rw [getD_eq_getElem _ _ h1, getD_eq_getElem _ _ h2] at hi
  exact hi

omit [Zero α] in
@[simp] lemma length_window (l : List α) (o n : Nat) : (window l o n).length = min n (l.length - o) := by
  simp [window]

end Growable

open Growable

/-- An array that grows, with the positions written since it was last emptied. -/
structure GrowArray (α : Type*) [Zero α] where
  items : List α
  written : Nat → Bool
  unwritten : ∀ i, written i = false → items.getD i 0 = 0

namespace GrowArray

variable {α : Type*} [Zero α]

def empty : GrowArray α where
  items := []
  written _ := false
  unwritten _ _ := rfl

/-- An array whose elements all count as written. -/
def ofList (l : List α) : GrowArray α where
  items := l
  written i := decide (i < l.length)
  unwritten _ h := getD_eq_default _ _ (Nat.le_of_not_lt (of_decide_eq_false h))

def write (a : GrowArray α) (o : Nat) (d : List α) : GrowArray α where
  items := overwrite a.items o d
  written i := decide (o ≤ i ∧ i < o + d.length) || a.written i
  unwritten i h := by
    simp only [Bool.or_eq_false_iff, decide_eq_false_iff_not] at h
    rw [getD_overwrite, if_neg h.1]
    exact a.unwritten i h.2

lemma window_unwritten (a : GrowArray α) (o n : Nat) {j : Nat}
    (h : a.written (o + j) = false) : (window a.items o n).getD j 0 = 0 := by
  by_cases hj : j < n
  · rw [window, getD_eq_getElem?_getD, getElem?_take_of_lt hj, getElem?_drop, ← getD_eq_getElem?_getD]
    exact a.unwritten _ h
  · rw [getD_eq_default _ _ (by rw [length_window]; omega)]

end GrowArray

end VibeOS
