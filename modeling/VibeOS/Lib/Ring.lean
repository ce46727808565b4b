import Mathlib

/-!
# Ring buffers

A ring of `size` cells holds a queue: `ringList data size t n` are the `n` entries from position `t` on, and positions
count on past the end of the ring, so that a position is only taken modulo `size` when a cell is read or written.
`RingPut` says what storing a list from a position on does, however it is done; behind a queue with enough room this
is an append (`ringList_put`), and reading is a split of the list (`ringList_add`).
-/

namespace VibeOS

open List Function

variable {α : Type*} {data data' : Nat → α} {size : Nat}

/-- The `n` entries from position `t` on. -/
def ringList (data : Nat → α) (size t n : Nat) : List α := (List.range n).map fun i => data ((t + i) % size)

/-- From `data` to `data'` the list was stored from position `p` on, and nothing else. -/
structure RingPut (data data' : Nat → α) (size p : Nat) (l : List α) : Prop where
  stored : ∀ i (h : i < l.length), data' ((p + i) % size) = l[i]
  kept : ∀ j < size, (∀ i < l.length, j ≠ (p + i) % size) → data' j = data j

@[simp] lemma length_ringList (t n : Nat) : (ringList data size t n).length = n := by simp [ringList]

lemma ringList_add (t m n : Nat) :
    ringList data size t (m + n) = ringList data size t m ++ ringList data size (t + m) n := by
  simp only [ringList, range_add, map_append, map_map]
  congr 1
  apply map_congr_left
  intro i _
  simp only [comp_apply, add_assoc]

lemma ringList_congr {t t' : Nat} (n : Nat) (h : t % size = t' % size) :
    ringList data size t n = ringList data size t' n := by
  apply map_congr_left
  intro i _
  rw [Nat.add_mod t, h, ← Nat.add_mod]

lemma ringList_take_drop {t m n : Nat} (h : m ≤ n) : ringList data size t m = (ringList data size t n).take m ∧
    ringList data size (t + m) (n - m) = (ringList data size t n).drop m := by
  have hsplit : ringList data size t (m + (n - m)) =
      ringList data size t m ++ ringList data size (t + m) (n - m) := ringList_add t m (n - m)
  rw [Nat.add_sub_cancel' h] at hsplit
  rw [hsplit]
  constructor
  · rw [take_left' (length_ringList t m)]
  · rw [drop_left' (length_ringList t m)]

lemma ring_cell_ne {t i j : Nat} (hi : i < j) (hj : j < i + size) : (t + i) % size ≠ (t + j) % size := by
  intro h
  have hdvd : size ∣ (t + j) - (t + i) := (Nat.modEq_iff_dvd' (by omega)).mp h
  have := Nat.le_of_dvd (by omega) hdvd
  omega

lemma ringList_put {t n : Nat} {l : List α} (h : RingPut data data' size (t + n) l) (hroom : n + l.length ≤ size) :
    ringList data' size t (n + l.length) = ringList data size t n ++ l := by
  rw [ringList_add]
  congr 1
  · apply map_congr_left
    intro i hi
    have hin := mem_range.mp hi
    have hsize : 0 < size := by omega
    refine h.kept _ (Nat.mod_lt _ hsize) fun k hk => ?_
    rw [add_assoc]
    exact ring_cell_ne (by omega) (by omega)
  · apply ext_getElem
    · rw [length_ringList]
    · intro i hi hi'
      simp only [ringList, getElem_map, getElem_range]
      exact h.stored i hi'

lemma RingPut.congr {p p' : Nat} {l : List α} (h : RingPut data data' size p l) (hp : p % size = p' % size) :
    RingPut data data' size p' l := by
  have hcell : ∀ i, (p' + i) % size = (p + i) % size := by
    intro i
    rw [Nat.add_mod, ← hp, ← Nat.add_mod]
  refine ⟨fun i hi => ?_, fun j hj hne => h.kept j hj fun i hi => ?_⟩
  · rw [hcell]
    exact h.stored i hi
  · rw [← hcell]
    exact hne i hi

lemma RingPut.nil (data : Nat → α) (size p : Nat) : RingPut data data size p [] :=
  ⟨fun i h => absurd h (Nat.not_lt_zero i), fun _ _ _ => rfl⟩

lemma RingPut.cons {p : Nat} {x : α} {l : List α} (hsize : l.length < size)
    (h : RingPut (update data (p % size) x) data' size (p + 1) l) : RingPut data data' size p (x :: l) := by
  have hne : ∀ i < l.length, (p + 0) % size ≠ (p + (i + 1)) % size := fun i hi =>
    ring_cell_ne (by omega) (by omega)
  refine ⟨fun i hi => ?_, fun j hj hk => ?_⟩
  · cases i with
    | zero =>
      have hkept := h.kept (p % size) (Nat.mod_lt _ (by omega)) fun k hk => by
        have := hne k hk
        rwa [add_zero, Nat.add_comm k 1, ← add_assoc] at this
      rw [add_zero, hkept, update_self]
      rfl
    | succ i =>
      rw [length_cons] at hi
      have hstored := h.stored i (by omega)
      rw [add_assoc, Nat.add_comm 1 i] at hstored
      exact hstored
  · have hp : j ≠ p % size := by simpa using hk 0 (by simp)
    have hrest : ∀ i < l.length, j ≠ (p + 1 + i) % size := by
      intro i hi
      have := hk (i + 1) (by simpa using hi)
      rwa [Nat.add_comm i 1, ← add_assoc] at this
    rw [h.kept j hj hrest, update_of_ne hp]

end VibeOS
