import Mathlib

/-!
# Vectors and strings

The containers of the C++ headers. A `vector` has its elements in cells of its storage, and a reference into it is the
number of the storage and an index: growth makes a new storage, and reading a cell that was moved away, destroyed or
freed gives `none`. An argument that refers to an element is read after the growth and the shift, so it is right only
when neither concerns it. `find` adds the position and the length of the needle as 64-bit numbers.
-/

namespace VibeOS.Containers

open List Option Function

/-! ### Search -/

def npos : Nat := 2 ^ 64 - 1

section find

variable {α : Type} [DecidableEq α]

/-- The comparison of the characters from `i` on with a needle, up to the first difference. -/
def compareAt (s : List α) : Nat → List α → Option Bool
  | _, [] => some true
  | i, c :: needle => s[i]?.bind fun d => if d = c then compareAt s (i + 1) needle else some false

/-- Source: `user/libc/include/string` `basic_string::find`, the loop -/
def findLoop (s needle : List α) : Nat → Nat → Option Nat
  | 0, _ => none
  | fuel + 1, i =>
    if (i + needle.length) % 2 ^ 64 ≤ s.length then
      (compareAt s i needle).bind fun eq => if eq then some i else findLoop s needle fuel ((i + 1) % 2 ^ 64)
    else some npos

/-- A read outside of `s` gives `none`.
Source: `user/libc/include/string` `basic_string::find`, `user/libc/include/string_view` `basic_string_view::find` -/
def find (s needle : List α) (pos : Nat) : Option Nat :=
  if needle.length = 0 then some (if pos ≤ s.length then pos else npos)
  else if needle.length > s.length then some npos
  else findLoop s needle (s.length + 1) pos

def Occurs (s needle : List α) (i : Nat) : Prop := i + needle.length ≤ s.length ∧ needle <+: s.drop i

/-- The first place from `pos` on, or `npos`. -/
def FirstFrom (s needle : List α) (pos r : Nat) : Prop :=
  (pos ≤ r ∧ Occurs s needle r ∧ ∀ j, pos ≤ j → Occurs s needle j → r ≤ j) ∨
    (r = npos ∧ ∀ j, pos ≤ j → ¬ Occurs s needle j)

variable {s needle : List α} {i pos : Nat}

lemma compareAt_eq (h : i + needle.length ≤ s.length) : compareAt s i needle = some (decide (needle <+: s.drop i)) := by
  induction needle generalizing i with
  | nil => simp [compareAt]
  | cons c needle ih =>
    rw [length_cons] at h
    have hi : i < s.length := by omega
    rw [compareAt, getElem?_eq_getElem hi, bind_some, drop_eq_getElem_cons hi]
    by_cases hc : s[i] = c
    · rw [if_pos hc, ih (by omega)]
      simp [cons_prefix_cons, hc]
    · have hnot : ¬ c :: needle <+: s[i] :: s.drop (i + 1) := fun hp => hc (cons_prefix_cons.mp hp).1.symm
      rw [if_neg hc, decide_eq_false hnot]

lemma findLoop_spec (hs : s.length + 1 < 2 ^ 64) (hn : 0 < needle.length) {fuel : Nat}
    (hi : i + needle.length < 2 ^ 64) (hfuel : s.length + 1 < fuel + i + needle.length) (hpos : 0 < fuel) :
    ∃ r, findLoop s needle fuel i = some r ∧ FirstFrom s needle i r := by
  induction fuel generalizing i with
  | zero => omega
  | succ fuel ih =>
    rw [findLoop, Nat.mod_eq_of_lt hi]
    by_cases hle : i + needle.length ≤ s.length
    · rw [if_pos hle, compareAt_eq hle, bind_some]
      by_cases hp : needle <+: s.drop i
      · exact ⟨i, if_pos (decide_eq_true hp), .inl ⟨le_rfl, ⟨hle, hp⟩, fun j hj _ => hj⟩⟩
      · have hnot : ∀ j, i ≤ j → Occurs s needle j → i + 1 ≤ j := fun j hj ho => by
          rcases Nat.eq_or_lt_of_le hj with rfl | h
          · exact absurd ho.2 hp
          · exact h
        obtain ⟨r, hr, hfirst⟩ := ih (i := i + 1) (by omega) (by omega) (by omega)
        refine ⟨r, ?_, ?_⟩
        · rw [decide_eq_false hp, if_neg Bool.false_ne_true, Nat.mod_eq_of_lt (by omega), hr]
        · rcases hfirst with ⟨h1, h2, h3⟩ | ⟨h1, h2⟩
          · exact .inl ⟨by omega, h2, fun j hj ho => h3 j (hnot j hj ho) ho⟩
          · exact .inr ⟨h1, fun j hj ho => h2 j (hnot j hj ho) ho⟩
    · rw [if_neg hle]
      exact ⟨npos, rfl, .inr ⟨rfl, fun j hj ho => hle (by have := ho.1; omega)⟩⟩

/-- A needle that goes beyond the end of `s` does not match, or is compared with what is not there. -/
lemma compareAt_outside (hn : needle ≠ []) (h : s.length < i + needle.length) :
    compareAt s i needle = none ∨ i < s.length ∧ compareAt s i needle = some false := by
  induction needle generalizing i with
  | nil => exact absurd rfl hn
  | cons c needle ih =>
    rw [compareAt]
    by_cases hi : i < s.length
    · rw [getElem?_eq_getElem hi, bind_some]
      rw [length_cons] at h
      split_ifs with hc
      · have hne : needle ≠ [] := by rintro rfl; simp at h; omega
        exact (ih hne (by omega)).imp_right fun hr => ⟨hi, hr.2⟩
      · exact .inr ⟨hi, rfl⟩
    · exact .inl (by rw [getElem?_eq_none (by omega), bind_none])

/-- Where the sum wraps, the loop goes on until it reads outside of `s`. -/
lemma findLoop_wrapped (hs : s.length + 1 < 2 ^ 64) (hn : needle ≠ []) (hle : needle.length ≤ s.length) {fuel : Nat}
    (hi : i < 2 ^ 64) (hwrap : 2 ^ 64 ≤ i + needle.length) : findLoop s needle fuel i = none := by
  induction fuel generalizing i with
  | zero => rfl
  | succ fuel ih =>
    rw [findLoop, if_pos (by omega)]
    rcases compareAt_outside hn (show s.length < i + needle.length by omega) with hc | ⟨hlt, hc⟩
    · rw [hc, bind_none]
    · rw [hc, bind_some, if_neg Bool.false_ne_true, Nat.mod_eq_of_lt (by omega)]
      exact ih (by omega) (by omega)

lemma find_wrapped (hs : s.length + 1 < 2 ^ 64) (hpos : pos < 2 ^ 64) (hwrap : 2 ^ 64 ≤ pos + needle.length)
    (hle : needle.length ≤ s.length) : find s needle pos = none := by
  have hn : needle ≠ [] := by rintro rfl; simp at hwrap; omega
  rw [find, if_neg (by simpa using hn), if_neg (by omega)]
  exact findLoop_wrapped hs hn hle hpos hwrap

/-- The search is right exactly when the position and the length of the needle have a sum below `2 ^ 64`, or the
needle is too long to be searched for. -/
theorem find_first (s needle : List α) (pos : Nat) (hs : s.length + 1 < 2 ^ 64) (hpos : pos < 2 ^ 64) :
    (∃ r, find s needle pos = some r ∧ FirstFrom s needle pos r) ↔
      pos + needle.length < 2 ^ 64 ∨ s.length < needle.length := by
  refine ⟨fun ⟨r, hr, _⟩ => ?_, fun h => ?_⟩
  · by_contra hnot
    rw [find_wrapped hs hpos (by omega) (by omega)] at hr
    cases hr
  rw [find]
  by_cases h0 : needle.length = 0
  · obtain rfl := eq_nil_of_length_eq_zero h0
    split_ifs with hle
    · exact ⟨pos, rfl, .inl ⟨le_rfl, ⟨hle, nil_prefix⟩, fun j hj _ => hj⟩⟩
    · exact ⟨npos, rfl, .inr ⟨rfl, fun j hj ho => hle (hj.trans ho.1)⟩⟩
  · rw [if_neg h0]
    by_cases hlong : needle.length > s.length
    · rw [if_pos hlong]
      exact ⟨npos, rfl, .inr ⟨rfl, fun j _ ho => by have := ho.1; omega⟩⟩
    · rw [if_neg hlong]
      exact findLoop_spec hs (by omega) (by omega) (by omega) (by omega)

theorem find_first_b : ∃ r, find [97, 98] [98] 1 = some r ∧ FirstFrom [97, 98] [98] 1 r :=
  (find_first [97, 98] [98] 1 (by decide) (by decide)).mpr (.inl (by decide))

/-- From `npos` on the bound of the loop wraps to 0, and the character before the string is read. -/
theorem find_reads_outside : find [97] [97] npos = none := by
  decide

end find

/-! ### Storage -/

/-- Where an argument is: outside of the container, or in a cell of one of its storages. -/
inductive Ref (α : Type) where
  | value (v : α)
  | cell (store k : Nat)

/-- `data_` with its number and its live cells, `size_` and `cap_`. -/
structure Storage (α : Type) where
  store : Nat := 0
  cells : Nat → Option α := fun _ => none
  size : Nat := 0
  cap : Nat := 0

variable {α : Type}

def Storage.read (v : Storage α) : Ref α → Option α
  | .value x => some x
  | .cell store k => if store = v.store then v.cells k else none

/-- The elements move to a new storage and the old one is freed.
Source: `user/libc/include/vector` -/
def Storage.reallocate (v : Storage α) (ncap : Nat) : Storage α :=
  { v with store := v.store + 1, cells := fun j => if j < v.size then v.cells j else none, cap := ncap }

/-- Source: `user/libc/include/vector` -/
def growTo (v : Storage α) (need : Nat) : Storage α :=
  let ncap := if v.cap ≠ 0 then v.cap * 2 else 4
  v.reallocate (if ncap < need then need else ncap)

def room (v : Storage α) : Storage α := if v.size = v.cap then growTo v (v.size + 1) else v

/-- The cells from `idx` on move up by `count`, the last of `n` first.
Source: `user/libc/include/vector` -/
def shiftRight (idx count : Nat) : Nat → (Nat → Option α) → Nat → Option α
  | 0, cells => cells
  | n + 1, cells => shiftRight idx count n (update (update cells (idx + n + count) (cells (idx + n))) (idx + n) none)

/-- Source: `user/libc/include/vector` `vector::insert`, `vector::emplace` -/
def insert (v : Storage α) (idx : Nat) (arg : Ref α) : Option (Storage α) :=
  let w := { room v with cells := shiftRight idx 1 (v.size - idx) (room v).cells }
  (w.read arg).map fun x => { w with cells := update w.cells idx (some x), size := v.size + 1 }

/-- Each of `n` cells from `idx` on takes the element behind it. -/
def moveDown (idx : Nat) : Nat → (Nat → Option α) → Nat → Option α
  | 0, cells => cells
  | n + 1, cells =>
    update (update (moveDown idx n cells) (idx + n) (moveDown idx n cells (idx + n + 1))) (idx + n + 1) none

/-- Source: `user/libc/include/vector` -/
def erase (v : Storage α) (idx : Nat) : Storage α :=
  { v with cells := moveDown idx (v.size - 1 - idx) (update v.cells idx none), size := v.size - 1 }

/-- The cells hold the list, and nothing behind it. -/
structure Storage.Holds (v : Storage α) (l : List α) : Prop where
  cells : ∀ j, v.cells j = l[j]?
  size : v.size = l.length

variable {v : Storage α} {l : List α} {idx k : Nat} {arg : Ref α} {x : α}

lemma room_holds (h : v.Holds l) : (room v).Holds l := by
  rw [room]
  split_ifs
  · refine ⟨fun j => ?_, h.size⟩
    change (if j < v.size then v.cells j else none) = _
    rw [h.cells, h.size]
    split_ifs with hj
    · rfl
    · rw [getElem?_eq_none (by omega)]
  · exact h

lemma shiftRight_one (n : Nat) (cells : Nat → Option α) (j : Nat) : shiftRight idx 1 n cells j =
    if idx < j ∧ j ≤ idx + n then cells (j - 1) else if j = idx ∧ 0 < n then none else cells j := by
  induction n generalizing cells with
  | zero => rw [shiftRight, if_neg (by omega), if_neg (by omega)]
  | succ n ih =>
    rw [shiftRight, ih]
    simp only [update_apply]
    split_ifs <;> first | omega | rfl | exact congrArg cells (by omega)

/-- After the shift the cells below the position are as they were. -/
lemma insert_spec (h : v.Holds l) (hidx : idx ≤ l.length)
    (hx : ({ room v with cells := shiftRight idx 1 (v.size - idx) (room v).cells } : Storage α).read arg = some x) :
    ∃ v', insert v idx arg = some v' ∧ v'.Holds (l.insertIdx idx x) := by
  refine ⟨_, by rw [insert]; dsimp only; rw [hx, map_some], fun j => ?_, ?_⟩
  · change update (shiftRight idx 1 (v.size - idx) (room v).cells) idx (some x) j = _
    rw [getElem?_insertIdx]
    by_cases hj : j = idx
    · rw [hj, update_self, if_neg (lt_irrefl _), if_pos rfl, if_pos hidx]
    · rw [update_of_ne hj, shiftRight_one, (room_holds h).cells, (room_holds h).cells, h.size]
      by_cases hlt : j < idx
      · rw [if_neg (by omega), if_neg (by omega), if_pos hlt]
      · rw [if_neg hlt, if_neg hj]
        by_cases hle : j ≤ l.length
        · rw [if_pos (by omega)]
        · rw [if_neg (by omega), if_neg (by omega), getElem?_eq_none (by omega), getElem?_eq_none (by omega)]
  · rw [length_insertIdx_of_le_length hidx, h.size]

lemma moveDown_apply (idx n : Nat) (cells : Nat → Option α) (j : Nat) : moveDown idx n cells j =
    if idx ≤ j ∧ j < idx + n then cells (j + 1) else if j = idx + n ∧ 0 < n then none else cells j := by
  induction n generalizing j with
  | zero => rw [moveDown, if_neg (by omega), if_neg (by omega)]
  | succ n ih =>
    rw [moveDown]
    simp only [update_apply, ih]
    split_ifs <;> first | omega | rfl | exact congrArg cells (by omega)

lemma erase_holds {i : Nat} (hv : v.Holds l) (hi : i < l.length) : (erase v i).Holds (l.eraseIdx i) := by
  refine ⟨fun j => ?_, ?_⟩
  · change moveDown i (v.size - 1 - i) (update v.cells i none) j = _
    rw [moveDown_apply, getElem?_eraseIdx, update_apply, update_apply, hv.cells, hv.cells, hv.size]
    split_ifs <;> first | omega | rfl | exact (getElem?_eq_none (by omega)).symm | skip
    all_goals rw [getElem?_eq_none (by omega), getElem?_eq_none (by omega)]
  · change v.size - 1 = _
    rw [hv.size, length_eraseIdx_of_lt hi]

/-! ### Strings -/

/-- The characters and the NUL move to a new buffer. A string without a buffer has the capacity 0.
Source: `user/libc/include/string` `basic_string::ensure`, `basic_string::reallocate` -/
def ensure (s : Storage UInt8) (need : Nat) : Storage UInt8 :=
  if need ≤ s.cap then s
  else
    let ncap := if s.cap ≠ 0 then s.cap * 2 else 16
    let w := s.reallocate (if ncap < need then need else ncap)
    { w with cells := update w.cells w.size (some 0) }

/-- The first `n` characters from a cell on go behind the string.
Source: `user/libc/include/string` -/
def copyChars (s : Storage UInt8) (store k : Nat) : Nat → Option (Nat → Option UInt8)
  | 0 => some s.cells
  | n + 1 =>
    (copyChars s store k n).bind fun cells =>
      (({ s with cells := cells } : Storage UInt8).read (.cell store (k + n))).map fun c =>
        update cells (s.size + n) (some c)

/-- Source: `user/libc/include/string` -/
def append (s : Storage UInt8) (store k n : Nat) : Option (Storage UInt8) :=
  if n = 0 then some s
  else
    let w := ensure s (s.size + n)
    (copyChars w store k n).map fun cells =>
      { w with cells := update cells (s.size + n) (some 0), size := s.size + n }

variable {s : Storage UInt8} {t : List UInt8} {n : Nat}

end VibeOS.Containers
