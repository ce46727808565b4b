import Mathlib

/-!
# Address translation with four levels of tables

Memory is a function from the address of a 64-bit word to its value. `translate` is the translation that the processor
makes of a virtual address: four tables of 512 entries, each reached through the entry of the one before, with large
pages at the second and third level. It yields the physical address and whether every entry on the way allows user
mode. The last two levels have names of their own (`dirWalk`, `pageWalk`), so that a statement about one
directory or one table can be made apart from how it is reached.

`fillTable` stores values in consecutive words, as the loops that build such tables do.
-/

namespace VibeOS.PageTable

open Function

abbrev Words := Nat → Nat

/-! ### Entries -/

def present (e : Nat) : Bool := e % 2 == 1

def user (e : Nat) : Bool := e / 4 % 2 == 1

/-- Bit 7 of an entry of the second or third level. -/
def large (e : Nat) : Bool := e / 128 % 2 == 1

/-- Bits 12 to 51 of an entry: the address of the next table or of a page. -/
def frameOf (e : Nat) : Nat := e % 2 ^ 52 / 4096 * 4096

/-! ### The walk -/

/-- The last level: the table at `pt`, reached with the permission `u`. -/
def pageWalk (mem : Words) (pt : Nat) (u : Bool) (va : Nat) : Option (Nat × Bool) :=
  let e := mem (pt + 8 * (va / 2 ^ 12 % 512))
  if present e then some (frameOf e + va % 2 ^ 12, u && user e) else none

/-- The last two levels: the directory at `pd`, reached with the permission `u`. -/
def dirWalk (mem : Words) (pd : Nat) (u : Bool) (va : Nat) : Option (Nat × Bool) :=
  let e := mem (pd + 8 * (va / 2 ^ 21 % 512))
  if present e = false then none
  else if large e then some (e % 2 ^ 52 / 2 ^ 21 * 2 ^ 21 + va % 2 ^ 21, u && user e)
  else pageWalk mem (frameOf e) (u && user e) va

/-- The physical address of a virtual one, and whether user mode may use it. -/
def translate (mem : Words) (cr3 va : Nat) : Option (Nat × Bool) :=
  let e4 := mem (cr3 + 8 * (va / 2 ^ 39 % 512))
  if present e4 = false then none
  else
    let e3 := mem (frameOf e4 + 8 * (va / 2 ^ 30 % 512))
    if present e3 = false then none
    else if large e3 then some (e3 % 2 ^ 52 / 2 ^ 30 * 2 ^ 30 + va % 2 ^ 30, user e4 && user e3)
    else dirWalk mem (frameOf e3) (user e4 && user e3) va

/-- The upper 17 bits of an address are equal. -/
def Canonical (va : Nat) : Prop := va < 2 ^ 47 ∨ 2 ^ 64 - 2 ^ 47 ≤ va ∧ va < 2 ^ 64

section walks

variable {mem mem' : Words} {pd pt cr3 va e : Nat} {u : Bool}

lemma pageWalk_of_entry (h : mem (pt + 8 * (va / 2 ^ 12 % 512)) = e) (hp : present e) :
    pageWalk mem pt u va = some (frameOf e + va % 2 ^ 12, u && user e) := by
  rw [pageWalk, h, if_pos hp]

lemma pageWalk_of_absent (h : present (mem (pt + 8 * (va / 2 ^ 12 % 512))) = false) : pageWalk mem pt u va = none := by
  rw [pageWalk, if_neg (by rw [h]; decide)]

lemma dirWalk_of_table (h : mem (pd + 8 * (va / 2 ^ 21 % 512)) = e) (hp : present e)
    (hl : large e = false) : dirWalk mem pd u va = pageWalk mem (frameOf e) (u && user e) va := by
  rw [dirWalk, h, if_neg (by rw [hp]; decide), if_neg (by rw [hl]; decide)]

lemma translate_of_entries {e4 e3 : Nat} (h4 : mem (cr3 + 8 * (va / 2 ^ 39 % 512)) = e4) (hp4 : present e4)
    (h3 : mem (frameOf e4 + 8 * (va / 2 ^ 30 % 512)) = e3) (hp3 : present e3) (hl : large e3 = false) :
    translate mem cr3 va = dirWalk mem (frameOf e3) (user e4 && user e3) va := by
  rw [translate, h4, if_neg (by rw [hp4]; decide), h3, if_neg (by rw [hp3]; decide), if_neg (by rw [hl]; decide)]

lemma translate_of_absent (h : mem (cr3 + 8 * (va / 2 ^ 39 % 512)) = 0) : translate mem cr3 va = none := by
  rw [translate, h]
  rfl

lemma translate_of_absent_pointer {e4 : Nat} (h4 : mem (cr3 + 8 * (va / 2 ^ 39 % 512)) = e4) (hp4 : present e4)
    (h3 : mem (frameOf e4 + 8 * (va / 2 ^ 30 % 512)) = 0) : translate mem cr3 va = none := by
  rw [translate, h4, if_neg (by rw [hp4]; decide), h3]
  rfl

lemma pageWalk_false {pa : Nat} {v : Bool} (h : pageWalk mem pt false va = some (pa, v)) : v = false := by
  rw [pageWalk] at h
  split_ifs at h
  cases h
  rfl

lemma dirWalk_no_user (hu : user (mem (pd + 8 * (va / 2 ^ 21 % 512))) = false) {pa : Nat} {v : Bool}
    (h : dirWalk mem pd u va = some (pa, v)) : v = false := by
  rw [dirWalk, hu] at h
  rw [Bool.and_false] at h
  split_ifs at h
  · cases h
    rfl
  · exact pageWalk_false h

/-- Where a directory leads depends on its entry and on the table it points to. -/
lemma dirWalk_congr {pd' : Nat} {u' : Bool}
    (he : mem' (pd' + 8 * (va / 2 ^ 21 % 512)) = mem (pd + 8 * (va / 2 ^ 21 % 512)))
    (ht : present (mem (pd + 8 * (va / 2 ^ 21 % 512))) = true → large (mem (pd + 8 * (va / 2 ^ 21 % 512))) = false →
      mem' (frameOf (mem (pd + 8 * (va / 2 ^ 21 % 512))) + 8 * (va / 2 ^ 12 % 512)) =
        mem (frameOf (mem (pd + 8 * (va / 2 ^ 21 % 512))) + 8 * (va / 2 ^ 12 % 512))) :
    (dirWalk mem' pd' u' va).map Prod.fst = (dirWalk mem pd u va).map Prod.fst := by
  rw [dirWalk, dirWalk, he]
  generalize mem (pd + 8 * (va / 2 ^ 21 % 512)) = e at ht
  cases hp : present e with
  | false => rfl
  | true =>
    cases hl : large e with
    | true => rfl
    | false =>
      have hne' : ¬ false = true := by decide
      rw [if_neg hne', if_neg hne', pageWalk, pageWalk, ht hp hl]
      cases present (mem (frameOf e + 8 * (va / 2 ^ 12 % 512))) with
      | false => rfl
      | true => rfl

end walks

/-! ### Entries of aligned addresses -/

section

variable {a f : Nat}

lemma or_flags (ha : 4096 ∣ a) (hf : f < 4096) : a ||| f = a + f := by
  obtain ⟨m, rfl⟩ := ha
  exact (Nat.two_pow_add_eq_or_of_lt (i := 12) hf m).symm

lemma frameOf_flags (ha : 4096 ∣ a) (hlt : a < 2 ^ 52) (hf : f < 4096) : frameOf (a + f) = a := by
  rw [frameOf]
  omega

lemma present_flags (ha : 4096 ∣ a) (hf : f % 2 = 1) : present (a + f) = true := by
  rw [present, beq_iff_eq]
  omega

lemma user_flags (ha : 4096 ∣ a) (f : Nat) : user (a + f) = user f := by
  obtain ⟨m, rfl⟩ := ha
  have h : (4096 * m + f) / 4 % 2 = f / 4 % 2 := by omega
  rw [user, user, h]

lemma large_flags (ha : 4096 ∣ a) (f : Nat) : large (a + f) = large f := by
  obtain ⟨m, rfl⟩ := ha
  have h : (4096 * m + f) / 128 % 2 = f / 128 % 2 := by omega
  rw [large, large, h]

end

/-! ### Loops that fill tables -/

/-- Store `f m k`, computed in the memory so far, in word `k` of the table, for `k` below `n`. -/
def fillTable (table : Nat) (f : Words → Nat → Nat) (mem : Words) : Nat → Words
  | 0 => mem
  | n + 1 => update (fillTable table f mem n) (table + 8 * n) (f (fillTable table f mem n) n)

section fill

variable {table : Nat} {f : Words → Nat → Nat} {mem : Words}

lemma fillTable_of_outside {n a : Nat} (h : a < table ∨ table + 8 * n ≤ a) : fillTable table f mem n a = mem a := by
  induction n with
  | zero => rfl
  | succ n ih =>
    rw [fillTable, update_of_ne (by omega), ih (by omega)]

/-- The value of a word, when what is stored does not depend on the table itself. -/
lemma fillTable_at {g : Nat → Nat} {n k : Nat} (hf : ∀ j < n, f (fillTable table f mem j) j = g j) (hk : k < n) :
    fillTable table f mem n (table + 8 * k) = g k := by
  induction n with
  | zero => omega
  | succ n ih =>
    rw [fillTable]
    by_cases hkn : k = n
    · subst hkn
      rw [update_self, hf k (by omega)]
    · rw [update_of_ne (by omega), ih (fun j hj => hf j (by omega)) (by omega)]

end fill

end VibeOS.PageTable
