import Mathlib

/-!
# Byte buffers

A buffer is a total function from offsets to bytes; a C object of `n` bytes is the part of the
function below `n`. Two operations build every other one:

* `blit dst o n src` copies the first `n` bytes of `src` to offset `o` of `dst` (`memcpy`);
* `slice b o n` is the list of the `n` bytes from offset `o` on.

Little-endian fields are read with `getU16`/`getU32` and written with `putU16`/`putU32`. The
lemmas come in pairs: what a write puts is read back (`getU32_putU32`), and what it does not
cover is left alone (`blit_of_not_mem` and the congruence lemmas `getU32_congr`, `slice_congr`).
-/

namespace VibeOS

open List

abbrev Buf := Nat → UInt8

variable {dst src b b' : Buf}
variable {o n i o' : Nat}

namespace Buf

def zero : Buf := fun _ => 0

/-- `memcpy(dst + o, src, n)`. -/
def blit (dst : Buf) (o n : Nat) (src : Buf) : Buf := fun i =>
  if o ≤ i ∧ i < o + n then src (i - o) else dst i

/-- A list of bytes as a buffer, zero past its end. -/
def ofList (l : List UInt8) : Buf := fun k => l.getD k 0

variable (b)

/-- The `n` bytes from offset `o` on. -/
def slice (o n : Nat) : List UInt8 := (List.range n).map fun k => b (o + k)

/-- The little-endian bytes of a 16-bit value. -/
def le16 (v : UInt16) : Buf := fun k => UInt8.ofNat (v.toNat / 256 ^ k)

/-- The little-endian bytes of a 32-bit value. -/
def le32 (v : UInt32) : Buf := fun k => UInt8.ofNat (v.toNat / 256 ^ k)

/-- The 16-bit little-endian field at offset `o`. -/
def getU16 (o : Nat) : UInt16 :=
  UInt16.ofNat ((b o).toNat + 256 * (b (o + 1)).toNat)

/-- The 32-bit little-endian field at offset `o`. -/
def getU32 (o : Nat) : UInt32 :=
  UInt32.ofNat ((b o).toNat + 256 * (b (o + 1)).toNat + 65536 * (b (o + 2)).toNat + 16777216 * (b (o + 3)).toNat)

def putU8 (o : Nat) (v : UInt8) : Buf := blit b o 1 fun _ => v

def putU16 (o : Nat) (v : UInt16) : Buf := blit b o 2 (le16 v)

def putU32 (o : Nat) (v : UInt32) : Buf := blit b o 4 (le32 v)

def putList (o : Nat) (l : List UInt8) : Buf := blit b o l.length (ofList l)

/-! ### Copies -/

lemma blit_of_mem (h1 : o ≤ i) (h2 : i < o + n) : blit dst o n src i = src (i - o) := if_pos ⟨h1, h2⟩

lemma blit_of_not_mem (h : ¬ (o ≤ i ∧ i < o + n)) : blit dst o n src i = dst i := if_neg h

lemma blit_add {k : Nat} (h : k < n) : blit dst o n src (o + k) = src k := by
  rw [blit_of_mem (by omega) (by omega)]
  congr 1
  omega

lemma blit_congr {src' : Buf} (h : ∀ k < n, src k = src' k) : blit dst o n src = blit dst o n src' := by
  funext i
  by_cases hi : o ≤ i ∧ i < o + n
  · rw [blit_of_mem hi.1 hi.2, blit_of_mem hi.1 hi.2, h _ (by omega)]
  · rw [blit_of_not_mem hi, blit_of_not_mem hi]

/-! ### Slices and lists -/

@[simp] lemma length_slice (o n : Nat) : (slice b o n).length = n := by simp [slice]

@[simp] lemma slice_zero (o : Nat) : slice b o 0 = [] := rfl

lemma getElem_slice (o n k : Nat) (h : k < (slice b o n).length) : (slice b o n)[k] = b (o + k) := by simp [slice]

variable {b}

lemma slice_congr (h : ∀ k < n, b (o + k) = b' (o' + k)) : slice b o n = slice b' o' n := by
  apply map_congr_left
  intro k hk
  exact h k (mem_range.mp hk)

lemma slice_eq_iff {l : List UInt8} : slice b o n = l ↔ l.length = n ∧ ∀ k < n, b (o + k) = l.getD k 0 := by
  constructor
  · rintro rfl
    refine ⟨length_slice b o n, fun k hk => ?_⟩
    have hk' : k < (slice b o n).length := by rw [length_slice]; exact hk
    rw [getD_eq_getElem _ _ hk', getElem_slice]
  · rintro ⟨hl, h⟩
    apply ext_getElem
    · rw [length_slice, hl]
    · intro k hk1 hk2
      rw [getElem_slice, h k (by omega), getD_eq_getElem _ _ hk2]

lemma slice_append (b : Buf) (o m n : Nat) : slice b o (m + n) = slice b o m ++ slice b (o + m) n := by
  simp only [slice, range_add, map_append, map_map]
  congr 1
  apply map_congr_left
  intro k _
  simp only [Function.comp_apply, add_assoc]

lemma slice_putList (b : Buf) (o : Nat) (l : List UInt8) : slice (putList b o l) o l.length = l := by
  rw [slice_eq_iff]
  refine ⟨rfl, fun k hk => ?_⟩
  rw [putList, blit_add hk, ofList]

lemma putList_of_not_mem {l : List UInt8}
    (h : ¬ (o ≤ i ∧ i < o + l.length)) : putList b o l i = b i := blit_of_not_mem h

/-! ### Little-endian fields -/

lemma getU16_toNat (b : Buf) (o : Nat) : (getU16 b o).toNat = (b o).toNat + 256 * (b (o + 1)).toNat := by
  have h0 := (b o).toNat_lt
  have h1 := (b (o + 1)).toNat_lt
  rw [getU16, UInt16.toNat_ofNat_of_lt' (by simp only [UInt16.size]; omega)]

lemma getU32_toNat (b : Buf) (o : Nat) :
    (getU32 b o).toNat = (b o).toNat + 256 * (b (o + 1)).toNat + 65536 * (b (o + 2)).toNat +
      16777216 * (b (o + 3)).toNat := by
  have h0 := (b o).toNat_lt
  have h1 := (b (o + 1)).toNat_lt
  have h2 := (b (o + 2)).toNat_lt
  have h3 := (b (o + 3)).toNat_lt
  rw [getU32, UInt32.toNat_ofNat_of_lt' (by simp only [UInt32.size]; omega)]

lemma getU16_congr (h : ∀ k < 2, b (o + k) = b' (o' + k)) : getU16 b o = getU16 b' o' := by
  have h0 : b o = b' o' := h 0 (by omega)
  have h1 := h 1 (by omega)
  simp only [getU16, h0, h1]

lemma getU32_congr (h : ∀ k < 4, b (o + k) = b' (o' + k)) : getU32 b o = getU32 b' o' := by
  have h0 : b o = b' o' := h 0 (by omega)
  have h1 := h 1 (by omega)
  have h2 := h 2 (by omega)
  have h3 := h 3 (by omega)
  simp only [getU32, h0, h1, h2, h3]

lemma getU16_le16 (v : UInt16) : getU16 (le16 v) 0 = v := by
  apply UInt16.toNat_inj.mp
  have hv := v.toNat_lt
  rw [getU16_toNat]
  simp only [le16, UInt8.toNat_ofNat', Nat.pow_zero, zero_add, Nat.pow_one]
  omega

lemma getU32_le32 (v : UInt32) : getU32 (le32 v) 0 = v := by
  apply UInt32.toNat_inj.mp
  have hv := v.toNat_lt
  rw [getU32_toNat]
  simp only [le32, UInt8.toNat_ofNat', Nat.pow_zero, zero_add, Nat.pow_one]
  omega

@[simp] lemma getU16_putU16 (b : Buf) (o : Nat) (v : UInt16) : getU16 (putU16 b o v) o = v := by
  rw [← getU16_le16 v]
  exact getU16_congr fun k hk => by rw [putU16, blit_add hk, getU16_le16, zero_add]

@[simp] lemma getU32_putU32 (b : Buf) (o : Nat) (v : UInt32) : getU32 (putU32 b o v) o = v := by
  rw [← getU32_le32 v]
  exact getU32_congr fun k hk => by rw [putU32, blit_add hk, getU32_le32, zero_add]

lemma getU32_blit {p : Nat} (h : p + 4 ≤ o ∨ o + n ≤ p) : getU32 (blit b o n src) p = getU32 b p :=
  getU32_congr fun _ _ => blit_of_not_mem (by omega)

lemma getU32_putU32_of_ne {p : Nat} {v : UInt32} (h : p + 4 ≤ o ∨ o + 4 ≤ p) :
    getU32 (putU32 b o v) p = getU32 b p := getU32_blit h

lemma getU32_zero (o : Nat) : getU32 zero o = 0 := rfl

end Buf

end VibeOS
