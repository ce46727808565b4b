import VibeOS.Lib.Bytes

/-!
# 64-bit fields of a memory

`getU64` and `putU64` read and store a little-endian 64-bit field as a natural number; storing wraps
around at `2 ^ 64`.
-/

namespace VibeOS

namespace Buf

def getU64 (b : Buf) (o : Nat) : Nat := (getU32 b o).toNat + 2 ^ 32 * (getU32 b (o + 4)).toNat

/-- Store a 64-bit field; larger numbers wrap around. -/
def putU64 (b : Buf) (o v : Nat) : Buf :=
  (b.putU32 o (UInt32.ofNat v)).putU32 (o + 4) (UInt32.ofNat (v / 2 ^ 32))

@[simp] lemma getU64_putU64 (b : Buf) (o v : Nat) : getU64 (putU64 b o v) o = v % 2 ^ 64 := by
  rw [getU64, putU64, getU32_putU32_of_ne (by omega), getU32_putU32, getU32_putU32,
    UInt32.toNat_ofNat', UInt32.toNat_ofNat']
  omega

lemma putU64_of_not_mem {b : Buf} {o v i : Nat} (h : ¬ (o ≤ i ∧ i < o + 8)) : putU64 b o v i = b i := by
  rw [putU64, putU32, blit_of_not_mem (by omega), putU32, blit_of_not_mem (by omega)]

lemma getU64_congr {b b' : Buf} {o : Nat} (h : ∀ k < 8, b (o + k) = b' (o + k)) : getU64 b o = getU64 b' o := by
  have h0 : getU32 b o = getU32 b' o := getU32_congr fun k hk => h k (by omega)
  have h1 : getU32 b (o + 4) = getU32 b' (o + 4) := getU32_congr fun k hk => by
    rw [add_assoc]
    exact h (4 + k) (by omega)
  rw [getU64, getU64, h0, h1]

variable {b : Buf} {o q v : Nat}

lemma getU64_putU64_apart (h : q + 8 ≤ o ∨ o + 8 ≤ q) : getU64 (putU64 b o v) q = getU64 b q :=
  getU64_congr fun k hk => putU64_of_not_mem (by omega)

lemma getU32_putU64_apart (h : q + 4 ≤ o ∨ o + 8 ≤ q) : getU32 (putU64 b o v) q = getU32 b q :=
  getU32_congr fun k hk => putU64_of_not_mem (by omega)

lemma getU64_putU32_apart {w : UInt32} (h : q + 8 ≤ o ∨ o + 4 ≤ q) : getU64 (putU32 b o w) q = getU64 b q :=
  getU64_congr fun k hk => blit_of_not_mem (by omega)

end Buf

end VibeOS
