import Mathlib

/-!
# Signed machine integers

A signed integer is an `Int`; `wrap32` is the value a 32-bit one has after an operation, and is the identity on the
values that fit. Division and remainder of the language truncate: `truncDiv_floor` is the usual correction of a
negative remainder, which gives floor division.
-/

namespace VibeOS

/-- The two's-complement value of 32 bits. -/
def wrap32 (x : Int) : Int := (x + 2147483648) % 4294967296 - 2147483648

/-- The two's-complement value of 64 bits. -/
def wrap64 (x : Int) : Int := (x + 9223372036854775808) % 18446744073709551616 - 9223372036854775808

def Fits32 (x : Int) : Prop := -2147483648 ≤ x ∧ x < 2147483648

instance Fits32.instDecidable (x : Int) : Decidable (Fits32 x) := inferInstanceAs (Decidable (_ ∧ _))

lemma wrap32_fits (x : Int) : Fits32 (wrap32 x) := by
  unfold Fits32 wrap32
  omega

lemma wrap32_of_fits {x : Int} (h : Fits32 x) : wrap32 x = x := by
  unfold Fits32 at h
  unfold wrap32
  omega

/-- The remainder of truncating division, moved up where it is negative. -/
def truncDiv (t n : Int) : Int × Int :=
  let q := t.tdiv n
  let r := t.tmod n
  if r < 0 then (q - 1, r + n) else (q, r)

lemma tdiv_of_nonneg {t : Int} (n : Int) (h : 0 ≤ t) : t.tdiv n = t / n := by
  rw [Int.tdiv_eq_ediv, if_pos (Or.inl h), add_zero]

lemma tmod_of_nonneg {t : Int} (n : Int) (h : 0 ≤ t) : t.tmod n = t % n := by
  rw [Int.tmod_eq_emod, if_pos (Or.inl h)]
  simp

lemma tmod_eq_zero_iff (t n : Int) : t.tmod n = 0 ↔ t % n = 0 := by
  rw [← Int.dvd_iff_tmod_eq_zero, Int.dvd_iff_emod_eq_zero]

lemma tdiv_between {s n a b : Int} (hn : 0 < n) (ha : 0 ≤ a) (hb : 0 ≤ b) (hlow : -(a * n) ≤ s) (hhigh : s ≤ b * n) :
    -a ≤ s.tdiv n ∧ s.tdiv n ≤ b := by
  rcases le_total 0 s with hs | hs
  · rw [tdiv_of_nonneg n hs]
    have h0 : 0 ≤ s / n := Int.ediv_nonneg hs hn.le
    have hle : s / n ≤ b := Int.ediv_le_of_le_mul hn hhigh
    omega
  · have hneg : s.tdiv n = -(-s / n) := by
      rw [← tdiv_of_nonneg n (by omega), Int.neg_tdiv, neg_neg]
    have h0 : 0 ≤ -s / n := Int.ediv_nonneg (by omega) hn.le
    have hle : -s / n ≤ a := Int.ediv_le_of_le_mul hn (by omega)
    omega

lemma truncDiv_floor (t : Int) {n : Int} (hn : 0 < n) : truncDiv t n = (t / n, t % n) := by
  have hpos := Int.emod_nonneg t hn.ne'
  have hlt := Int.emod_lt_of_pos t hn
  have hsign : n.sign = 1 := Int.sign_eq_one_of_pos hn
  have habs : (n.natAbs : Int) = n := Int.natAbs_of_nonneg hn.le
  unfold truncDiv
  dsimp only
  rw [Int.tdiv_eq_ediv, Int.tmod_eq_emod]
  by_cases h : 0 ≤ t ∨ n ∣ t
  · rw [if_pos h, if_pos h, if_neg (by simpa using hpos)]
    simp
  · rw [if_neg h, if_neg h, hsign, habs, if_pos (by omega)]
    ext
    · dsimp only
      omega
    · dsimp only
      omega

end VibeOS
