import Mathlib

/-!
# Numerals

`digitLoop` is the loop that takes digits off a number, the least significant first, at most as many as there is room
for; with enough room it is `Nat.digits` (`digitLoop_eq`). `numeral` is the text of a number, `0` for zero.
-/

namespace VibeOS

/-- At most `fuel` digits, the least significant first. -/
def digitLoop (base : Nat) : Nat → Nat → List Nat
  | 0, _ => []
  | fuel + 1, v => if v = 0 then [] else v % base :: digitLoop base fuel (v / base)

def digitChar (upper : Bool) (d : Nat) : UInt8 :=
  UInt8.ofNat (if d < 10 then 48 + d else if upper then 55 + d else 87 + d)

def numeral (base : Nat) (upper : Bool) (v : Nat) : List UInt8 :=
  if v = 0 then [48] else (Nat.digits base v).reverse.map (digitChar upper)

lemma digitLoop_eq {base : Nat} (hbase : 1 < base) {fuel v : Nat} (h : v < base ^ fuel) :
    digitLoop base fuel v = Nat.digits base v := by
  induction fuel generalizing v with
  | zero =>
    rw [pow_zero, Nat.lt_one_iff] at h
    rw [h]
    simp [digitLoop]
  | succ fuel ih =>
    rw [digitLoop]
    by_cases hv : v = 0
    · rw [if_pos hv, hv]
      simp
    · rw [if_neg hv, Nat.digits_def' hbase (Nat.pos_of_ne_zero hv), ih]
      rw [pow_succ] at h
      exact Nat.div_lt_of_lt_mul (by rwa [mul_comm])

/-- The text of a number is never empty. -/
lemma numeral_ne_nil (base : Nat) (upper : Bool) (v : Nat) : numeral base upper v ≠ [] := by
  unfold numeral
  split
  · exact List.cons_ne_nil _ _
  · next hv => simpa [Nat.digits_ne_nil_iff_ne_zero] using hv

end VibeOS
