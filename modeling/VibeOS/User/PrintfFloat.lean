import VibeOS.User.PrintfSpec

/-!
# Formatted output of floating point numbers

The case `%f` of `format`. The digits of the integer part are stored from the end of `num` downwards, the least
significant first, then the point and the fraction; the result is copied to the front and emitted from its end, so
that the integer part appears with its least significant digit first.

* `float_integral`: an integer below `2 ^ 53` is printed with its digits in order and zeros behind the point, inside
  the arrays, exactly if its digits read the same in both directions and 24 places are enough; of the infinities and
  NaN only the negative infinity leaves the arrays.
-/

namespace VibeOS.Printf

open List Option
open Binary64 (Double lt ge add sub mul integerPart ofInt)

/-- The fraction of an integer is the rounding alone, which is gone before a digit is reached. -/
lemma half_digits : ∀ p < 23, ge (add (ofInt 0) (half p)) (ofInt 1) = false ∧
    fractionDigits p (add (ofInt 0) (half p)) = some (List.replicate p 48) := by
  decide +kernel

lemma foldlM_push {num cs : List UInt8} (h : num.length + cs.length ≤ 24) :
    cs.foldlM push num = some (cs.reverse ++ num) := by
  induction cs generalizing num with
  | nil => rfl
  | cons c cs ih =>
    rw [length_cons] at h
    rw [foldlM_cons, push, if_pos (by omega)]
    change cs.foldlM push (c :: num) = _
    rw [ih (by rw [length_cons]; omega), reverse_cons, append_assoc]
    rfl

lemma foldlM_push_full {num cs : List UInt8} (h : 24 < num.length + cs.length) (hnum : num.length ≤ 24) :
    cs.foldlM push num = none := by
  induction cs generalizing num with
  | nil => simp at h; omega
  | cons c cs ih =>
    rw [length_cons] at h
    rw [foldlM_cons, push]
    split_ifs with hlt
    · exact ih (by rw [length_cons]; omega) (by rw [length_cons]; omega)
    · rfl

lemma length_fractionDigits {p : Nat} {frac : Double} {ds : List UInt8} (h : fractionDigits p frac = some ds) :
    ds.length = p := by
  induction p generalizing frac ds with
  | zero =>
    cases h
    rfl
  | succ p ih =>
    obtain ⟨d, -, h⟩ := bind_eq_some_iff.mp h
    obtain ⟨ds, hds, rfl⟩ := map_eq_some_iff.mp h
    rw [length_cons, ih hds]

def fractionText (p : Nat) : List UInt8 := if 0 < p then '.'.toUInt8 :: List.replicate p 48 else []

lemma fractionText_length (p : Nat) : (fractionText p).length = if 0 < p then 1 + p else 0 := by
  unfold fractionText
  split
  · rw [length_cons, length_replicate, add_comm]
  · rfl

lemma placeDigits_integral {v : BitVec 64} {p : Nat}
    (hfit : (numeral 10 false v.toNat).length + (fractionText p).length ≤ 24) :
    placeDigits p v (add (ofInt 0) (half p)) = some ((fractionText p).reverse ++ numeral 10 false v.toNat) := by
  have hdigits : 1 ≤ (numeral 10 false v.toNat).length := length_pos_iff.mpr (numeral_ne_nil 10 false v.toNat)
  rw [fractionText_length] at hfit
  unfold placeDigits
  rw [utoa_eq (by decide), foldlM_push (by simp; omega), bind_some, reverse_reverse, append_nil]
  by_cases hp : 0 < p
  · rw [if_pos hp] at hfit
    rw [if_pos (by omega), push, if_pos (by omega), bind_some, Int.toNat_natCast,
      (half_digits p (by omega)).2, bind_some, foldlM_push (by simp; omega), fractionText, if_pos hp]
    simp
  · rw [if_neg (by omega), fractionText, if_neg hp]
    rfl

/-- Digits that need more than 24 places leave `num`, whatever the fraction is. -/
lemma placeDigits_full {v : BitVec 64} {p : Nat} (frac : Double)
    (hfull : 24 < (numeral 10 false v.toNat).length + (fractionText p).length) : placeDigits p v frac = none := by
  rw [fractionText_length] at hfull
  unfold placeDigits
  rw [utoa_eq (by decide)]
  by_cases hlong : 24 < (numeral 10 false v.toNat).length
  · rw [foldlM_push_full (by simpa using hlong) (by decide), bind_none]
  · rw [foldlM_push (by simp; omega), bind_some, reverse_reverse, append_nil]
    have hp : 0 < p := by
      by_contra h0
      rw [if_neg h0] at hfull
      omega
    rw [if_pos hp] at hfull
    rw [if_pos (by omega), push]
    split_ifs with hpoint
    · rw [bind_some, Int.toNat_natCast]
      cases hds : fractionDigits p frac with
      | none => rfl
      | some ds =>
        have hlen := length_fractionDigits hds
        exact foldlM_push_full (by rw [length_cons]; omega) (by rw [length_cons]; omega)
    · rfl

section integral

variable {n : Int} (hn : n.natAbs < 2 ^ 53) {p : Nat}
include hn

lemma abs_ofInt : (if lt (ofInt n) (ofInt 0) = true then Binary64.neg (ofInt n) else ofInt n) = ofInt n.natAbs := by
  rw [Binary64.lt_zero_ofInt hn, Binary64.neg_ofInt hn]
  by_cases hneg : n < 0
  · rw [if_pos (decide_eq_true hneg)]
    congr 1
    omega
  · rw [if_neg (by simpa using hneg)]
    congr 1
    omega

lemma toNat_ofInt_natAbs : (BitVec.ofInt 64 n.natAbs).toNat = n.natAbs := by
  rw [BitVec.ofInt_natCast, BitVec.toNat_ofNat]
  exact Nat.mod_eq_of_lt (by omega)

lemma floatDigits_full (hfull : 24 < (numeral 10 false n.natAbs).length + (fractionText p).length) :
    floatDigits p (ofInt n) = none := by
  have hx := Binary64.ofInt_eq hn
  have habs : ((n.natAbs : Int)).natAbs < 2 ^ 53 := by rwa [Int.natAbs_natCast]
  have hval := toNat_ofInt_natAbs hn
  have hdone (frac : Double) : placeDigits p (BitVec.ofInt 64 n.natAbs) frac = none :=
    placeDigits_full frac (by rwa [hval])
  rw [hx]
  unfold floatDigits
  dsimp only
  rw [← hx, abs_ofInt hn, Binary64.integerPart_ofInt habs, bind_some, if_pos (by omega), Int.toNat_natCast,
    Binary64.sub_ofInt_self habs, hdone]
  by_cases hp : p < 23
  · rw [(half_digits p hp).1]
    rfl
  · -- from 23 places on one digit is too much
    have hcarry (v : BitVec 64) (frac : Double) : placeDigits p v frac = none := by
      have hdigits : 1 ≤ (numeral 10 false v.toNat).length := length_pos_iff.mpr (numeral_ne_nil 10 false _)
      refine placeDigits_full frac ?_
      rw [fractionText_length, if_pos (by omega)]
      omega
    rw [hcarry, ite_self, map_none]

lemma floatDigits_integral
    (hfit : (numeral 10 false n.natAbs).length + (fractionText p).length ≤ 24) : floatDigits p (ofInt n) =
      some (if n < 0 then ['-'.toUInt8] else [], (fractionText p).reverse ++ numeral 10 false n.natAbs) := by
  have hp : p < 23 := by
    have hdigits : 1 ≤ (numeral 10 false n.natAbs).length := length_pos_iff.mpr (numeral_ne_nil 10 false _)
    rw [fractionText_length] at hfit
    split at hfit <;> omega
  have hx := Binary64.ofInt_eq hn
  have habs : ((n.natAbs : Int)).natAbs < 2 ^ 53 := by rwa [Int.natAbs_natCast]
  have hval := toNat_ofInt_natAbs hn
  rw [hx]
  unfold floatDigits
  dsimp only
  rw [← hx, abs_ofInt hn, Binary64.integerPart_ofInt habs, bind_some, if_pos (by omega),
    Binary64.sub_ofInt_self habs, Int.toNat_natCast, (half_digits p hp).1, if_neg Bool.false_ne_true,
    placeDigits_integral (by rw [hval]; exact hfit), map_some, hval, Binary64.lt_zero_ofInt hn]
  simp

end integral

lemma format_float {d : Directive} (hw : d.width.WellFormed) (hk : d.precision.WellFormed) {c : UInt8}
    (hc : c = 'f'.toUInt8 ∨ c = 'F'.toUInt8) (v : Double) :
    format ('%'.toUInt8 :: (d.bytes ++ [c])) (d.args ++ [.double v]) =
      (floatDigits (d.precision.value.getD 6 : Nat) v).map fun r => assemble (d.spec false) r.1 r.2 := by
  have hletter : EndsDirective c ∧ c ≠ 'l'.toUInt8 ∧ c ≠ 'z'.toUInt8 := by
    rcases hc with rfl | rfl
    · decide
    · decide
  have hparse := parse_directive hw hk hletter.1 hletter.2.1 hletter.2.2 none [] [.double v]
  have hprec : (if 0 ≤ (d.spec false).prec then (d.spec false).prec else 6) =
      ((d.precision.value.getD 6 : Nat) : Int) := by
    rw [(d.spec_cases false).2.2.2.1]
    rcases d.precision.value with _ | k
    · rfl
    · simp
  have hconvert : convert (d.spec false) c [.double v] =
      (floatDigits (d.precision.value.getD 6 : Nat) v).map fun r => (assemble (d.spec false) r.1 r.2, []) := by
    rw [← hprec]
    rcases hc with rfl | rfl
    · rfl
    · rfl
  change (parse (d.bytes ++ (lengthBytes none ++ c :: [])) (d.args ++ [.double v])).bind _ = _
  rw [hparse, bind_some]
  change (convert (d.spec false) c [.double v]).bind _ = _
  rw [hconvert]
  cases floatDigits (d.precision.value.getD 6 : Nat) v with
  | none => rfl
  | some r => simp [formatLoop]

/-- The digits of the integer part come out in the opposite order. -/
lemma format_integral {d : Directive} (hw : d.width.WellFormed) (hk : d.precision.WellFormed) {c : UInt8}
    (hc : c = 'f'.toUInt8 ∨ c = 'F'.toUInt8) {n : Int} (hn : n.natAbs < 2 ^ 53)
    (hfit : (numeral 10 false n.natAbs).length + (fractionText (d.precision.value.getD 6)).length ≤ 24) :
    format ('%'.toUInt8 :: (d.bytes ++ [c])) (d.args ++ [.double (ofInt n)]) =
      some (field d.left d.zero d.width.value (if n < 0 then ['-'.toUInt8] else [])
        ((numeral 10 false n.natAbs).reverse ++ fractionText (d.precision.value.getD 6))) := by
  rw [format_float hw hk hc, floatDigits_integral hn hfit, map_some]
  dsimp only
  have hnum : (fractionText (d.precision.value.getD 6)).reverse ++ numeral 10 false n.natAbs =
      ((numeral 10 false n.natAbs).reverse ++ fractionText (d.precision.value.getD 6)).reverse := by
    rw [reverse_append, reverse_reverse]
  have hsign : (if n < 0 then ['-'.toUInt8] else []).length ≤ 1 := by split <;> decide
  have hlen : (if n < 0 then ['-'.toUInt8] else []).length +
      ((numeral 10 false n.natAbs).reverse ++ fractionText (d.precision.value.getD 6)).length < 2 ^ 31 := by
    rw [length_append, length_reverse]
    omega
  obtain ⟨hleft, -, -, -, hcases⟩ := d.spec_cases false
  rw [hnum]
  rcases hcases with ⟨hwidth, hzero, -⟩ | ⟨k, hv, hdec, hlt, hwidth, -⟩
  · rw [assemble_eq hwidth (Width.value_lt hw) hlen, hleft, hzero]
  · -- the fraction alone is longer than the width
    have hlong : k ≤ ((numeral 10 false n.natAbs).reverse ++ fractionText (d.precision.value.getD 6)).length := by
      rw [length_append, fractionText_length, hv, getD_some, if_pos (by omega)]
      omega
    rw [assemble_eq hwidth (Precision.value_lt hk hv hdec) hlen, field_of_le (by omega), field_of_le (by omega)]

lemma field_inj {left zero : Bool} {width : Nat} {pre body body' : List UInt8} (hlen : body.length = body'.length)
    (h : field left zero width pre body = field left zero width pre body') : body = body' := by
  unfold field at h
  rw [hlen] at h
  cases left <;> cases zero <;> simpa using h

/-- An integer below `2 ^ 53` is printed as C prescribes exactly if its digits read the same in both directions and
they have room, with the point and the fraction, in `num`. A NaN and an infinity stay inside the arrays exactly if the
sign of the infinity is positive.
Source: `format`, the case `'f'` -/
theorem float_integral {d : Directive} (hw : d.width.WellFormed) (hk : d.precision.WellFormed) {c : UInt8}
    (hc : c = 'f'.toUInt8 ∨ c = 'F'.toUInt8) : (∀ n : Int, n.natAbs < 2 ^ 53 →
      (format ('%'.toUInt8 :: (d.bytes ++ [c])) (d.args ++ [.double (ofInt n)]) =
        some (field d.left d.zero d.width.value (if n < 0 then ['-'.toUInt8] else [])
          (numeral 10 false n.natAbs ++ fractionText (d.precision.value.getD 6))) ↔
      (numeral 10 false n.natAbs).reverse = numeral 10 false n.natAbs ∧
        (numeral 10 false n.natAbs).length + (fractionText (d.precision.value.getD 6)).length ≤ 24)) ∧
    (format ('%'.toUInt8 :: (d.bytes ++ [c])) (d.args ++ [.double .nan])).isSome = true ∧
    ∀ neg, (format ('%'.toUInt8 :: (d.bytes ++ [c])) (d.args ++ [.double (.inf neg)])).isSome = true ↔ neg = false := by
  refine ⟨fun n hn => ?_, ?_, fun neg => ?_⟩
  · by_cases hfit : (numeral 10 false n.natAbs).length + (fractionText (d.precision.value.getD 6)).length ≤ 24
    · rw [format_integral hw hk hc hn hfit, some_inj]
      refine ⟨fun h => ⟨?_, hfit⟩, fun h => by rw [h.1]⟩
      exact append_cancel_right (field_inj (by simp) h)
    · rw [format_float hw hk hc, floatDigits_full hn (by omega), map_none]
      exact ⟨fun h => (nomatch h), fun h => absurd h.2 hfit⟩
  · rw [format_float hw hk hc]
    rfl
  · rw [format_float hw hk hc]
    cases neg <;> simp [floatDigits, prefixStored]

set_option maxRecDepth 8192 in
theorem float_integral_palindrome :
    format [37, 56, 46, 50, 102] [.double (ofInt (-121))] = some [32, 45, 49, 50, 49, 46, 48, 48] := by
  have hw : (Width.decimal [56]).WellFormed := ⟨by decide, by decide, by decide, by decide⟩
  have hk : (Precision.decimal [50]).WellFormed := ⟨by decide, by decide⟩
  exact ((float_integral (d := ⟨[], .decimal [56], .decimal [50]⟩) hw hk (.inl rfl)).1 (-121) (by decide)).mpr
    ⟨by decide, by decide⟩

/-- The integer 12 is printed as 21; two digits and a fraction of 22 leave `num`, and the negative infinity leaves
`prefix`. -/
theorem float_reversed : format [37, 46, 49, 102] [.double (ofInt 12)] = some [50, 49, 46, 48] ∧
    format [37, 46, 50, 50, 102] [.double (ofInt 12)] = none ∧ format [37, 102] [.double (.inf true)] = none := by
  decide +kernel

end VibeOS.Printf
