import Mathlib

/-!
# Floating point numbers of 64 bits

A finite number is `mant * 2 ^ exp` with a 53-bit `mant` and the exponents of the format, so an invalid one cannot be
built; one value has several such forms, and a zero has no sign. The operations compute the exact integer result and
round it once, to nearest with ties to even, with subnormal numbers and overflow to infinity.

* `round_of_fits`: a result that has 53 bits is not rounded.
* `integerPart_ofInt`, `sub_ofInt_self`: integers below `2 ^ 53` are exact.
-/

namespace VibeOS.Binary64

/-- The finite number `mant * 2 ^ exp`. -/
structure Finite where
  mant : Int
  exp : Int
  mant_lt : mant.natAbs < 2 ^ 53
  exp_ge : -1074 ≤ exp
  exp_le : exp ≤ 971
deriving DecidableEq

/-- A value of the format; there is only one zero. -/
inductive Double where
  | nan
  | inf (neg : Bool)
  | finite (x : Finite)
deriving DecidableEq

/-! ### Rounding -/

/-- `m / 2 ^ s`, to nearest and to even. -/
def nearest (m : Int) (s : Nat) : Int :=
  let q := m.natAbs / 2 ^ s
  let r := m.natAbs % 2 ^ s
  let q' : Nat := if 2 ^ s < 2 * r ∨ 2 * r = 2 ^ s ∧ q % 2 = 1 then q + 1 else q
  if m < 0 then -(q' : Int) else q'

/-- Infinity if the number is too large. -/
def pack (m e : Int) : Double :=
  if h : m.natAbs < 2 ^ 53 ∧ -1074 ≤ e ∧ e ≤ 971 then .finite ⟨m, e, h.1, h.2.1, h.2.2⟩ else .inf (decide (m < 0))

/-- The number nearest to `m * 2 ^ e`. -/
def round (m e : Int) : Double :=
  let s := max ((Nat.log2 m.natAbs : Int) - 52) (-1074 - e)
  if 0 < s then
    let q := nearest m s.toNat
    -- rounding up may give one bit more
    if q.natAbs = 2 ^ 53 then pack (q / 2) (e + s + 1) else pack q (e + s)
  else if 971 < e then pack (m * 2 ^ (e - 971).toNat) 971
  else pack m e

lemma round_of_fits {m e : Int} (hm : m.natAbs < 2 ^ 53) (h1 : -1074 ≤ e) (h2 : e ≤ 971) :
    round m e = .finite ⟨m, e, hm, h1, h2⟩ := by
  have hlog : Nat.log2 m.natAbs ≤ 52 := by
    by_cases h0 : m.natAbs = 0
    · rw [h0]
      decide
    · have := (Nat.log2_lt h0).mpr hm
      omega
  have hs : ¬ 0 < max ((Nat.log2 m.natAbs : Int) - 52) (-1074 - e) := by omega
  unfold round
  dsimp only
  rw [if_neg hs, if_neg (by omega), pack, dif_pos ⟨hm, h1, h2⟩]

/-! ### Operations -/

/-- The mantissa of a number for a smaller exponent. -/
def Finite.at (x : Finite) (e : Int) : Int := x.mant * 2 ^ (x.exp - e).toNat

def neg : Double → Double
  | .nan => .nan
  | .inf n => .inf !n
  | .finite x => .finite ⟨-x.mant, x.exp, by rw [Int.natAbs_neg]; exact x.mant_lt, x.exp_ge, x.exp_le⟩

def add : Double → Double → Double
  | .nan, _ => .nan
  | _, .nan => .nan
  | .inf m, .inf n => if m = n then .inf m else .nan
  | .inf m, .finite _ => .inf m
  | .finite _, .inf n => .inf n
  | .finite x, .finite y => round (x.at (min x.exp y.exp) + y.at (min x.exp y.exp)) (min x.exp y.exp)

def sub (x y : Double) : Double := add x (neg y)

def mul : Double → Double → Double
  | .nan, _ => .nan
  | _, .nan => .nan
  | .inf m, .inf n => .inf (m != n)
  | .inf m, .finite y => if y.mant = 0 then .nan else .inf (m != decide (y.mant < 0))
  | .finite x, .inf n => if x.mant = 0 then .nan else .inf (decide (x.mant < 0) != n)
  | .finite x, .finite y => round (x.mant * y.mant) (x.exp + y.exp)

/-- The order, `none` for numbers that cannot be compared. -/
def cmp : Double → Double → Option Ordering
  | .nan, _ => none
  | _, .nan => none
  | .inf m, .inf n => some (compare n m)
  | .inf m, .finite _ => some (if m then .lt else .gt)
  | .finite _, .inf n => some (if n then .gt else .lt)
  | .finite x, .finite y => some (compare (x.at (min x.exp y.exp)) (y.at (min x.exp y.exp)))

def lt (x y : Double) : Bool := cmp x y == some .lt

def ge (x y : Double) : Bool := cmp x y == some .gt || cmp x y == some .eq

def integerPart : Double → Option Int
  | .finite x => some (if 0 ≤ x.exp then x.mant * 2 ^ x.exp.toNat else x.mant.tdiv (2 ^ (-x.exp).toNat))
  | _ => none

def ofInt (n : Int) : Double := round n 0

/-! ### Integers -/

variable {n : Int}

section

variable (hn : n.natAbs < 2 ^ 53)

include hn

lemma ofInt_eq : ofInt n = .finite ⟨n, 0, hn, by decide, by decide⟩ :=
  round_of_fits hn (by decide) (by decide)

lemma lt_zero_ofInt : lt (ofInt n) (ofInt 0) = decide (n < 0) := by
  have h0 : (0 : Int).natAbs < 2 ^ 53 := by decide
  rw [ofInt_eq hn, ofInt_eq h0]
  rw [Bool.eq_iff_iff]
  simp [lt, cmp, Finite.at, compare_lt_iff_lt]

lemma neg_ofInt : neg (ofInt n) = ofInt (-n) := by
  have hneg : (-n).natAbs < 2 ^ 53 := by rwa [Int.natAbs_neg]
  rw [ofInt_eq hn, ofInt_eq hneg]
  rfl

lemma integerPart_ofInt : integerPart (ofInt n) = some n := by
  rw [ofInt_eq hn]
  simp [integerPart]

lemma sub_ofInt_self : sub (ofInt n) (ofInt n) = ofInt 0 := by
  rw [sub, neg_ofInt hn]
  have hneg : (-n).natAbs < 2 ^ 53 := by rwa [Int.natAbs_neg]
  rw [ofInt_eq hn, ofInt_eq hneg]
  simp [add, Finite.at, ofInt]

end

end VibeOS.Binary64
