import Mathlib

/-!
# Numbers from strings

`strtol`, `strtoul`, `strtoll` and `strtoull`, from `user/libc/stdlib.c`. A string is the list of its characters up to
the NUL, the end pointer is what is left of it, and a result is a 64-bit word. `strto` is what C prescribes for every
string. The functions take `0x` without a hexadecimal digit, leave the end pointer behind white space and a sign when
there is no digit, know four of the six white-space characters, and the unsigned ones know no minus; `Follows` is what
remains, and `strto_reads` says that it is exactly what remains.
-/

namespace VibeOS.Strtol

open List

/-- Source: `digit_val`, `digit_val_ll` -/
def digitVal (c : UInt8) : Option Nat :=
  if 48 ≤ c ∧ c ≤ 57 then some (c.toNat - 48)
  else if 97 ≤ c ∧ c ≤ 122 then some (c.toNat - 97 + 10)
  else if 65 ≤ c ∧ c ≤ 90 then some (c.toNat - 65 + 10)
  else none

def isBlank (c : UInt8) : Bool := c == 32 || c == 9 || c == 10 || c == 13

def digits (base : Nat) : List UInt8 → Nat → Nat × List UInt8
  | [], v => (v, [])
  | c :: s, v =>
    match digitVal c with
    | none => (v, c :: s)
    | some d => if d < base then digits base s ((v * base + d) % 2 ^ 64) else (v, c :: s)

/-- A string that begins with `0x` or `0X`. -/
def hexMark : List UInt8 → Bool
  | 48 :: c :: _ => c == 120 || c == 88
  | _ => false

/-- Source: `parse_ull` -/
def parseUll (s : List UInt8) (base : Nat) : Nat × List UInt8 :=
  if (base = 0 ∨ base = 16) ∧ hexMark s then digits 16 (s.drop 2) 0
  else digits (if base = 0 then if s.head? = some 48 then 8 else 10 else base) s 0

def skipPlus : List UInt8 → List UInt8
  | 43 :: s => s
  | s => s

def strtoull (s : List UInt8) (base : Nat) : Nat × List UInt8 := parseUll (skipPlus (s.dropWhile isBlank)) base

/-- Written out once more in the source, with the body of `parse_ull`. -/
def strtoul (s : List UInt8) (base : Nat) : Nat × List UInt8 := parseUll (skipPlus (s.dropWhile isBlank)) base

/-- The sign, and the parser behind it. -/
def signed (parse : List UInt8 → Nat × List UInt8) : List UInt8 → Nat × List UInt8
  | 45 :: s => ((2 ^ 64 - (parse s).1) % 2 ^ 64, (parse s).2)
  | 43 :: s => parse s
  | s => parse s

def strtol (s : List UInt8) (base : Nat) : Nat × List UInt8 := signed (strtoul · base) (s.dropWhile isBlank)

def strtoll (s : List UInt8) (base : Nat) : Nat × List UInt8 := signed (parseUll · base) (s.dropWhile isBlank)

/-! ### What C prescribes -/

/-- The white space of C. -/
def isSpace (c : UInt8) : Bool := isBlank c || c == 11 || c == 12

def isDigit (base : Nat) (c : UInt8) : Bool := (digitVal c).any (· < base)

/-- The value of digits, the first one highest. -/
def value (base : Nat) (ds : List UInt8) : Nat := ds.foldl (fun v c => v * base + (digitVal c).getD 0) 0

/-- The base of digits without a mark. -/
def baseOf (base : Nat) (s : List UInt8) : Nat := if base = 0 then if s.head? = some 48 then 8 else 10 else base

/-- A `0x` that C takes for a mark is followed by a hexadecimal digit. -/
def marked (base : Nat) (s : List UInt8) : Bool :=
  (base == 0 || base == 16) && hexMark s && (s.drop 2).head?.any (isDigit 16)

/-- The base of a numeral and what follows its mark. -/
def numeral (base : Nat) (s : List UInt8) : Nat × List UInt8 :=
  if marked base s then (16, s.drop 2) else (baseOf base s, s)

def splitSign : List UInt8 → Bool × List UInt8
  | 45 :: s => (true, s)
  | 43 :: s => (false, s)
  | s => (false, s)

/-- The text behind white space and sign. -/
def unsignedPart (s : List UInt8) : List UInt8 := (splitSign (s.dropWhile isSpace)).2

/-- The longest sequence of digits where a number is read. -/
def digitsOf (base : Nat) (p : List UInt8) : List UInt8 := (numeral base p).2.takeWhile (isDigit (numeral base p).1)

/-- What C prescribes for all four functions: the value and the rest of the string. -/
def strto (s : List UInt8) (base : Nat) : Nat × List UInt8 :=
  let p := unsignedPart s
  let v := value (numeral base p).1 (digitsOf base p) % 2 ^ 64
  if digitsOf base p = [] then (0, s)
  else (if (splitSign (s.dropWhile isSpace)).1 then (2 ^ 64 - v) % 2 ^ 64 else v,
    (numeral base p).2.dropWhile (isDigit (numeral base p).1))

/-! ### Where the functions follow it -/

/-- A number: its white space is known to the functions, and a `0x` in front is a mark. Without a number, the string
begins with no character that the functions skip. -/
def Follows (base : Nat) (s : List UInt8) (minus : Bool) : Prop :=
  if digitsOf base (unsignedPart s) = [] then ∀ c ∈ s.head?, isBlank c = false ∧ c ≠ 43 ∧ (minus = true → c ≠ 45)
  else s.dropWhile isBlank = s.dropWhile isSpace ∧
    ((base = 0 ∨ base = 16) → hexMark (unsignedPart s) → marked base (unsignedPart s) = true) ∧
    (minus = false → (s.dropWhile isSpace).head? ≠ some 45)

variable {base b : Nat} {c : UInt8} {s p r : List UInt8} {minus : Bool}

/-! ### Digits -/

lemma isDigit_iff : isDigit b c = true ↔ ∃ d < b, digitVal c = some d := by
  rw [isDigit, Option.any_eq_true_iff_get]
  constructor
  · rintro ⟨h, hd⟩
    exact ⟨_, by simpa using hd, (Option.some_get h).symm⟩
  · rintro ⟨d, hlt, hd⟩
    simp [hd, hlt]

lemma digits_mod (b : Nat) (s : List UInt8) (v : Nat) : digits b s (v % 2 ^ 64) =
    ((s.takeWhile (isDigit b)).foldl (fun v c => v * b + (digitVal c).getD 0) v % 2 ^ 64, s.dropWhile (isDigit b)) := by
  induction s generalizing v with
  | nil => rfl
  | cons c s ih =>
    rw [digits, takeWhile_cons, dropWhile_cons]
    rcases hc : digitVal c with _ | d
    · have hno : isDigit b c = false := by rw [isDigit, hc]; rfl
      rw [hno]
      rfl
    · dsimp only
      by_cases hlt : d < b
      · have hyes : isDigit b c = true := isDigit_iff.mpr ⟨d, hlt, hc⟩
        have hmod : (v % 2 ^ 64 * b + d) % 2 ^ 64 = (v * b + d) % 2 ^ 64 := by
          rw [Nat.add_mod, Nat.mul_mod, Nat.mod_mod, ← Nat.mul_mod, ← Nat.add_mod]
        rw [if_pos hlt, hyes, if_pos rfl, if_pos rfl, hmod, ih, foldl_cons, hc, Option.getD_some]
      · have hno : isDigit b c = false := by rw [isDigit, hc]; simpa using hlt
        rw [if_neg hlt, hno]
        rfl

lemma digits_zero (b : Nat) (s : List UInt8) :
    digits b s 0 = (value b (s.takeWhile (isDigit b)) % 2 ^ 64, s.dropWhile (isDigit b)) := digits_mod b s 0

/-- A character that is skipped is no digit. -/
lemma isDigit_skipped (h : isBlank c = true ∨ c = 43 ∨ c = 45 ∨ c = 11 ∨ c = 12) : isDigit b c = false := by
  have hnone : digitVal c = none := by
    rcases h with h | rfl | rfl | rfl | rfl
    · simp only [isBlank, Bool.or_eq_true, beq_iff_eq] at h
      rcases h with ((rfl | rfl) | rfl) | rfl <;> rfl
    all_goals rfl
  rw [isDigit, hnone]
  rfl

/-! ### The parser behind white space and sign -/

lemma parseUll_length (p : List UInt8) (base : Nat) : (parseUll p base).2.length ≤ p.length := by
  rw [parseUll]
  split_ifs
  all_goals
    rw [digits_zero]
    refine (dropWhile_suffix _).length_le.trans ?_
    try rw [length_drop]
    omega

/-- Where a `0x` is a mark, the parser reads the numeral. -/
lemma parseUll_eq (h : (base = 0 ∨ base = 16) → hexMark p → marked base p = true) : parseUll p base =
    (value (numeral base p).1 (digitsOf base p) % 2 ^ 64,
      (numeral base p).2.dropWhile (isDigit (numeral base p).1)) := by
  rw [parseUll, digitsOf]
  by_cases hx : (base = 0 ∨ base = 16) ∧ hexMark p = true
  · rw [if_pos hx, numeral, if_pos (h hx.1 hx.2), digits_zero]
  · have hm : marked base p = false := by
      rw [marked]
      by_contra hm
      simp only [Bool.not_eq_false, Bool.and_eq_true, Bool.or_eq_true, beq_iff_eq] at hm
      exact hx hm.1
    rw [if_neg hx, numeral, hm, if_neg Bool.false_ne_true, ← baseOf, digits_zero]

/-- A `0x` that is no mark: the parser ends behind the `x`, and C behind the `0`. -/
lemma parseUll_bare (hb : base = 0 ∨ base = 16) (hx : hexMark p = true) (hm : marked base p = false) :
    ∃ c r, p = 48 :: c :: r ∧ (parseUll p base).2 = r ∧ digitsOf base p = [48] ∧
      (numeral base p).2.dropWhile (isDigit (numeral base p).1) = c :: r := by
  obtain ⟨c, r, rfl, hc⟩ : ∃ c r, p = 48 :: c :: r ∧ (c = 120 ∨ c = 88) := by
    unfold hexMark at hx
    split at hx
    · exact ⟨_, _, rfl, by simpa using hx⟩
    · cases hx
  have hdrop : (48 :: c :: r).drop 2 = r := rfl
  have hno : r.dropWhile (isDigit 16) = r := by
    cases r with
    | nil => rfl
    | cons d r =>
      rw [marked, hx, hdrop] at hm
      have hd : isDigit 16 d = false := by
        rcases hb with rfl | rfl <;> simpa using hm
      rw [dropWhile_cons, hd, if_neg Bool.false_ne_true]
  have hnum : numeral base (48 :: c :: r) = (baseOf base (48 :: c :: r), 48 :: c :: r) := by
    rw [numeral, hm, if_neg Bool.false_ne_true]
  have h48 : isDigit (baseOf base (48 :: c :: r)) 48 = true ∧ isDigit (baseOf base (48 :: c :: r)) c = false := by
    rcases hb with rfl | rfl <;> rcases hc with rfl | rfl <;> exact ⟨rfl, rfl⟩
  refine ⟨c, r, rfl, ?_, ?_, ?_⟩
  · rw [parseUll, if_pos ⟨hb, hx⟩, digits_zero, hdrop]
    exact hno
  · rw [digitsOf, hnum, takeWhile_cons, h48.1, if_pos rfl, takeWhile_cons, h48.2]
    rfl
  · rw [hnum, dropWhile_cons, h48.1, if_pos rfl, dropWhile_cons, h48.2]
    rfl

/-- Without a digit there is no mark, and the parser stays where it is. -/
lemma parseUll_nothing (h : digitsOf base p = []) : parseUll p base = (0, p) ∧
    ((base = 0 ∨ base = 16) → hexMark p → marked base p = true) := by
  have hm : (base = 0 ∨ base = 16) → hexMark p → marked base p = true := by
    intro hb hx
    by_contra hm
    obtain ⟨c, r, -, -, hd, -⟩ := parseUll_bare hb hx (by simpa using hm)
    rw [hd] at h
    cases h
  refine ⟨?_, hm⟩
  have hnot : marked base p = false := by
    by_contra hmark
    rw [Bool.not_eq_false] at hmark
    rw [digitsOf, numeral, if_pos hmark] at h
    rw [marked, Bool.and_eq_true] at hmark
    cases hd : p.drop 2 with
    | nil =>
      rw [hd] at hmark
      cases hmark.2
    | cons d r =>
      rw [hd] at h hmark
      dsimp only at h
      rw [takeWhile_cons, show isDigit 16 d = true from hmark.2, if_pos rfl] at h
      cases h
  have hrest : (numeral base p).2.dropWhile (isDigit (numeral base p).1) = p := by
    have hsplit := takeWhile_append_dropWhile (p := isDigit (numeral base p).1) (l := (numeral base p).2)
    rw [← digitsOf, h, nil_append] at hsplit
    rw [hsplit, numeral, hnot, if_neg Bool.false_ne_true]
  rw [parseUll_eq hm, h, hrest]
  rfl

/-- No digit is read at a character that is skipped. -/
lemma digitsOf_skipped (hc : isBlank c = true ∨ c = 43 ∨ c = 45 ∨ c = 11 ∨ c = 12) : digitsOf base (c :: r) = [] := by
  have hhex : hexMark (c :: r) = false := by
    unfold hexMark
    split
    · rename_i heq
      cases heq
      exact absurd hc (by decide)
    · rfl
  have hm : marked base (c :: r) = false := by rw [marked, hhex, Bool.and_false, Bool.false_and]
  rw [digitsOf, numeral, hm, if_neg Bool.false_ne_true, takeWhile_cons, isDigit_skipped hc]
  rfl

/-! ### White space and sign -/

lemma signed_eq (f : List UInt8 → Nat × List UInt8) (p : List UInt8) : signed f p =
    (if (splitSign p).1 then (2 ^ 64 - (f (splitSign p).2).1) % 2 ^ 64 else (f (splitSign p).2).1,
      (f (splitSign p).2).2) := by
  unfold signed splitSign
  split <;> rfl

lemma splitSign_suffix (p : List UInt8) : (splitSign p).2 <:+ p := by
  unfold splitSign
  split
  · exact suffix_cons _ _
  · exact suffix_cons _ _
  · exact suffix_rfl

lemma unsignedPart_suffix (s : List UInt8) : unsignedPart s <:+ s :=
  (splitSign_suffix _).trans (dropWhile_suffix _)

/-- The white space of the functions is that of C, or it ends at one of two characters. -/
lemma blank_cases (s : List UInt8) : s.dropWhile isBlank = s.dropWhile isSpace ∨
    ∃ c r, s.dropWhile isBlank = c :: r ∧ (c = 11 ∨ c = 12) ∧ (s.dropWhile isSpace).length ≤ r.length := by
  induction s with
  | nil => exact .inl rfl
  | cons c s ih =>
    by_cases hb : isBlank c = true
    · have hs : isSpace c = true := by rw [isSpace, hb]; rfl
      rw [dropWhile_cons, dropWhile_cons, hb, hs]
      exact ih
    · rw [Bool.not_eq_true] at hb
      by_cases hc : c = 11 ∨ c = 12
      · have hs : isSpace c = true := by rcases hc with rfl | rfl <;> rfl
        rw [dropWhile_cons, dropWhile_cons, hb, hs]
        exact .inr ⟨c, s, rfl, hc, (dropWhile_suffix _).length_le⟩
      · have hs : isSpace c = false := by
          rw [not_or] at hc
          rw [isSpace, hb]
          simpa using hc
        rw [dropWhile_cons, dropWhile_cons, hb, hs]
        exact .inl rfl

lemma dropWhile_blank_eq : s.dropWhile isBlank = s ↔ ∀ c ∈ s.head?, isBlank c = false := by
  cases s with
  | nil => simp
  | cons c s =>
    rw [dropWhile_cons]
    cases hc : isBlank c with
    | false => simp [hc]
    | true =>
      rw [if_pos rfl]
      refine iff_of_false (fun h => ?_) fun h => ?_
      · have := (dropWhile_suffix isBlank (l := s)).length_le
        rw [h, length_cons] at this
        omega
      · have := h c rfl
        rw [hc] at this
        cases this

lemma dropWhile_blank_of_head (hc : c ∈ s.head?) (hb : isBlank c = false) : s.dropWhile isBlank = s :=
  dropWhile_blank_eq.mpr fun _ hd => Option.mem_unique hc hd ▸ hb

lemma unsignedPart_eq (hb : s.dropWhile isBlank = s.dropWhile isSpace) :
    unsignedPart s = s ↔ ∀ c ∈ s.head?, isBlank c = false ∧ c ≠ 43 ∧ (true = true → c ≠ 45) := by
  constructor
  · intro h c hc
    have hlen : s.length ≤ (s.dropWhile isSpace).length := by
      have := (splitSign_suffix (s.dropWhile isSpace)).length_le
      rwa [← unsignedPart, h] at this
    have hdrop : s.dropWhile isSpace = s := (dropWhile_suffix isSpace).eq_of_length_le hlen
    rw [unsignedPart, hdrop] at h
    have hsign : c ≠ 43 ∧ c ≠ 45 := by
      obtain ⟨r, rfl⟩ := head?_eq_some_iff.mp hc
      refine ⟨?_, ?_⟩ <;> rintro rfl <;> have := congrArg length h <;> simp [splitSign] at this
    exact ⟨dropWhile_blank_eq.mp (hb.trans hdrop) c hc, hsign.1, fun _ => hsign.2⟩
  · intro h
    rw [unsignedPart, ← hb, dropWhile_blank_eq.mpr fun c hc => (h c hc).1]
    unfold splitSign
    split
    · exact absurd rfl ((h 45 rfl).2.2 rfl)
    · exact absurd rfl (h 43 rfl).2.1
    · rfl

lemma strto_rest (hd : digitsOf base (unsignedPart s) ≠ []) : (strto s base).2.length ≤ (unsignedPart s).length := by
  rw [strto]
  rw [if_neg hd]
  refine (dropWhile_suffix _).length_le.trans ?_
  rw [numeral]
  split_ifs
  · exact (drop_suffix _ _).length_le
  · exact le_rfl

/-! ### The four functions -/

/-- White space that the functions do not know in front of a number. -/
lemma not_follows (hp : s.dropWhile isBlank = c :: r) (hlen : (s.dropWhile isSpace).length ≤ r.length)
    (hd : digitsOf base (unsignedPart s) ≠ []) : ¬ Follows base s minus := by
  intro hf
  rw [Follows, if_neg hd, hp] at hf
  rw [← hf.1, length_cons] at hlen
  omega

/-- A function that stops at a character which C passes over. -/
lemma stuck (hp : s.dropWhile isBlank = c :: r) (hc : c = 11 ∨ c = 12 ∨ c = 45 ∧ minus = false)
    (hlen : (unsignedPart s).length ≤ r.length)
    (hd : digitsOf base (unsignedPart s) ≠ [] → ¬ Follows base s minus) :
    ((0, c :: r) : Nat × List UInt8) = strto s base ↔ Follows base s minus := by
  by_cases hnone : digitsOf base (unsignedPart s) = []
  · rw [strto, Follows, if_pos hnone]
    rw [if_pos hnone, ← hp, Prod.mk.injEq, and_iff_right rfl, dropWhile_blank_eq]
    refine forall₂_congr fun x hx => ⟨fun hb => ?_, fun hb => hb.1⟩
    rw [dropWhile_blank_of_head hx hb] at hp
    rw [hp] at hx
    cases hx
    rcases hc with rfl | rfl | ⟨rfl, rfl⟩
    · exact ⟨rfl, by decide, fun _ => by decide⟩
    · exact ⟨rfl, by decide, fun _ => by decide⟩
    · exact ⟨rfl, by decide, fun h => nomatch h⟩
  · refine iff_of_false (fun heq => ?_) (hd hnone)
    have hrest := strto_rest hnone
    rw [← heq, length_cons] at hrest
    omega

/-- A function that parses what C reads behind white space and sign. -/
lemma parsed (base : Nat) (minus : Bool) (hb : s.dropWhile isBlank = s.dropWhile isSpace)
    (hminus : minus = false → (s.dropWhile isSpace).head? ≠ some 45) :
    ((if (splitSign (s.dropWhile isSpace)).1 then (2 ^ 64 - (parseUll (unsignedPart s) base).1) % 2 ^ 64
        else (parseUll (unsignedPart s) base).1, (parseUll (unsignedPart s) base).2) = strto s base) ↔
      Follows base s minus := by
  by_cases hnone : digitsOf base (unsignedPart s) = []
  · rw [(parseUll_nothing hnone).1, strto, Follows, if_pos hnone]
    dsimp only
    rw [if_pos hnone, Prod.mk.injEq, Nat.sub_zero, Nat.mod_self, ite_self, and_iff_right rfl, unsignedPart_eq hb]
    refine forall₂_congr fun c hc => and_congr_right fun hblank => and_congr_right fun _ => ?_
    cases minus with
    | true => exact Iff.rfl
    | false =>
      refine iff_of_true (fun _ => ?_) fun h => nomatch h
      rintro rfl
      refine hminus rfl ?_
      rw [← hb, dropWhile_blank_of_head hc hblank]
      exact hc
  · rw [Follows, if_neg hnone]
    by_cases hm : (base = 0 ∨ base = 16) → hexMark (unsignedPart s) → marked base (unsignedPart s) = true
    · refine iff_of_true ?_ ⟨hb, hm, hminus⟩
      rw [parseUll_eq hm, strto]
      dsimp only
      rw [if_neg hnone]
    · refine iff_of_false (fun heq => ?_) fun h => hm h.2.1
      simp only [Classical.not_imp] at hm
      obtain ⟨hbase, hx, hmark⟩ := hm
      obtain ⟨c, r, -, hrest, -, hend⟩ := parseUll_bare hbase hx (by simpa using hmark)
      have hlen := congrArg (fun x => x.2.length) heq
      rw [strto] at hlen
      dsimp only at hlen
      rw [if_neg hnone, hrest] at hlen
      dsimp only at hlen
      rw [hend, length_cons] at hlen
      omega

lemma strtoll_follows (s : List UInt8) (base : Nat) : strtoll s base = strto s base ↔ Follows base s true := by
  rw [strtoll]
  rcases blank_cases s with hb | ⟨c, r, hp, hc, hlen⟩
  · rw [hb, signed_eq]
    exact parsed base true hb fun h => nomatch h
  · have hsame : signed (parseUll · base) (c :: r) = (0, c :: r) := by
      rw [signed_eq, show splitSign (c :: r) = (false, c :: r) by rcases hc with rfl | rfl <;> rfl]
      exact (parseUll_nothing (digitsOf_skipped (.inr (.inr (.inr hc))))).1
    rw [hp, hsame]
    exact stuck hp (hc.imp_right .inl) ((splitSign_suffix _).length_le.trans hlen) (not_follows hp hlen)

lemma strtoull_follows (s : List UInt8) (base : Nat) : strtoull s base = strto s base ↔ Follows base s false := by
  rw [strtoull]
  have hstuck : ∀ c r, s.dropWhile isBlank = c :: r → (c = 11 ∨ c = 12 ∨ c = 45) →
      parseUll (skipPlus (c :: r)) base = (0, c :: r) := by
    intro c r _ hc
    rw [show skipPlus (c :: r) = c :: r by rcases hc with rfl | rfl | rfl <;> rfl]
    refine (parseUll_nothing (digitsOf_skipped ?_)).1
    tauto
  rcases blank_cases s with hb | ⟨c, r, hp, hc, hlen⟩
  · by_cases h45 : (s.dropWhile isSpace).head? = some 45
    · obtain ⟨r, hr⟩ := head?_eq_some_iff.mp h45
      have hp := hb.trans hr
      rw [hp, hstuck 45 r hp (by simp)]
      refine stuck hp (by simp) ?_ fun hd hf => ?_
      · rw [unsignedPart, hr]
        exact le_rfl
      · rw [Follows, if_neg hd] at hf
        exact hf.2.2 rfl h45
    · have hskip : skipPlus (s.dropWhile isSpace) = unsignedPart s ∧ (splitSign (s.dropWhile isSpace)).1 = false := by
        rw [unsignedPart]
        generalize s.dropWhile isSpace = q at h45
        unfold skipPlus splitSign
        split
        · exact ⟨rfl, rfl⟩
        · split
          · exact absurd rfl h45
          · exact ⟨by simp_all, rfl⟩
          · exact ⟨rfl, rfl⟩
      have h := parsed base false hb fun _ => h45
      rw [hskip.2, if_neg Bool.false_ne_true] at h
      rw [hb, hskip.1]
      exact h
  · rw [hp, hstuck c r hp (by tauto)]
    exact stuck hp (by tauto) ((splitSign_suffix _).length_le.trans hlen) (not_follows hp hlen)

lemma strtoul_length (p : List UInt8) (base : Nat) : (strtoul p base).2.length ≤ p.length := by
  have hskip : ∀ q, (skipPlus q).length ≤ q.length := by
    intro q
    unfold skipPlus
    split
    · rw [length_cons]
      omega
    · exact le_rfl
  exact (parseUll_length _ base).trans ((hskip _).trans (dropWhile_suffix _).length_le)

/-- In front of what can be parsed `strtoul` skips nothing. -/
lemma strtoul_plain (h : ∀ c ∈ p.head?, isBlank c = false ∧ c ≠ 43) : strtoul p base = parseUll p base := by
  rw [strtoul, dropWhile_blank_eq.mpr fun c hc => (h c hc).1]
  congr 1
  unfold skipPlus
  split
  · exact absurd rfl (h 43 rfl).2
  · rfl

lemma head_of_digits (hd : digitsOf base p ≠ []) : ∀ c ∈ p.head?, isBlank c = false ∧ c ≠ 43 := by
  intro c hc
  by_contra hno
  have hskip : isBlank c = true ∨ c = 43 ∨ c = 45 ∨ c = 11 ∨ c = 12 := by
    rw [not_and_or, Bool.not_eq_false, not_not] at hno
    tauto
  obtain ⟨r, rfl⟩ := head?_eq_some_iff.mp hc
  exact hd (digitsOf_skipped hskip)

lemma strtol_follows (s : List UInt8) (base : Nat) : strtol s base = strto s base ↔ Follows base s true := by
  rw [← strtoll_follows, strtol, strtoll]
  rcases blank_cases s with hb | ⟨c, r, hp, hc, -⟩
  · rw [signed_eq, signed_eq, hb, ← unsignedPart]
    by_cases hnone : digitsOf base (unsignedPart s) = []
    · by_cases heq : unsignedPart s = s
      · have hs := (unsignedPart_eq hb).mp heq
        rw [strtoul_plain fun c hc => by
          rw [heq] at hc
          exact ⟨(hs c hc).1, (hs c hc).2.1⟩]
      · -- both end behind what they have skipped
        have hlt : (unsignedPart s).length < s.length :=
          lt_of_le_of_ne (unsignedPart_suffix s).length_le fun h => heq ((unsignedPart_suffix s).eq_of_length h)
        have hend : (strto s base).2 = s := by
          rw [strto]
          rw [if_pos hnone]
        have hbehind {x : Nat × List UInt8} (hx : x.2.length ≤ (unsignedPart s).length) : x ≠ strto s base := by
          rintro rfl
          rw [hend] at hx
          omega
        exact iff_of_false (hbehind (strtoul_length _ _)) (hbehind (parseUll_length _ _))
    · rw [strtoul_plain (head_of_digits hnone)]
  · rw [hp, signed_eq, signed_eq, show splitSign (c :: r) = (false, c :: r) by rcases hc with rfl | rfl <;> rfl]
    dsimp only
    rw [strtoul_plain fun x hx => by
      cases hx
      rcases hc with rfl | rfl <;> exact ⟨rfl, by decide⟩]

/-- The signed functions return what C prescribes exactly for the strings that they follow, and so do the unsigned ones,
which follow no minus. -/
theorem strto_reads (s : List UInt8) (base : Nat) :
    (strtol s base = strto s base ↔ Follows base s true) ∧ (strtoll s base = strto s base ↔ Follows base s true) ∧
    (strtoul s base = strto s base ↔ Follows base s false) ∧ (strtoull s base = strto s base ↔ Follows base s false) :=
  ⟨strtol_follows s base, strtoll_follows s base, strtoull_follows s base, strtoull_follows s base⟩

/-- `"0x"` in base 16, `" "`, and `"- 5"` with both signed functions. -/
theorem strto_differs : strtoull [48, 120] 16 = (0, []) ∧ strto [48, 120] 16 = (0, [120]) ∧
    strtoull [32] 10 = (0, []) ∧ strto [32] 10 = (0, [32]) ∧
    strtol [45, 32, 53] 10 = (2 ^ 64 - 5, []) ∧ strtoll [45, 32, 53] 10 = (0, [32, 53]) ∧
    strto [45, 32, 53] 10 = (0, [45, 32, 53]) ∧ strtoull [45, 53] 10 = (0, [45, 53]) ∧
    strto [45, 53] 10 = (2 ^ 64 - 5, []) ∧ strtol [11, 53] 10 = (0, [11, 53]) ∧ strto [11, 53] 10 = (5, []) := by
  decide

end VibeOS.Strtol
