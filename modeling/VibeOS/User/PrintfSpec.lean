import VibeOS.User.Printf

/-!
# What C prescribes for formatted output

A format with its arguments is a list of items (`Item`): ordinary characters, and conversions with flags, width and
precision. `Item.text` is what the standard prescribes for an item. Where the standard leaves a combination undefined,
a flag or a precision that does not belong to the conversion has no effect, and `%p` is `0x` with the digits of `%x`.

`format` emits the text of an item exactly when no precision is one that the formatter mistakes for a width and no
character has a width (`Item.Agrees`), and then that of any items (`printf_conforms`).
-/

namespace VibeOS.Printf

open List Option Function

/-! ### Items -/

/-- The flags that `format` obeys. -/
inductive Flag where
  | minus
  | zero
  | hash
deriving DecidableEq

def Flag.byte : Flag → UInt8
  | .minus => '-'.toUInt8
  | .zero => '0'.toUInt8
  | .hash => '#'.toUInt8

/-- A width in digits, or taken from the arguments. -/
inductive Width where
  | omitted
  | decimal (ds : List UInt8)
  | star (w : BitVec 32)

/-- No precision, digits (none is zero), or an argument. -/
inductive Precision where
  | omitted
  | decimal (ds : List UInt8)
  | star (k : BitVec 32)

/-- What may stand between the `%` and the conversion. -/
structure Directive where
  flags : List Flag
  width : Width
  precision : Precision

/-- The length modifiers. -/
inductive Length where
  | l
  | ll
  | z

/-- An integer argument with its length modifier. -/
inductive Value where
  | int (v : BitVec 32)
  | long (len : Length) (v : BitVec 64)

/-- A conversion with its argument. -/
inductive Conv where
  | d (v : Value)
  | i (v : Value)
  | u (v : Value)
  | x (upper : Bool) (v : Value)
  | o (v : Value)
  | s (str : Option (List UInt8))
  | c (v : BitVec 32)
  | p (v : BitVec 64)
  | percent

/-- A part of a format. -/
inductive Item where
  | ordinary (c : UInt8)
  | conversion (d : Directive) (c : Conv)

/-! ### Their bytes and arguments -/

def decimalValue (ds : List UInt8) : Nat := ds.foldl (fun v c => v * 10 + digitValue c) 0

def Width.bytes : Width → List UInt8
  | .omitted => []
  | .decimal ds => ds
  | .star _ => ['*'.toUInt8]

def Width.args : Width → List Arg
  | .star w => [.int w]
  | _ => []

def Precision.bytes : Precision → List UInt8
  | .omitted => []
  | .decimal ds => '.'.toUInt8 :: ds
  | .star _ => ['.'.toUInt8, '*'.toUInt8]

def Precision.args : Precision → List Arg
  | .star k => [.int k]
  | _ => []

def Directive.bytes (d : Directive) : List UInt8 := d.flags.map Flag.byte ++ (d.width.bytes ++ d.precision.bytes)

def Directive.args (d : Directive) : List Arg := d.width.args ++ d.precision.args

def lengthBytes : Option Length → List UInt8
  | none => []
  | some .l => ['l'.toUInt8]
  | some .ll => ['l'.toUInt8, 'l'.toUInt8]
  | some .z => ['z'.toUInt8]

def Value.length : Value → Option Length
  | .int _ => none
  | .long len _ => some len

def Value.arg : Value → Arg
  | .int v => .int v
  | .long _ v => .long v

def Value.toInt : Value → Int
  | .int v => v.toInt
  | .long _ v => v.toInt

def Value.toNat : Value → Nat
  | .int v => v.toNat
  | .long _ v => v.toNat

def Conv.length : Conv → Option Length
  | .d v => v.length
  | .i v => v.length
  | .u v => v.length
  | .x _ v => v.length
  | .o v => v.length
  | _ => none

def Conv.letter : Conv → UInt8
  | .d _ => 'd'.toUInt8
  | .i _ => 'i'.toUInt8
  | .u _ => 'u'.toUInt8
  | .x upper _ => if upper then 'X'.toUInt8 else 'x'.toUInt8
  | .o _ => 'o'.toUInt8
  | .s _ => 's'.toUInt8
  | .c _ => 'c'.toUInt8
  | .p _ => 'p'.toUInt8
  | .percent => '%'.toUInt8

def Conv.args : Conv → List Arg
  | .d v => [v.arg]
  | .i v => [v.arg]
  | .u v => [v.arg]
  | .x _ v => [v.arg]
  | .o v => [v.arg]
  | .s str => [.str str]
  | .c v => [.int v]
  | .p v => [.ptr v]
  | .percent => []

def Item.bytes : Item → List UInt8
  | .ordinary c => [c]
  | .conversion d c => '%'.toUInt8 :: (d.bytes ++ (lengthBytes c.length ++ [c.letter]))

def Item.args : Item → List Arg
  | .ordinary _ => []
  | .conversion d c => d.args ++ c.args

/-- A width in digits does not begin with the flag `0` and is an `int`; so is what its argument stands for. -/
def Width.WellFormed : Width → Prop
  | .omitted => True
  | .decimal ds => (∀ c ∈ ds, isDigit c = true) ∧ ds ≠ [] ∧ ds.head? ≠ some '0'.toUInt8 ∧ decimalValue ds < 2 ^ 31
  | .star w => w.toInt.natAbs < 2 ^ 31

def Precision.WellFormed : Precision → Prop
  | .decimal ds => (∀ c ∈ ds, isDigit c = true) ∧ decimalValue ds < 2 ^ 31
  | _ => True

/-- The length of a string is an `int`. -/
def Conv.WellFormed : Conv → Prop
  | .s str => (str.getD nullText).length < 2 ^ 31
  | _ => True

def Item.WellFormed : Item → Prop
  | .ordinary c => c ≠ 0 ∧ c ≠ '%'.toUInt8
  | .conversion d c => d.width.WellFormed ∧ d.precision.WellFormed ∧ c.WellFormed

/-! ### Their text -/

def Width.value : Width → Nat
  | .omitted => 0
  | .decimal ds => decimalValue ds
  | .star w => w.toInt.natAbs

/-- A negative argument is a flag `-` and a width. -/
def Width.negative : Width → Bool
  | .star w => decide (w.toInt < 0)
  | _ => false

/-- A negative argument is taken as if the precision were left out. -/
def Precision.value : Precision → Option Nat
  | .omitted => none
  | .decimal ds => some (decimalValue ds)
  | .star k => if k.toInt < 0 then none else some k.toInt.toNat

def Precision.isDecimal : Precision → Bool
  | .decimal _ => true
  | _ => false

def Directive.left (d : Directive) : Bool := decide (.minus ∈ d.flags) || d.width.negative

def Directive.zero (d : Directive) : Bool := decide (.zero ∈ d.flags)

def Directive.alt (d : Directive) : Bool := decide (.hash ∈ d.flags)

/-- Padded to the width: with blanks on the right, with zeros behind the sign, or with blanks on the left. -/
def field (left zero : Bool) (width : Nat) (pre body : List UInt8) : List UInt8 :=
  let pad := width - (pre.length + body.length)
  if left then pre ++ body ++ List.replicate pad 32
  else if zero then pre ++ List.replicate pad 48 ++ body
  else List.replicate pad 32 ++ pre ++ body

/-- At least as many digits as the precision, and none for a zero with precision 0. -/
def withDigits (precision : Option Nat) (isZero : Bool) (ds : List UInt8) : List UInt8 :=
  match precision with
  | none => ds
  | some k => if k = 0 ∧ isZero = true then [] else List.replicate (k - ds.length) 48 ++ ds

/-- A precision turns the flag `0` off. -/
def Directive.number (d : Directive) (pre body : List UInt8) : List UInt8 :=
  field d.left (d.zero && d.precision.value.isNone) d.width.value pre body

def Directive.digits (d : Directive) (base : Nat) (upper : Bool) (v : Nat) : List UInt8 :=
  withDigits d.precision.value (decide (v = 0)) (numeral base upper v)

/-- The precision is increased, if necessary, so that the first digit is a zero. -/
def leadingZero (ds : List UInt8) : List UInt8 := if ds.head? = some 48 then ds else 48 :: ds

def Conv.text (d : Directive) : Conv → List UInt8
  | .d v => d.number (if v.toInt < 0 then ['-'.toUInt8] else []) (d.digits 10 false v.toInt.natAbs)
  | .i v => d.number (if v.toInt < 0 then ['-'.toUInt8] else []) (d.digits 10 false v.toInt.natAbs)
  | .u v => d.number [] (d.digits 10 false v.toNat)
  | .x upper v =>
    d.number (if d.alt = true ∧ v.toNat ≠ 0 then ['0'.toUInt8, if upper then 'X'.toUInt8 else 'x'.toUInt8] else [])
      (d.digits 16 upper v.toNat)
  | .o v => d.number [] (if d.alt then leadingZero (d.digits 8 false v.toNat) else d.digits 8 false v.toNat)
  | .p v => d.number ['0'.toUInt8, 'x'.toUInt8] (d.digits 16 false v.toNat)
  | .s str =>
    let str := str.getD nullText
    field d.left false d.width.value [] (match d.precision.value with | none => str | some k => str.take k)
  | .c v => field d.left false d.width.value [] [UInt8.ofBitVec (v.setWidth 8)]
  | .percent => ['%'.toUInt8]

def Item.text : Item → List UInt8
  | .ordinary c => [c]
  | .conversion d c => c.text d

/-! ### Where the formatter agrees -/

/-- For a number with `p` characters before its `m` digits. A precision up to `m` has no effect but to turn the flag
`0` off. A larger one is right as a width with zeros if nothing stands before the digits, or if the flag `0` makes up
for it. -/
def Directive.Agrees (d : Directive) (p m : Nat) (isZero : Bool) : Prop :=
  ∀ k, d.precision.value = some k →
    (k ≤ m ∧ ¬ (k = 0 ∧ isZero = true) ∧ (d.zero = false ∨ d.left = true ∨ d.width.value ≤ p + m)) ∨
    (m < k ∧ d.left = false ∧
      (d.precision.isDecimal = true ∧ d.width.value < k ∧ p = 0 ∨ d.zero = true ∧ d.width.value = p + k))

def Conv.Agrees (d : Directive) : Conv → Prop
  | .d v => d.Agrees (if v.toInt < 0 then 1 else 0) (numeral 10 false v.toInt.natAbs).length (decide (v.toInt = 0))
  | .i v => d.Agrees (if v.toInt < 0 then 1 else 0) (numeral 10 false v.toInt.natAbs).length (decide (v.toInt = 0))
  | .u v => d.Agrees 0 (numeral 10 false v.toNat).length (decide (v.toNat = 0))
  | .x upper v =>
    d.Agrees (if d.alt = true ∧ v.toNat ≠ 0 then 2 else 0) (numeral 16 upper v.toNat).length (decide (v.toNat = 0))
  | .o v =>
    -- the zero of the flag `#` is one of the digits
    d.Agrees 0 ((if d.alt = true ∧ v.toNat ≠ 0 then 1 else 0) + (numeral 8 false v.toNat).length)
      (decide (v.toNat = 0) && !d.alt)
  | .p v => d.Agrees 2 (numeral 16 false v.toNat).length (decide (v.toNat = 0))
  | .s str => ∀ k, d.precision.value = some k → d.precision.isDecimal = true →
      k ≤ d.width.value ∨ k ≤ (str.getD nullText).length
  | .c _ => d.width.value ≤ 1
  | .percent => True

def Item.Agrees : Item → Prop
  | .ordinary _ => True
  | .conversion d c => c.Agrees d

/-! ### Reading a directive -/

def isFlag (c : UInt8) : Bool :=
  ['-'.toUInt8, '0'.toUInt8, '#'.toUInt8, '+'.toUInt8, ' '.toUInt8].contains c

/-- The byte begins neither a width nor a precision, and is no flag. -/
def EndsDirective (c : UInt8) : Prop := isFlag c = false ∧ isDigit c = false ∧ c ≠ '*'.toUInt8 ∧ c ≠ '.'.toUInt8

instance EndsDirective.instDecidable (c : UInt8) : Decidable (EndsDirective c) := inferInstanceAs (Decidable (_ ∧ _))

variable {c : UInt8} {ds pre : List UInt8} {n base : Nat}

lemma flags_of_not_flag (hc : isFlag c = false) (fmt : List UInt8) (sp : Spec) :
    flags (c :: fmt) sp = (sp, c :: fmt) := by
  have hne : c ≠ '-'.toUInt8 ∧ c ≠ '0'.toUInt8 ∧ c ≠ '#'.toUInt8 ∧ c ≠ '+'.toUInt8 ∧ c ≠ ' '.toUInt8 := by
    simpa [isFlag] using hc
  obtain ⟨h1, h2, h3, h4, h5⟩ := hne
  rw [flags, if_neg h1, if_neg h2, if_neg h3, if_neg (not_or.mpr ⟨h4, h5⟩)]

lemma flags_bytes (hc : isFlag c = false) (rest : List UInt8) (fs : List Flag) (sp : Spec) :
    flags (fs.map Flag.byte ++ c :: rest) sp = ({ sp with
        left := sp.left || decide (.minus ∈ fs)
        zero := sp.zero || decide (.zero ∈ fs), alt := sp.alt || decide (.hash ∈ fs) }, c :: rest) := by
  induction fs generalizing sp with
  | nil => simp [flags_of_not_flag hc]
  | cons f fs ih =>
    cases f with
    | minus =>
      have hstep : flags ((Flag.minus :: fs).map Flag.byte ++ c :: rest) sp =
          flags (fs.map Flag.byte ++ c :: rest) { sp with left := true } := rfl
      rw [hstep, ih]
      simp
    | zero =>
      have hstep : flags ((Flag.zero :: fs).map Flag.byte ++ c :: rest) sp =
          flags (fs.map Flag.byte ++ c :: rest) { sp with zero := true } := rfl
      rw [hstep, ih]
      simp
    | hash =>
      have hstep : flags ((Flag.hash :: fs).map Flag.byte ++ c :: rest) sp =
          flags (fs.map Flag.byte ++ c :: rest) { sp with alt := true } := rfl
      rw [hstep, ih]
      simp

lemma le_foldl_decimal (ds : List UInt8) (v : Nat) : v ≤ ds.foldl (fun v c => v * 10 + digitValue c) v := by
  induction ds generalizing v with
  | nil => exact le_rfl
  | cons c ds ih =>
    have := ih (v * 10 + digitValue c)
    rw [foldl_cons]
    omega

lemma decimal_digits (hc : isDigit c = false) (rest : List UInt8)
    (hds : ∀ c ∈ ds, isDigit c = true) {v : Nat} (hv : ds.foldl (fun v c => v * 10 + digitValue c) v < 2 ^ 31) :
    decimal v (ds ++ c :: rest) = (((ds.foldl (fun v c => v * 10 + digitValue c) v : Nat) : Int), c :: rest) := by
  induction ds generalizing v with
  | nil => simp [decimal, hc]
  | cons a ds ih =>
    rw [foldl_cons] at hv ⊢
    have hle := le_foldl_decimal ds (v * 10 + digitValue a)
    have hfits : wrap32 ((v : Int) * 10 + digitValue a) = ((v * 10 + digitValue a : Nat) : Int) := by
      rw [wrap32_of_fits]
      · rfl
      · unfold Fits32
        omega
    rw [cons_append, decimal, if_pos (hds a mem_cons_self), hfits, ih (fun b hb => hds b (mem_cons_of_mem _ hb)) hv]

lemma widthOf_bytes {w : Width} (hw : w.WellFormed) (hc : isDigit c = false) (hstar : c ≠ '*'.toUInt8)
    (rest : List UInt8) (args : List Arg) (sp : Spec) : widthOf sp (w.bytes ++ c :: rest) (w.args ++ args) =
      some ({ sp with left := sp.left || w.negative, width := w.value }, c :: rest, args) := by
  cases w with
  | omitted =>
    simp only [Width.bytes, Width.args, Width.negative, Width.value, nil_append, widthOf, if_neg hstar, decimal,
      hc, Bool.or_false]
    rfl
  | decimal ds =>
    obtain ⟨hds, hne, -, hlt⟩ := hw
    obtain ⟨a, t, rfl⟩ := exists_cons_of_ne_nil hne
    have ha : a ≠ '*'.toUInt8 := fun h => by
      have := hds a mem_cons_self
      rw [h] at this
      exact absurd this (by decide)
    have hdec := decimal_digits hc rest hds (v := 0) hlt
    simp only [Width.bytes, Width.args, Width.negative, Width.value, nil_append, cons_append, widthOf,
      if_neg ha, Bool.or_false] at hdec ⊢
    rw [Nat.cast_zero] at hdec
    rw [hdec]
    rfl
  | star w =>
    have hlt : w.toInt.natAbs < 2 ^ 31 := hw
    have hunfold : widthOf sp ((Width.star w).bytes ++ c :: rest) ((Width.star w).args ++ args) =
        some (if w.toInt < 0 then ({ sp with left := true, width := wrap32 (-w.toInt) }, c :: rest, args)
          else ({ sp with width := w.toInt }, c :: rest, args)) := rfl
    rw [hunfold]
    by_cases hneg : w.toInt < 0
    · have hfits : wrap32 (-w.toInt) = (w.toInt.natAbs : Int) := by
        rw [wrap32_of_fits]
        · omega
        · unfold Fits32
          omega
      rw [if_pos hneg, hfits]
      simp [Width.negative, Width.value, hneg]
    · have habs : w.toInt = (w.toInt.natAbs : Int) := by omega
      simp [Width.negative, Width.value, hneg, ← habs]

def Precision.apply (sp : Spec) : Precision → Spec
  | .omitted => sp
  | .decimal ds => withPrecision sp (decimalValue ds)
  | .star k => { sp with prec := if k.toInt < 0 then -1 else k.toInt }

lemma precisionOf_bytes {k : Precision} (hk : k.WellFormed) (hc : EndsDirective c)
    (rest : List UInt8) (args : List Arg) (sp : Spec) :
    precisionOf sp (k.bytes ++ c :: rest) (k.args ++ args) = some (k.apply sp, c :: rest, args) := by
  obtain ⟨-, hdigit, hstar, hdot⟩ := hc
  cases k with
  | omitted =>
    simp only [Precision.bytes, Precision.args, nil_append, precisionOf, if_neg hdot]
    rfl
  | decimal ds =>
    have hdec := decimal_digits hdigit rest hk.1 (v := 0) hk.2
    have hhead : (ds ++ c :: rest).head? ≠ some '*'.toUInt8 := by
      cases ds with
      | nil => simpa using hstar
      | cons a t =>
        intro h
        have ha := hk.1 a mem_cons_self
        have : a = '*'.toUInt8 := by simpa using h
        rw [this] at ha
        exact absurd ha (by decide)
    rw [Nat.cast_zero] at hdec
    simp only [Precision.bytes, Precision.args, nil_append, cons_append, precisionOf, if_true, if_neg hhead, hdec]
    rfl
  | star k => rfl

lemma lengthOf_bytes (hl : c ≠ 'l'.toUInt8) (hz : c ≠ 'z'.toUInt8) (len : Option Length)
    (rest : List UInt8) (sp : Spec) :
    lengthOf sp (lengthBytes len ++ c :: rest) = ({ sp with size64 := sp.size64 || len.isSome }, c :: rest) := by
  have hhead : (c :: rest).head? ≠ some 'l'.toUInt8 := by simpa using hl
  cases len with
  | none => simp [lengthBytes, lengthOf, if_neg hl, if_neg hz]
  | some len =>
    cases len with
    | l =>
      simp only [lengthBytes, cons_append, nil_append, lengthOf, if_true, if_neg hhead]
      simp
    | ll => simp [lengthBytes, lengthOf]
    | z =>
      have hne : 'z'.toUInt8 ≠ 'l'.toUInt8 := by decide
      simp [lengthBytes, lengthOf, if_neg hne]

/-- The locals of `format` at a conversion. -/
def Directive.spec (d : Directive) (size64 : Bool) : Spec :=
  { d.precision.apply ⟨d.left, d.zero, d.alt, d.width.value, -1, false⟩ with size64 := size64 }

lemma Precision.apply_size64 (sp : Spec) (k : Precision) : (k.apply sp).size64 = sp.size64 := by
  cases k with
  | omitted => rfl
  | star k => rfl
  | decimal ds =>
    change (withPrecision sp (decimalValue ds)).size64 = _
    unfold withPrecision
    split <;> rfl

lemma lengthBytes_head (len : Option Length) (hc : EndsDirective c) (rest : List UInt8) :
    ∃ b t, lengthBytes len ++ c :: rest = b :: t ∧ EndsDirective b := by
  cases len with
  | none => exact ⟨c, rest, rfl, hc⟩
  | some len =>
    cases len with
    | l => exact ⟨_, _, rfl, by decide⟩
    | ll => exact ⟨_, _, rfl, by decide⟩
    | z => exact ⟨_, _, rfl, by decide⟩

lemma Precision.bytes_head (k : Precision) (hc : EndsDirective c) (rest : List UInt8) :
    ∃ b t, k.bytes ++ c :: rest = b :: t ∧ isFlag b = false ∧ isDigit b = false ∧ b ≠ '*'.toUInt8 := by
  cases k with
  | omitted => exact ⟨c, rest, rfl, hc.1, hc.2.1, hc.2.2.1⟩
  | decimal ds => exact ⟨_, _, rfl, by decide, by decide, by decide⟩
  | star k => exact ⟨_, _, rfl, by decide, by decide, by decide⟩

lemma isFlag_of_digit (hc : isDigit c) (h0 : c ≠ '0'.toUInt8) : isFlag c = false := by
  by_contra hflag
  rw [Bool.not_eq_false] at hflag
  have hmem : c = '-'.toUInt8 ∨ c = '0'.toUInt8 ∨ c = '#'.toUInt8 ∨ c = '+'.toUInt8 ∨ c = ' '.toUInt8 := by
    simpa [isFlag] using hflag
  rcases hmem with rfl | rfl | rfl | rfl | rfl
  · exact absurd hc (by decide)
  · exact h0 rfl
  · exact absurd hc (by decide)
  · exact absurd hc (by decide)
  · exact absurd hc (by decide)

lemma Width.bytes_head {w : Width} (hw : w.WellFormed) (hc : isFlag c = false) (rest : List UInt8) :
    ∃ b t, w.bytes ++ c :: rest = b :: t ∧ isFlag b = false := by
  cases w with
  | omitted => exact ⟨c, rest, rfl, hc⟩
  | star w => exact ⟨_, _, rfl, by decide⟩
  | decimal ds =>
    obtain ⟨hds, hne, hzero, -⟩ := hw
    obtain ⟨a, t, rfl⟩ := exists_cons_of_ne_nil hne
    exact ⟨a, _, rfl, isFlag_of_digit (hds a mem_cons_self) (by simpa using hzero)⟩

lemma parse_directive {d : Directive} (hw : d.width.WellFormed) (hk : d.precision.WellFormed)
    (hc : EndsDirective c) (hl : c ≠ 'l'.toUInt8) (hz : c ≠ 'z'.toUInt8) (len : Option Length) (rest : List UInt8)
    (args : List Arg) : parse (d.bytes ++ (lengthBytes len ++ c :: rest)) (d.args ++ args) =
      some (d.spec len.isSome, c :: rest, args) := by
  have hlen := lengthOf_bytes hl hz len rest (d.precision.apply ⟨d.left, d.zero, d.alt, d.width.value, -1, false⟩)
  rw [Precision.apply_size64] at hlen
  obtain ⟨b, t, hb, hbend⟩ := lengthBytes_head len hc rest
  rw [hb] at hlen ⊢
  have hprec := precisionOf_bytes hk hbend t args ⟨d.left, d.zero, d.alt, d.width.value, -1, false⟩
  obtain ⟨e, u, he, heflag, hedigit, hestar⟩ := d.precision.bytes_head hbend t
  rw [he] at hprec
  have hwidth := widthOf_bytes hw hedigit hestar u (d.precision.args ++ args)
    ⟨decide (.minus ∈ d.flags), d.zero, d.alt, 0, -1, false⟩
  obtain ⟨g, v, hg, hgflag⟩ := Width.bytes_head hw heflag u
  rw [hg] at hwidth
  have hflags := flags_bytes hgflag v d.flags .start
  unfold parse Directive.bytes Directive.args
  rw [append_assoc, append_assoc, append_assoc, he, hg, hflags]
  simp only [Spec.start, Bool.false_or]
  change (widthOf ⟨decide (.minus ∈ d.flags), d.zero, d.alt, 0, -1, false⟩ (g :: v)
    (d.width.args ++ (d.precision.args ++ args))).bind _ = _
  rw [hwidth, bind_some]
  change (precisionOf ⟨d.left, d.zero, d.alt, d.width.value, -1, false⟩ (e :: u) (d.precision.args ++ args)).map _ = _
  rw [hprec, map_some, hlen]
  rfl

/-! ### Padding -/

lemma field_of_le {left zero : Bool} {width : Nat} {body : List UInt8} (h : width ≤ pre.length + body.length) :
    field left zero width pre body = pre ++ body := by
  unfold field
  rw [Nat.sub_eq_zero_of_le h]
  cases left <;> cases zero <;> simp

lemma length_field (left zero : Bool) (width : Nat) (pre body : List UInt8) :
    (field left zero width pre body).length = max width (pre.length + body.length) := by
  unfold field
  cases left <;> cases zero <;> simp <;> omega

/-- The blanks of a field whose parts have none. -/
lemma count_field {body : List UInt8} (left zero : Bool) (width : Nat) (hpre : 32 ∉ pre) (hbody : 32 ∉ body) :
    (field left zero width pre body).count 32 =
      if left = false ∧ zero = true then 0 else width - (pre.length + body.length) := by
  unfold field
  cases left <;> cases zero <;>
    simp [count_eq_zero_of_not_mem hpre, count_eq_zero_of_not_mem hbody, count_replicate]

lemma assemble_eq {sp : Spec} {width : Nat} (hw : sp.width = width) (hlt : width < 2 ^ 31)
    (hlen : pre.length + ds.length < 2 ^ 31) : assemble sp pre ds.reverse = field sp.left sp.zero width pre ds := by
  have hpad : (wrap32 (sp.width - (pre.length + ds.reverse.length))).toNat = width - (pre.length + ds.length) := by
    rw [length_reverse, hw, wrap32_of_fits]
    · omega
    · unfold Fits32
      omega
  unfold assemble field
  rw [hpad, reverse_reverse]
  cases sp.left <;> cases sp.zero <;> simp

lemma Directive.spec_cases (d : Directive) (size64 : Bool) :
    (d.spec size64).left = d.left ∧ (d.spec size64).alt = d.alt ∧ (d.spec size64).size64 = size64 ∧
    (d.spec size64).prec = (match d.precision.value with | none => -1 | some k => (k : Int)) ∧
    (((d.spec size64).width = d.width.value ∧ (d.spec size64).zero = d.zero ∧
        ∀ k, d.precision.value = some k → d.precision.isDecimal → k ≤ d.width.value) ∨
      ∃ k : Nat, d.precision.value = some k ∧ d.precision.isDecimal ∧ d.width.value < k ∧
        (d.spec size64).width = k ∧ (d.spec size64).zero = true) := by
  obtain ⟨fs, w, k⟩ := d
  cases k with
  | omitted => exact ⟨rfl, rfl, rfl, rfl, .inl ⟨rfl, rfl, fun k hk => by cases hk⟩⟩
  | star k =>
    refine ⟨rfl, rfl, rfl, ?_, .inl ⟨rfl, rfl, fun _ _ h => by cases h⟩⟩
    by_cases hneg : k.toInt < 0
    · simp [Directive.spec, Precision.apply, Precision.value, hneg]
    · simp [Directive.spec, Precision.apply, Precision.value, hneg]
      omega
  | decimal ds =>
    by_cases hlt : w.value < decimalValue ds
    · have hgt : ((decimalValue ds : Nat) : Int) > (w.value : Int) := by exact_mod_cast hlt
      simp only [Directive.spec, Precision.apply, withPrecision, if_pos hgt, Precision.value, true_and]
      exact .inr ⟨_, rfl, rfl, hlt, rfl, trivial⟩
    · have hgt : ¬ ((decimalValue ds : Nat) : Int) > (w.value : Int) := by
        exact_mod_cast hlt
      simp only [Directive.spec, Precision.apply, withPrecision, if_neg hgt, Precision.value, true_and]
      exact .inl fun k hk _ => by
        cases hk
        exact not_lt.mp hlt

lemma Width.value_lt {w : Width} (hw : w.WellFormed) : w.value < 2 ^ 31 := by
  cases w with
  | omitted => exact Nat.two_pow_pos 31
  | decimal ds => exact hw.2.2.2
  | star w => exact hw

lemma Precision.value_lt {k : Precision} (hk : k.WellFormed) (hn : k.value = some n)
    (hdec : k.isDecimal) : n < 2 ^ 31 := by
  cases k with
  | omitted => cases hn
  | star k => cases hdec
  | decimal ds =>
    cases hn
    exact hk.2

section

variable {d : Directive} (hw : d.width.WellFormed) (hk : d.precision.WellFormed) (size64 : Bool) {isZero : Bool}
  (hlen : pre.length + ds.length < 2 ^ 31)
include hw hk hlen

lemma assemble_field :
    ∃ zero width, assemble (d.spec size64) pre ds.reverse = field d.left zero width pre ds ∧
      ((width = d.width.value ∧ zero = d.zero ∧
        ∀ k, d.precision.value = some k → d.precision.isDecimal → k ≤ d.width.value) ∨
      (zero = true ∧ d.precision.value = some width ∧ d.precision.isDecimal ∧ d.width.value < width)) := by
  obtain ⟨hleft, -, -, -, ⟨hwidth, hzero, hle⟩ | ⟨k, hv, hdec, hlt, hwidth, hzero⟩⟩ := d.spec_cases size64
  · exact ⟨_, _, by rw [assemble_eq hwidth (Width.value_lt hw) hlen, hleft], .inl ⟨rfl, hzero, hle⟩⟩
  · exact ⟨_, _, by rw [assemble_eq hwidth (Precision.value_lt hk hv hdec) hlen, hleft], .inr ⟨hzero, hv, hdec, hlt⟩⟩

lemma assemble_of_agrees (hagree : d.Agrees pre.length ds.length isZero) :
    assemble (d.spec size64) pre ds.reverse = d.number pre (withDigits d.precision.value isZero ds) := by
  obtain ⟨zero, width, heq, hcases⟩ := assemble_field hw hk size64 hlen
  rw [heq, Directive.number]
  rcases hv : d.precision.value with _ | k
  · -- no precision
    rcases hcases with ⟨rfl, rfl, -⟩ | ⟨-, hv', -⟩
    · simp [withDigits]
    · cases hv.symm.trans hv'
  · simp only [isNone_some, Bool.and_false, withDigits]
    rcases hagree k hv with ⟨hkm, hvanish, hflag⟩ | ⟨hmk, hnleft, hlong⟩
    · -- the precision adds nothing
      rw [if_neg hvanish, Nat.sub_eq_zero_of_le hkm, replicate_zero, nil_append]
      rcases hcases with ⟨rfl, rfl, -⟩ | ⟨-, hv', -, hlt⟩
      · rcases hflag with h | h | h
        · rw [h]
        · rw [h]
          rfl
        · rw [field_of_le h, field_of_le h]
      · cases hv.symm.trans hv'
        rw [field_of_le (by omega), field_of_le (by omega)]
    · -- the precision is larger than the number of digits
      have hbody : (List.replicate (k - ds.length) 48 ++ ds).length = k := by
        rw [length_append, length_replicate]
        omega
      have hright : d.width.value ≤ pre.length + (List.replicate (k - ds.length) 48 ++ ds).length := by
        rw [hbody]
        omega
      rw [if_neg (by omega), field_of_le hright]
      rcases hcases with ⟨rfl, rfl, hle⟩ | ⟨rfl, hv', hdec, hlt⟩
      · rcases hlong with ⟨hdec, hlt, -⟩ | ⟨hz, heq⟩
        · exact absurd (hle k hv hdec) (by omega)
        · rw [hz, hnleft, heq]
          simp only [field, Bool.false_eq_true, if_false, if_true, append_assoc]
          congr 3
          omega
      · cases hv.symm.trans hv'
        rcases hlong with ⟨-, -, hpre⟩ | ⟨-, heq⟩
        · rw [hnleft]
          simp only [field, Bool.false_eq_true, if_false, if_true, append_assoc, hpre, zero_add]
        · omega

/-- The texts have the same length and the same number of blanks only under the condition. -/
lemma agrees_of_assemble (hpre : 32 ∉ pre) (hds : 32 ∉ ds) (hne : ds ≠ [])
    (h : assemble (d.spec size64) pre ds.reverse = d.number pre (withDigits d.precision.value isZero ds)) :
    d.Agrees pre.length ds.length isZero := by
  intro k hv
  have hm := length_pos_iff.mpr hne
  have hbody : 32 ∉ withDigits (some k) isZero ds := by
    unfold withDigits
    dsimp only
    split_ifs <;> simp [hds]
  have hb : (withDigits (some k) isZero ds).length = if k = 0 ∧ isZero = true then 0 else max k ds.length := by
    unfold withDigits
    dsimp only
    split_ifs
    · rfl
    · rw [length_append, length_replicate]
      omega
  obtain ⟨zero, width, heq, hcases⟩ := assemble_field hw hk size64 hlen
  rw [heq, Directive.number, hv, isNone_some, Bool.and_false] at h
  have hl := congrArg length h
  have hc := congrArg (count 32) h
  rw [length_field, length_field, hb] at hl
  rw [count_field _ _ _ hpre hds, count_field _ _ _ hpre hbody, hb] at hc
  simp only [Bool.false_eq_true, and_false, if_false] at hc
  rcases hcases with ⟨rfl, rfl, hle⟩ | ⟨rfl, hv', hdec, hlt⟩
  · by_cases hvanish : k = 0 ∧ isZero = true
    · rw [if_pos hvanish] at hl hc
      split_ifs at hc <;> omega
    · rw [if_neg hvanish] at hl hc
      by_cases hflag : d.left = false ∧ d.zero = true
      · rw [if_pos hflag] at hc
        by_cases hkm : k ≤ ds.length
        · exact .inl ⟨hkm, hvanish, .inr (.inr (by omega))⟩
        · exact .inr ⟨by omega, hflag.1, .inr ⟨hflag.2, by omega⟩⟩
      · rw [if_neg hflag] at hc
        refine .inl ⟨by omega, hvanish, ?_⟩
        cases hleft : d.left <;> cases hz : d.zero <;> simp_all
  · cases hv.symm.trans hv'
    have hvanish : ¬ (k = 0 ∧ isZero = true) := by omega
    rw [if_neg hvanish] at hl hc
    by_cases hkm : k ≤ ds.length
    · exact .inl ⟨hkm, hvanish, .inr (.inr (by omega))⟩
    · have hleft : d.left = false := by
        by_contra hleft
        rw [if_neg fun h => hleft h.1] at hc
        omega
      exact .inr ⟨by omega, hleft, .inl ⟨hdec, hlt, by omega⟩⟩

lemma assemble_number (hpre : 32 ∉ pre) (hds : 32 ∉ ds) (hne : ds ≠ []) :
    assemble (d.spec size64) pre ds.reverse = d.number pre (withDigits d.precision.value isZero ds) ↔
      d.Agrees pre.length ds.length isZero :=
  ⟨agrees_of_assemble hw hk size64 hlen hpre hds hne, assemble_of_agrees hw hk size64 hlen⟩

end

/-! ### Digits -/

lemma numeral_length_le (hb : 8 ≤ base) (upper : Bool) (v : BitVec 64) : (numeral base upper v.toNat).length ≤ 22 := by
  unfold numeral
  split
  · decide
  · have hlt : v.toNat < base ^ 22 := calc
      v.toNat < 2 ^ 64 := v.isLt
      _ ≤ 8 ^ 22 := by decide
      _ ≤ base ^ 22 := Nat.pow_le_pow_left hb 22
    rw [length_map, length_reverse]
    exact (Nat.digits_length_le_iff (by omega) _).mpr hlt

lemma blank_not_mem_numeral (hb : 8 ≤ base) (hb' : base ≤ 16) (upper : Bool) (v : Nat) :
    32 ∉ numeral base upper v := by
  have hchar : ∀ u, ∀ d < 16, digitChar u d ≠ 32 := by decide
  unfold numeral
  split_ifs
  · decide
  · intro h
    obtain ⟨d, hd, heq⟩ := mem_map.mp h
    exact hchar upper d ((Nat.digits_lt_base (by omega) (mem_reverse.mp hd)).trans_le hb') heq

lemma utoa_eq (hb : 8 ≤ base) (v : BitVec 64) (upper : Bool) :
    utoa v base upper = (numeral base upper v.toNat).reverse := by
  have hzero : v = 0 ↔ v.toNat = 0 := by
    rw [← BitVec.toNat_inj]
    rfl
  unfold utoa numeral
  by_cases hv : v = 0
  · rw [if_pos hv, if_pos (hzero.mp hv)]
    rfl
  · have hlt : v.toNat < base ^ 64 := lt_of_lt_of_le v.isLt (Nat.pow_le_pow_left (by omega) 64)
    rw [if_neg hv, if_neg (fun h => hv (hzero.mpr h)), digitLoop_eq (by omega) hlt, map_reverse, reverse_reverse]

lemma stored_utoa (hb : 8 ≤ base) (v : BitVec 64) (upper : Bool) :
    stored (utoa v base upper) = some (numeral base upper v.toNat).reverse := by
  have := numeral_length_le hb upper v
  rw [utoa_eq hb, stored, if_pos]
  rw [length_reverse]
  omega

lemma toNat_magnitude (v : BitVec 64) : (if v.toInt < 0 then ~~~v + 1 else v).toNat = v.toInt.natAbs := by
  have hcond := BitVec.toInt_eq_toNat_cond v
  by_cases hneg : v.toInt < 0
  · have hnot : ~~~v + 1 = -v := (BitVec.neg_eq_not_add v).symm
    rw [if_pos hneg, hnot, BitVec.toNat_neg]
    split at hcond <;> omega
  · rw [if_neg hneg]
    split at hcond <;> omega

lemma takeSigned_value (v : Value) (args : List Arg) :
    ∃ w : BitVec 64, takeSigned v.length.isSome (v.arg :: args) = some (w, args) ∧ w.toInt = v.toInt := by
  cases v with
  | int v => exact ⟨v.signExtend 64, rfl, BitVec.toInt_signExtend_of_le (by decide)⟩
  | long len v => exact ⟨v, rfl, rfl⟩

lemma takeUnsigned_value (v : Value) (args : List Arg) :
    ∃ w : BitVec 64, takeUnsigned v.length.isSome (v.arg :: args) = some (w, args) ∧ w.toNat = v.toNat := by
  cases v with
  | int v => exact ⟨v.setWidth 64, rfl, BitVec.toNat_setWidth_of_le (by decide)⟩
  | long len v => exact ⟨v, rfl, rfl⟩

lemma assemble_zero (sp : Spec) (ds : List UInt8) :
    assemble sp [48] ds.reverse = assemble sp [] (48 :: ds).reverse := by
  have hlen : ((([48] : List UInt8).length : Int) + (ds.reverse.length : Int)) =
      (([] : List UInt8).length : Int) + ((48 :: ds).reverse.length : Int) := by
    simp only [length_reverse, length_cons, length_nil]
    push_cast
    ring
  have hcomm : ∀ n, 48 :: (List.replicate n 48 ++ ds) = List.replicate n 48 ++ 48 :: ds := fun n => by
    rw [← cons_append, ← replicate_succ, replicate_succ', append_assoc]
    rfl
  unfold assemble
  rw [hlen, reverse_reverse, reverse_reverse]
  cases sp.left <;> cases sp.zero <;> simp [hcomm]

lemma digitChar_ne_zero : ∀ d < 8, d ≠ 0 → digitChar false d ≠ 48 := by decide

lemma numeral_head {v : Nat} (hv : v ≠ 0) : (numeral 8 false v).head? ≠ some 48 := by
  have hne : Nat.digits 8 v ≠ [] := Nat.digits_ne_nil_iff_ne_zero.mpr hv
  have hlast := Nat.getLast_digit_ne_zero 8 hv
  have hlt : (Nat.digits 8 v).getLast hne < 8 := Nat.digits_lt_base (by decide) (getLast_mem hne)
  rw [numeral, if_neg hv, head?_map, head?_reverse, getLast?_eq_getLast_of_ne_nil hne, map_some]
  intro h
  exact digitChar_ne_zero _ hlt hlast (some_injective _ h)

lemma leadingZero_digits (d : Directive) (v : Nat) : leadingZero (d.digits 8 false v) =
      withDigits d.precision.value false ((if v ≠ 0 then [48] else []) ++ numeral 8 false v) := by
  have hcons : ∀ (n : Nat) (ds : List UInt8), List.replicate n 48 ++ 48 :: ds = List.replicate (n + 1) 48 ++ ds :=
    fun n ds => by
      rw [replicate_succ', append_assoc]
      rfl
  unfold Directive.digits
  by_cases hv : v = 0
  · subst hv
    rcases d.precision.value with _ | _ | k
    · rfl
    · rfl
    · have h1 : numeral 8 false 0 = [48] := rfl
      rw [h1, if_neg (by simp)]
      simp only [withDigits, nil_append, length_singleton, Nat.add_sub_cancel, hcons, append_nil]
      simp [leadingZero, replicate_succ]
  · have hhead := numeral_head hv
    generalize numeral 8 false v = ds at hhead
    rw [if_pos hv, decide_eq_false hv]
    rcases d.precision.value with _ | k
    · rw [withDigits, leadingZero, if_neg hhead]
      rfl
    · simp only [withDigits, Bool.false_eq_true, and_false, if_false, singleton_append, length_cons]
      by_cases hk : k ≤ ds.length
      · rw [Nat.sub_eq_zero_of_le hk, Nat.sub_eq_zero_of_le (by omega), replicate_zero, nil_append,
          nil_append, leadingZero, if_neg hhead]
      · have hsub : k - ds.length = k - (ds.length + 1) + 1 := by omega
        rw [hcons, ← hsub, leadingZero, if_pos]
        rw [hsub]
        rfl

/-! ### Conversions -/

section

variable {d : Directive} (hw : d.width.WellFormed) (hk : d.precision.WellFormed)
include hw hk

lemma number_text (hb : 8 ≤ base) (hb' : base ≤ 16) (upper size64 : Bool) (v : BitVec 64)
    (hpre : pre.length ≤ 2) (hblank : 32 ∉ pre) (args : List Arg) :
    ∃ t, ((stored (utoa v base upper)).map fun num => (assemble (d.spec size64) pre num, args)) = some (t, args) ∧
      (t = d.number pre (d.digits base upper v.toNat) ↔
        d.Agrees pre.length (numeral base upper v.toNat).length (decide (v.toNat = 0))) := by
  have hlen := numeral_length_le hb upper v
  exact ⟨_, by rw [stored_utoa hb, map_some], assemble_number hw hk size64 (by omega) hblank
    (blank_not_mem_numeral hb hb' upper _) (numeral_ne_nil base upper _)⟩

lemma signed_text (v : Value) (args : List Arg) :
    ∃ t, ((takeSigned (d.spec v.length.isSome).size64 (v.arg :: args)).bind fun (v', args) =>
      (stored (utoa (if v'.toInt < 0 then ~~~v' + 1 else v') 10 false)).map fun num =>
        (assemble (d.spec v.length.isSome) (if v'.toInt < 0 then ['-'.toUInt8] else []) num, args)) = some (t, args) ∧
      (t = d.number (if v.toInt < 0 then ['-'.toUInt8] else []) (d.digits 10 false v.toInt.natAbs) ↔
        d.Agrees (if v.toInt < 0 then 1 else 0) (numeral 10 false v.toInt.natAbs).length (decide (v.toInt = 0))) := by
  obtain ⟨w, hw', hval⟩ := takeSigned_value v args
  have hmag := toNat_magnitude w
  have hzero : decide (v.toInt = 0) = decide (v.toInt.natAbs = 0) := by simp
  have hsign : (if v.toInt < 0 then 1 else 0) = (if v.toInt < 0 then ['-'.toUInt8] else []).length := by
    split <;> rfl
  rw [hval] at hmag
  rw [(d.spec_cases _).2.2.1, hw', bind_some, hzero, hsign, ← hmag]
  dsimp only
  rw [hval]
  exact number_text hw hk (by decide) (by decide) false _ _ (by split <;> decide) (by split <;> decide) args

lemma unsigned_text (hb : 8 ≤ base) (hb' : base ≤ 16) (upper : Bool) (v : Value) (pre' : BitVec 64 → List UInt8)
    (hpre : ∀ w : BitVec 64, w.toNat = v.toNat → pre' w = pre) (hlen : pre.length ≤ 2) (hblank : 32 ∉ pre)
    (args : List Arg) :
    ∃ t, ((takeUnsigned (d.spec v.length.isSome).size64 (v.arg :: args)).bind fun (v', args) =>
        (stored (utoa v' base upper)).map fun num => (assemble (d.spec v.length.isSome) (pre' v') num, args)) =
      some (t, args) ∧ (t = d.number pre (d.digits base upper v.toNat) ↔
        d.Agrees pre.length (numeral base upper v.toNat).length (decide (v.toNat = 0))) := by
  obtain ⟨w, hw', hval⟩ := takeUnsigned_value v args
  rw [(d.spec_cases _).2.2.1, hw', bind_some]
  dsimp only
  rw [hpre w hval, ← hval]
  exact number_text hw hk hb hb' upper _ w hlen hblank args

lemma octal_text (v : Value) (args : List Arg) :
    ∃ t, ((takeUnsigned (d.spec v.length.isSome).size64 (v.arg :: args)).bind fun (v', args) =>
      (stored (utoa v' 8 false)).map fun num => (assemble (d.spec v.length.isSome)
          (if (d.spec v.length.isSome).alt = true ∧ v' ≠ 0 then ['0'.toUInt8] else []) num, args)) = some (t, args) ∧
      (t = d.number [] (if d.alt then leadingZero (d.digits 8 false v.toNat) else d.digits 8 false v.toNat) ↔
        d.Agrees 0 ((if d.alt = true ∧ v.toNat ≠ 0 then 1 else 0) + (numeral 8 false v.toNat).length)
          (decide (v.toNat = 0) && !d.alt)) := by
  obtain ⟨w, hw', hval⟩ := takeUnsigned_value v args
  have hne : w ≠ 0 ↔ v.toNat ≠ 0 := by
    rw [← hval, ne_eq, ← BitVec.toNat_inj]
    rfl
  have hlen : (numeral 8 false w.toNat).length ≤ 22 := numeral_length_le le_rfl false w
  rw [hval] at hlen
  have hblank := blank_not_mem_numeral le_rfl (by decide) false v.toNat
  have hnil := numeral_ne_nil 8 false v.toNat
  rw [(d.spec_cases _).2.2.1, (d.spec_cases _).2.1, hw', bind_some]
  dsimp only
  rw [stored_utoa le_rfl, map_some, hval]
  refine ⟨_, rfl, ?_⟩
  cases halt : d.alt with
  | false =>
    rw [if_neg (by simp), if_neg (by simp), if_neg (by simp), zero_add, Bool.not_false, Bool.and_true]
    exact assemble_number hw hk _ (by simp; omega) not_mem_nil hblank hnil
  | true =>
    rw [if_pos rfl, leadingZero_digits, Bool.not_true, Bool.and_false]
    by_cases hv : v.toNat ≠ 0
    · rw [if_pos ⟨rfl, hne.mpr hv⟩, if_pos hv, if_pos ⟨rfl, hv⟩, add_comm 1]
      change assemble _ [48] _ = _ ↔ _
      rw [assemble_zero]
      exact assemble_number hw hk _ (by simp; omega) not_mem_nil (by simpa using hblank) (cons_ne_nil _ _)
    · rw [if_neg (fun h => hv (hne.mp h.2)), if_neg hv, if_neg fun h => hv h.2, zero_add]
      exact assemble_number hw hk _ (by simp; omega) not_mem_nil hblank hnil

lemma string_text {str : List UInt8} (hlen : str.length < 2 ^ 31) (size64 : Bool) :
    stringText (d.spec size64) str =
      field d.left false d.width.value [] (match d.precision.value with | none => str | some k => str.take k) ↔
    ∀ k, d.precision.value = some k → d.precision.isDecimal → k ≤ d.width.value ∨ k ≤ str.length := by
  obtain ⟨hleft, -, -, hprec, hcases⟩ := d.spec_cases size64
  have hwrap : wrap32 (str.length : Int) = str.length := wrap32_of_fits (by unfold Fits32; omega)
  -- the characters of the string
  obtain ⟨body, hbody, hblen, hb⟩ : ∃ body : List UInt8,
      body = (match d.precision.value with | none => str | some k => str.take k) ∧
      (if 0 ≤ (d.spec size64).prec ∧ (str.length : Int) > (d.spec size64).prec then (d.spec size64).prec
        else (str.length : Int)) = body.length ∧ body = str.take body.length := by
    refine ⟨_, rfl, ?_, ?_⟩
    · rw [hprec]
      rcases d.precision.value with _ | k
      · simp
      · simp only [length_take]
        split <;> omega
    · rcases d.precision.value with _ | k
      · simp
      · simp
  have hble : body.length ≤ str.length := by
    rw [hb]
    exact length_take_le' _ _
  have hcode {w : Nat} (hwidth : (d.spec size64).width = w) (hlt : w < 2 ^ 31) :
      stringText (d.spec size64) str = field d.left false w [] body := by
    have hpad : (wrap32 ((d.spec size64).width - body.length)).toNat = w - body.length := by
      rw [hwidth, wrap32_of_fits]
      · omega
      · unfold Fits32
        omega
    unfold stringText
    dsimp only
    rw [hwrap, hblen, Int.toNat_natCast, ← hb, hleft, hpad, field]
    cases d.left <;> simp
  rw [← hbody]
  rcases hcases with ⟨hwidth, -, hle⟩ | ⟨k, hv, hdec, hlt, hwidth, -⟩
  · rw [hcode hwidth (Width.value_lt hw)]
    exact iff_of_true rfl fun k hv hdec => .inl (hle k hv hdec)
  · rw [hcode hwidth (Precision.value_lt hk hv hdec)]
    have hmin : body.length = min k str.length := by rw [hbody, hv, length_take]
    refine ⟨fun h k' hv' _ => ?_, fun h => ?_⟩
    · cases hv.symm.trans hv'
      have hl := congrArg length h
      rw [length_field, length_field, length_nil] at hl
      exact .inr (by omega)
    · have := h k hv hdec
      rw [field_of_le (by simp; omega), field_of_le (by simp; omega)]

lemma convert_text {c : Conv} (hc : c.WellFormed) (args : List Arg) :
    ∃ t, convert (d.spec c.length.isSome) c.letter (c.args ++ args) = some (t, args) ∧ (t = c.text d ↔ c.Agrees d) := by
  cases c with
  | d v => exact signed_text hw hk v args
  | i v => exact signed_text hw hk v args
  | u v =>
    have hbase : 8 ≤ 10 ∧ 10 ≤ 16 := by decide
    exact unsigned_text hw hk hbase.1 hbase.2 false v (fun _ => []) (fun _ _ => rfl) (by decide) not_mem_nil args
  | x upper v =>
    have hbase : 8 ≤ 16 := by decide
    have hlen : (if d.alt = true ∧ v.toNat ≠ 0 then 2 else 0) = (if d.alt = true ∧ v.toNat ≠ 0
        then ['0'.toUInt8, if upper then 'X'.toUInt8 else 'x'.toUInt8] else []).length := by
      split <;> rfl
    have hpre : ∀ w : BitVec 64, w.toNat = v.toNat → ((d.spec v.length.isSome).alt = true ∧ w ≠ 0 ↔
        d.alt = true ∧ v.toNat ≠ 0) := fun w hval => by
      rw [(d.spec_cases _).2.1, ← hval, ne_eq, ← BitVec.toNat_inj]
      rfl
    rw [Conv.text, Conv.Agrees, hlen]
    have h := unsigned_text hw hk hbase le_rfl upper v _ (fun w hval => if_congr (hpre w hval) rfl rfl)
      (by rw [← hlen]; split <;> decide) (by split <;> cases upper <;> decide) args
    cases upper with
    | true => exact h
    | false => exact h
  | o v => exact octal_text hw hk v args
  | p v => exact number_text hw hk (by decide) (by decide) false false v (by decide) (by decide) args
  | s str => exact ⟨_, rfl, string_text hw hk hc false⟩
  | c v =>
    refine ⟨_, rfl, fun h => ?_, fun h => ?_⟩
    · have hl := congrArg length h
      rw [Conv.text, length_field] at hl
      exact (le_max_left _ _).trans hl.ge
    · have hle : d.width.value ≤ 1 := h
      rw [Conv.text, field_of_le (by simpa using hle)]
      rfl
  | percent => exact ⟨_, rfl, iff_of_true rfl trivial⟩

end

/-! ### The format -/

set_option maxRecDepth 8192 in
lemma Conv.letter_ends (c : Conv) : EndsDirective c.letter ∧ c.letter ≠ 'l'.toUInt8 ∧ c.letter ≠ 'z'.toUInt8 := by
  have h : ∀ b ∈ ['d'.toUInt8, 'i'.toUInt8, 'u'.toUInt8, 'x'.toUInt8, 'X'.toUInt8, 'o'.toUInt8, 's'.toUInt8,
      'c'.toUInt8, 'p'.toUInt8, '%'.toUInt8], EndsDirective b ∧ b ≠ 'l'.toUInt8 ∧ b ≠ 'z'.toUInt8 := by decide
  apply h
  cases c with
  | x upper v => cases upper <;> simp [Conv.letter]
  | _ => simp [Conv.letter]

lemma formatLoop_item {i : Item} (hi : i.WellFormed) (n : Nat) (fmt : List UInt8) (args : List Arg) :
    ∃ t, formatLoop (n + 1) (i.bytes ++ fmt) (i.args ++ args) = (formatLoop n fmt args).map (t ++ ·) ∧
      (t = i.text ↔ i.Agrees) := by
  cases i with
  | ordinary c =>
    refine ⟨[c], ?_, iff_of_true rfl trivial⟩
    change (if c ≠ '%'.toUInt8 then _ else _) = _
    rw [if_pos hi.2]
    rfl
  | conversion d c =>
    obtain ⟨hends, hl, hz⟩ := c.letter_ends
    have hparse := parse_directive hi.1 hi.2.1 hends hl hz c.length fmt (c.args ++ args)
    have hbytes : (Item.conversion d c).bytes ++ fmt =
        '%'.toUInt8 :: (d.bytes ++ (lengthBytes c.length ++ c.letter :: fmt)) := by
      simp [Item.bytes]
    have hargs : (Item.conversion d c).args ++ args = d.args ++ (c.args ++ args) := append_assoc _ _ _
    obtain ⟨t, hconv, ht⟩ := convert_text hi.1 hi.2.1 hi.2.2 args
    refine ⟨t, ?_, ht⟩
    rw [hbytes, hargs, formatLoop, if_neg (not_not.mpr rfl), hparse, bind_some]
    dsimp only
    rw [hconv, bind_some]

lemma formatLoop_items {items : List Item} (hi : ∀ i ∈ items, i.WellFormed) (hagree : ∀ i ∈ items, i.Agrees)
    (hn : items.length ≤ n) :
    formatLoop n (items.flatMap Item.bytes) (items.flatMap Item.args) = some (items.flatMap Item.text) := by
  induction items generalizing n with
  | nil =>
    cases n with
    | zero => rfl
    | succ n => rfl
  | cons i items ih =>
    obtain ⟨n, rfl⟩ : ∃ m, n = m + 1 := ⟨n - 1, by rw [length_cons] at hn; omega⟩
    obtain ⟨t, hloop, ht⟩ := formatLoop_item (hi i mem_cons_self) n (items.flatMap Item.bytes) (items.flatMap Item.args)
    rw [flatMap_cons, flatMap_cons, flatMap_cons, hloop, ht.mpr (hagree i mem_cons_self),
      ih (fun j hj => hi j (mem_cons_of_mem _ hj)) (fun j hj => hagree j (mem_cons_of_mem _ hj))
        (by rw [length_cons] at hn; omega)]
    rfl

lemma Item.bytes_pos (i : Item) : 1 ≤ i.bytes.length := by
  cases i with
  | ordinary c => exact le_rfl
  | conversion d c => simp [Item.bytes]

lemma format_item {i : Item} (hi : i.WellFormed) : format i.bytes i.args = some i.text ↔ i.Agrees := by
  obtain ⟨n, hn⟩ : ∃ n, i.bytes.length = n + 1 := ⟨i.bytes.length - 1, by have := i.bytes_pos; omega⟩
  obtain ⟨t, hloop, ht⟩ := formatLoop_item hi n [] []
  have hnil : formatLoop n [] [] = some [] := by cases n <;> rfl
  rw [append_nil, append_nil, hnil, map_some, append_nil] at hloop
  rw [format, hn, hloop, Option.some.injEq, ht]

lemma length_le_bytes (items : List Item) : items.length ≤ (items.flatMap Item.bytes).length := by
  induction items with
  | nil => exact le_rfl
  | cons i items ih =>
    have := i.bytes_pos
    rw [flatMap_cons, length_append, length_cons]
    omega

/-! ### The buffer -/

lemma sinkBuf_foldl (cap : Nat) (buf : Buf) {out : List UInt8} (hlen : out.length < 2 ^ 31) :
    (out.foldl (sinkBuf cap) ⟨buf, 0, 0⟩).n = out.length ∧ (out.foldl (sinkBuf cap) ⟨buf, 0, 0⟩).count = out.length ∧
    ∀ i, (out.foldl (sinkBuf cap) ⟨buf, 0, 0⟩).buf i =
      if i < out.length ∧ i + 1 < cap then out.getD i 0 else buf i := by
  induction out using List.reverseRecOn with
  | nil => exact ⟨rfl, rfl, fun i => by simp⟩
  | append_singleton out c ih =>
    rw [length_append, length_singleton] at hlen
    obtain ⟨hn, hcount, hbuf⟩ := ih (by omega)
    rw [foldl_append, foldl_cons, foldl_nil, length_append, length_singleton]
    have hsucc : (out.length + 1) % 2 ^ 64 = out.length + 1 := Nat.mod_eq_of_lt (by omega)
    refine ⟨?_, ?_, fun i => ?_⟩
    · rw [sinkBuf, hn, hsucc]
    · rw [sinkBuf, hcount, wrap32_of_fits]
      · rfl
      · unfold Fits32
        omega
    · rw [sinkBuf, hn, hsucc]
      dsimp only
      by_cases hi : i = out.length
      · subst hi
        by_cases hc : out.length + 1 < cap
        · rw [if_pos hc, update_self, if_pos ⟨by omega, hc⟩]
          simp
        · rw [if_neg hc, hbuf, if_neg (by omega), if_neg (by omega)]
      · have hold : (if out.length + 1 < cap then
            update (out.foldl (sinkBuf cap) ⟨buf, 0, 0⟩).buf out.length c
            else (out.foldl (sinkBuf cap) ⟨buf, 0, 0⟩).buf) i = (out.foldl (sinkBuf cap) ⟨buf, 0, 0⟩).buf i := by
          split
          · rw [update_of_ne hi]
          · rfl
        rw [hold, hbuf]
        by_cases hlt : i < out.length ∧ i + 1 < cap
        · rw [if_pos hlt, if_pos ⟨by omega, hlt.2⟩, getD_append _ _ _ _ hlt.1]
        · rw [if_neg hlt, if_neg (by omega)]

/-- An item is printed as the standard prescribes exactly when it agrees with it. Items that all agree are printed as
it prescribes, and `vsnprintf` stores what fits. Source: `user/libc/stdio.c` `format`, `vsnprintf` -/
theorem printf_conforms (items : List Item) (hi : ∀ i ∈ items, i.WellFormed) :
    (∀ i ∈ items, format i.bytes i.args = some i.text ↔ i.Agrees) ∧ ((∀ i ∈ items, i.Agrees) →
    format (items.flatMap Item.bytes) (items.flatMap Item.args) = some (items.flatMap Item.text) ∧
    ((items.flatMap Item.text).length < 2 ^ 31 → ∀ (buf : Buf) (size : Nat),
      ∃ buf', vsnprintf buf size (items.flatMap Item.bytes) (items.flatMap Item.args) =
          some (buf', ((items.flatMap Item.text).length : Int)) ∧ (0 < size →
          Buf.slice buf' 0 (min (items.flatMap Item.text).length (size - 1)) =
            (items.flatMap Item.text).take (size - 1) ∧ buf' (min (items.flatMap Item.text).length (size - 1)) = 0) ∧
        ∀ i, size ≤ i ∨ (items.flatMap Item.text).length < i → buf' i = buf i)) := by
  refine ⟨fun i h => format_item (hi i h), fun hagree => ?_⟩
  have hformat : format (items.flatMap Item.bytes) (items.flatMap Item.args) = some (items.flatMap Item.text) :=
    formatLoop_items hi hagree (length_le_bytes items)
  refine ⟨hformat, fun hlen buf size => ?_⟩
  unfold vsnprintf
  rw [hformat, map_some]
  generalize items.flatMap Item.text = out at hlen
  obtain ⟨hn, hcount, hbuf⟩ := sinkBuf_foldl size buf hlen
  dsimp only
  rw [hn, hcount]
  have hend : (if out.length < size then out.length else size - 1) = min out.length (size - 1) := by
    split <;> omega
  refine ⟨_, rfl, fun hsize => ?_, fun i h => ?_⟩
  · rw [if_pos hsize.ne', hend]
    refine ⟨Buf.slice_eq_iff.mpr ⟨?_, fun k hk => ?_⟩, update_self _ _ _⟩
    · rw [length_take, Nat.min_comm]
    · have hk' : k < size - 1 := by omega
      rw [zero_add, update_of_ne (by omega), hbuf, if_pos (by omega), getD_eq_getElem?_getD,
        getD_eq_getElem?_getD, getElem?_take_of_lt hk']
  · by_cases hsize : size = 0
    · rw [if_neg (not_not.mpr hsize), hbuf, if_neg (by omega)]
    · rw [if_pos hsize, hend, update_of_ne (by omega), hbuf, if_neg (by omega)]

set_option maxRecDepth 8192 in
theorem printf_conforms_padded : format [97, 37, 48, 53, 100] [.int (-7)] = some [97, 45, 48, 48, 48, 55] := by
  have h := (printf_conforms [.ordinary 97, .conversion ⟨[.zero], .decimal [53], .omitted⟩ (.d (.int (-7)))]
    (by
      intro i hi
      rcases mem_cons.mp hi with rfl | hi
      · exact ⟨by decide, by decide⟩
      · rw [mem_singleton.mp hi]
        exact ⟨⟨by decide, by decide, by decide, by decide⟩, trivial, trivial⟩)).2 (by
      intro i hi
      rcases mem_cons.mp hi with rfl | hi
      · trivial
      · rw [mem_singleton.mp hi]
        intro k hk
        cases hk)
  exact h.1

/-- `%.3d` of a negative number counts the sign as a digit, and `%3c` has no width. -/
theorem precision_is_width : (format (Item.conversion ⟨[], .omitted, .decimal [51]⟩ (.d (.int (-7)))).bytes
        (Item.conversion ⟨[], .omitted, .decimal [51]⟩ (.d (.int (-7)))).args = some [45, 48, 55] ∧
      (Item.conversion ⟨[], .omitted, .decimal [51]⟩ (.d (.int (-7)))).text = [45, 48, 48, 55]) ∧
    format (Item.conversion ⟨[], .decimal [51], .omitted⟩ (.c 120)).bytes
        (Item.conversion ⟨[], .decimal [51], .omitted⟩ (.c 120)).args = some [120] ∧
      (Item.conversion ⟨[], .decimal [51], .omitted⟩ (.c 120)).text = [32, 32, 120] := by
  decide

end VibeOS.Printf
