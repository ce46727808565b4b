import VibeOS.Lib.Binary64
import VibeOS.Lib.CInt
import VibeOS.Lib.Digits
import VibeOS.Lib.Bytes

/-!
# Formatted output

`format`, the formatter under every printing function of the C library, with the sink of `vsnprintf`. A format is the
list of its bytes before the terminator, the arguments are a list of typed values, and the result is the list of
emitted characters; an argument of another type, or an index outside the arrays `num` and `prefix`, gives `none`.
Integers of the source are 32-bit integers that wrap, arguments are bit vectors. The flags `+` and space are read and
ignored, as in the source.

Other names are those of `user/libc/stdio.c`.
-/

namespace VibeOS.Printf

open Binary64 (Double lt ge add sub mul integerPart ofInt)

/-! ### The source -/

/-- What `va_arg` takes. A string is its bytes before the terminator. -/
inductive Arg where
  | int (v : BitVec 32)
  | long (v : BitVec 64)
  | str (s : Option (List UInt8))
  | ptr (v : BitVec 64)
  | double (v : Double)

def takeInt : List Arg → Option (BitVec 32 × List Arg)
  | .int v :: args => some (v, args)
  | _ => none

/-- `size64 ? va_arg(ap, long) : (long)va_arg(ap, int)` -/
def takeSigned (size64 : Bool) : List Arg → Option (BitVec 64 × List Arg)
  | .int v :: args => if size64 then none else some (v.signExtend 64, args)
  | .long v :: args => if size64 then some (v, args) else none
  | _ => none

def takeUnsigned (size64 : Bool) : List Arg → Option (BitVec 64 × List Arg)
  | .int v :: args => if size64 then none else some (v.setWidth 64, args)
  | .long v :: args => if size64 then some (v, args) else none
  | _ => none

/-- The locals of `format` for one conversion. -/
structure Spec where
  left : Bool
  zero : Bool
  alt : Bool
  width : Int
  prec : Int
  size64 : Bool

def Spec.start : Spec := ⟨false, false, false, 0, -1, false⟩

/-- Source: `format`, the loop over the flags -/
def flags : List UInt8 → Spec → Spec × List UInt8
  | [], sp => (sp, [])
  | c :: fmt, sp =>
    if c = '-'.toUInt8 then flags fmt { sp with left := true }
    else if c = '0'.toUInt8 then flags fmt { sp with zero := true }
    else if c = '#'.toUInt8 then flags fmt { sp with alt := true }
    else if c = '+'.toUInt8 ∨ c = ' '.toUInt8 then flags fmt sp
    else (sp, c :: fmt)

def isDigit (c : UInt8) : Bool := decide (48 ≤ c ∧ c ≤ 57)

def digitValue (c : UInt8) : Nat := c.toNat - 48

/-- Digits are added to a 32-bit integer. -/
def decimal (v : Int) : List UInt8 → Int × List UInt8
  | [] => (v, [])
  | c :: fmt => if isDigit c then decimal (wrap32 (v * 10 + digitValue c)) fmt else (v, c :: fmt)

def widthOf (sp : Spec) : List UInt8 → List Arg → Option (Spec × List UInt8 × List Arg)
  | [], args => some (sp, [], args)
  | c :: fmt, args =>
    if c = '*'.toUInt8 then
      (takeInt args).map fun (w, args) =>
        if w.toInt < 0 then ({ sp with left := true, width := wrap32 (-w.toInt) }, fmt, args)
        else ({ sp with width := w.toInt }, fmt, args)
    else
      let r := decimal 0 (c :: fmt)
      some ({ sp with width := r.1 }, r.2, args)

/-- A precision in digits is also a width with zeros. -/
def withPrecision (sp : Spec) (k : Int) : Spec :=
  if k > sp.width then { sp with prec := k, width := k, zero := true } else { sp with prec := k }

def precisionOf (sp : Spec) : List UInt8 → List Arg → Option (Spec × List UInt8 × List Arg)
  | [], args => some (sp, [], args)
  | c :: fmt, args =>
    if c = '.'.toUInt8 then
      if fmt.head? = some '*'.toUInt8 then
        (takeInt args).map fun (k, args) =>
          ({ sp with prec := if k.toInt < 0 then -1 else k.toInt }, fmt.tail, args)
      else
        let r := decimal 0 fmt
        some (withPrecision sp r.1, r.2, args)
    else some (sp, c :: fmt, args)

def lengthOf (sp : Spec) : List UInt8 → Spec × List UInt8
  | [] => (sp, [])
  | c :: fmt =>
    if c = 'l'.toUInt8 then
      ({ sp with size64 := true }, if fmt.head? = some 'l'.toUInt8 then fmt.tail else fmt)
    else if c = 'z'.toUInt8 then ({ sp with size64 := true }, fmt)
    else (sp, c :: fmt)

/-- What stands between the `%` and the conversion. -/
def parse (fmt : List UInt8) (args : List Arg) : Option (Spec × List UInt8 × List Arg) :=
  (widthOf (flags fmt .start).1 (flags fmt .start).2 args).bind fun (sp, fmt, args) =>
    (precisionOf sp fmt args).map fun (sp, fmt, args) => ((lengthOf sp fmt).1, (lengthOf sp fmt).2, args)

/-- The digits, the least significant first. -/
def utoa (v : BitVec 64) (base : Nat) (upper : Bool) : List UInt8 :=
  if v = 0 then [48] else (digitLoop base 64 v.toNat).map (digitChar upper)

/-- `num` has 24 places. -/
def stored (num : List UInt8) : Option (List UInt8) := if num.length ≤ 24 then some num else none

/-- Source: `format`, the last block -/
def assemble (sp : Spec) (pre num : List UInt8) : List UInt8 :=
  let pad := (wrap32 (sp.width - (pre.length + num.length))).toNat
  (if !sp.left && !sp.zero then List.replicate pad 32 else []) ++ pre ++
    (if !sp.left && sp.zero then List.replicate pad 48 else []) ++ num.reverse ++
    if sp.left then List.replicate pad 32 else []

/-! The conversion `%f`. `num` is filled from its end: the list holds the places from `ioff + 1` on, and a further
character goes in front. -/

/-- `num[ioff--] = c` -/
def push (num : List UInt8) (c : UInt8) : Option (List UInt8) := if num.length < 24 then some (c :: num) else none

/-- `prefix` has 3 places. -/
def prefixStored (pre : List UInt8) : Option (List UInt8) := if pre.length ≤ 3 then some pre else none

/-- The double nearest to 0.1. -/
def tenth : Double := .finite ⟨7205759403792794, -56, by decide, by decide, by decide⟩

/-- `ra`, half a unit of the last digit. -/
def half : Nat → Double
  | 0 => .finite ⟨1, -1, by decide, by decide, by decide⟩
  | n + 1 => mul (half n) tenth

def fractionDigits : Nat → Double → Option (List UInt8)
  | 0, _ => some []
  | n + 1, frac =>
    (integerPart (mul frac (ofInt 10))).bind fun d =>
      (fractionDigits n (sub (mul frac (ofInt 10)) (ofInt d))).map (UInt8.ofNat (48 + d).toNat :: ·)

/-- The digits of a number without its sign, from the integer part and the fraction with the rounding added. -/
def placeDigits (fprec : Int) (ipart : BitVec 64) (frac : Double) : Option (List UInt8) :=
  ((utoa ipart 10 false).foldlM push []).bind fun num =>
    if fprec > 0 then
      (push num '.'.toUInt8).bind fun num => (fractionDigits fprec.toNat frac).bind fun ds => ds.foldlM push num
    else some num

/-- `prefix` and `num` for `%f`. An integer part that is no `unsigned long` gives `none`.
Source: `format`, the case `'f'` -/
def floatDigits (fprec : Int) : Double → Option (List UInt8 × List UInt8)
  | .nan => (prefixStored ['n'.toUInt8, 'a'.toUInt8, 'n'.toUInt8]).map (·, [])
  | .inf neg =>
    (prefixStored ((if neg then ['-'.toUInt8] else []) ++ ['i'.toUInt8, 'n'.toUInt8, 'f'.toUInt8])).map (·, [])
  | .finite x =>
    let neg := lt (.finite x) (ofInt 0)
    let fv := if neg then Binary64.neg (.finite x) else .finite x
    (integerPart fv).bind fun ipart =>
      if ipart < 2 ^ 64 then
        let frac := add (sub fv (ofInt ipart)) (half fprec.toNat)
        (if ge frac (ofInt 1) then placeDigits fprec (BitVec.ofInt 64 ipart + 1) (sub frac (ofInt 1))
          else placeDigits fprec (BitVec.ofInt 64 ipart) frac).map (if neg then ['-'.toUInt8] else [], ·)
      else none

def nullText : List UInt8 :=
  ['('.toUInt8, 'n'.toUInt8, 'u'.toUInt8, 'l'.toUInt8, 'l'.toUInt8, ')'.toUInt8]

/-- Source: `format`, the case `'s'` -/
def stringText (sp : Spec) (str : List UInt8) : List UInt8 :=
  let len := wrap32 str.length
  let len := if 0 ≤ sp.prec ∧ len > sp.prec then sp.prec else len
  let pad := (wrap32 (sp.width - len)).toNat
  (if !sp.left then List.replicate pad 32 else []) ++ str.take len.toNat ++
    if sp.left then List.replicate pad 32 else []

/-- The characters of one conversion, and the arguments behind its own.
Source: `format`, the `switch` -/
def convert (sp : Spec) (c : UInt8) (args : List Arg) : Option (List UInt8 × List Arg) :=
  if c = 'd'.toUInt8 ∨ c = 'i'.toUInt8 then
    (takeSigned sp.size64 args).bind fun (v, args) =>
      (stored (utoa (if v.toInt < 0 then ~~~v + 1 else v) 10 false)).map fun num =>
        (assemble sp (if v.toInt < 0 then ['-'.toUInt8] else []) num, args)
  else if c = 'u'.toUInt8 then
    (takeUnsigned sp.size64 args).bind fun (v, args) =>
      (stored (utoa v 10 false)).map fun num => (assemble sp [] num, args)
  else if c = 'f'.toUInt8 ∨ c = 'F'.toUInt8 then
    match args with
    | .double v :: args =>
      (floatDigits (if 0 ≤ sp.prec then sp.prec else 6) v).map fun (pre, num) => (assemble sp pre num, args)
    | _ => none
  else if c = 'x'.toUInt8 ∨ c = 'X'.toUInt8 then
    (takeUnsigned sp.size64 args).bind fun (v, args) =>
      (stored (utoa v 16 (decide (c = 'X'.toUInt8)))).map fun num =>
        (assemble sp (if sp.alt = true ∧ v ≠ 0 then ['0'.toUInt8, c] else []) num, args)
  else if c = 'o'.toUInt8 then
    (takeUnsigned sp.size64 args).bind fun (v, args) =>
      (stored (utoa v 8 false)).map fun num =>
        (assemble sp (if sp.alt = true ∧ v ≠ 0 then ['0'.toUInt8] else []) num, args)
  else if c = 'p'.toUInt8 then
    match args with
    | .ptr v :: args =>
      (stored (utoa v 16 false)).map fun num => (assemble sp ['0'.toUInt8, 'x'.toUInt8] num, args)
    | _ => none
  else if c = 'c'.toUInt8 then (takeInt args).map fun (v, args) => ([UInt8.ofBitVec (v.setWidth 8)], args)
  else if c = 's'.toUInt8 then
    match args with
    | .str s :: args => some (stringText sp (s.getD nullText), args)
    | _ => none
  else if c = '%'.toUInt8 then some (['%'.toUInt8], args)
  else some (['%'.toUInt8, c], args)

/-- The loop over the format, with as many rounds as the format has bytes at most. -/
def formatLoop : Nat → List UInt8 → List Arg → Option (List UInt8)
  | _, [], _ => some []
  | 0, _ :: _, _ => none
  | n + 1, c :: fmt, args =>
    if c ≠ '%'.toUInt8 then (formatLoop n fmt args).map (c :: ·)
    else
      (parse fmt args).bind fun (sp, fmt, args) =>
        match fmt with
        | [] => some []
        | conv :: fmt =>
          (convert sp conv args).bind fun (out, args) => (formatLoop n fmt args).map (out ++ ·)

/-- The characters that are emitted; `none` for an argument of another type or an index outside `num` or `prefix`. -/
def format (fmt : List UInt8) (args : List Arg) : Option (List UInt8) := formatLoop fmt.length fmt args

/-- Source: `struct sink` -/
structure Sink where
  buf : Buf
  n : Nat
  count : Int

def sinkBuf (cap : Nat) (s : Sink) (c : UInt8) : Sink where
  buf := if (s.n + 1) % 2 ^ 64 < cap then Function.update s.buf s.n c else s.buf
  n := (s.n + 1) % 2 ^ 64
  count := wrap32 (s.count + 1)

/-- The buffer afterwards and the value that is returned. -/
def vsnprintf (buf : Buf) (size : Nat) (fmt : List UInt8) (args : List Arg) : Option (Buf × Int) :=
  (format fmt args).map fun out =>
    let s := out.foldl (sinkBuf size) ⟨buf, 0, 0⟩
    (if size ≠ 0 then Function.update s.buf (if s.n < size then s.n else size - 1) 0 else s.buf, s.count)

end VibeOS.Printf
