import Mathlib

/-!
# Custom properties

`resolve_vars` over the bytes of a declaration text; the result are the bytes that `tmp` gets, and `none` is a store
behind its 1280 bytes.

* `vars_resolved`: references without a fallback are replaced by the value. A fallback stays as text, and names are
  compared without case (`fallback_stays`).

Names are those of `user/browser/css.c`.
-/

namespace VibeOS.CssVars

open List

def isSpace (c : UInt8) : Bool := c = 32 ∨ c = 9 ∨ c = 10 ∨ c = 13 ∨ c = 12 ∨ c = 11

def lc (c : UInt8) : UInt8 := if 65 ≤ c ∧ c ≤ 90 then c + 32 else c

def ieq (a b : List UInt8) : Bool := a.map lc = b.map lc

/-- A custom property. -/
structure CssVar where
  name : List UInt8
  value : List UInt8

/-- The text `var(--`. -/
def varText : List UInt8 := [118, 97, 114, 40, 45, 45]

/-- The loop over the rest of the text, with `room` bytes left in `tmp`.
Source: `resolve_vars` -/
def resolveLoop (vars : List CssVar) : (fuel room : Nat) → List UInt8 → List UInt8
  | 0, _, _ => []
  | _, 0, _ => []
  | _, _, [] => []
  | fuel + 1, room + 1, c :: text =>
    if varText <+: c :: text then
      let name := ((text.drop 5).takeWhile fun c => c ≠ 41 ∧ c ≠ 44).take 63
      let text := text.drop (5 + name.length)
      let text := if text.head? = some 41 then text.tail else text
      let value := match vars.find? (ieq ·.name (name.rdropWhile isSpace)) with
        | some v => v.value.take (room + 1)
        | none => []
      value ++ resolveLoop vars fuel (room + 1 - value.length) text
    else c :: resolveLoop vars fuel room text

/-- The loop is bounded by `cap` alone; the NUL goes behind the last byte. -/
def resolveVars (vars : List CssVar) (cap : Nat) (text : List UInt8) : Option (List UInt8) :=
  if vars.isEmpty then some text
  else
    let tmp := resolveLoop vars text.length (cap - 1) text
    if tmp.length < 1280 then some tmp else none

/-! ### References -/

/-- A character, or a reference with blanks behind the name. -/
inductive Piece where
  | char (c : UInt8)
  | ref (name blanks : List UInt8)

def render : List Piece → List UInt8
  | [] => []
  | .char c :: ps => c :: render ps
  | .ref name blanks :: ps => varText ++ (name ++ blanks ++ 41 :: render ps)

def valueOf (vars : List CssVar) (name : List UInt8) : List UInt8 :=
  ((vars.find? (·.name = name)).map (·.value)).getD []

def expand (vars : List CssVar) : List Piece → List UInt8
  | [] => []
  | .char c :: ps => c :: expand vars ps
  | .ref name _ :: ps => valueOf vars name ++ expand vars ps

/-- A name that is read to its end and that no variable differs from in case alone. -/
structure NameOk (vars : List CssVar) (name blanks : List UInt8) : Prop where
  closed : ∀ c ∈ name ++ blanks, c ≠ 41 ∧ c ≠ 44
  short : (name ++ blanks).length ≤ 63
  trimmed : (name ++ blanks).rdropWhile isSpace = name
  case : ∀ v ∈ vars, ieq v.name name = decide (v.name = name)

/-- The references are all that starts with `var(--`, and their names are in order. -/
def Plain (vars : List CssVar) : List Piece → Prop
  | [] => True
  | .char c :: ps => ¬ varText <+: c :: render ps ∧ Plain vars ps
  | .ref name blanks :: ps => NameOk vars name blanks ∧ Plain vars ps

variable {vars : List CssVar}

lemma find?_ieq {name blanks : List UInt8} (h : NameOk vars name blanks) (room : Nat) :
    (match vars.find? (ieq ·.name name) with
      | some v => v.value.take room
      | none => []) = (valueOf vars name).take room := by
  rw [valueOf, find?_congr h.case]
  cases vars.find? (·.name = name) <;> simp

lemma resolveLoop_render {ps : List Piece} (h : Plain vars ps) {fuel room : Nat} (hfuel : (render ps).length ≤ fuel)
    (hroom : (expand vars ps).length ≤ room) : resolveLoop vars fuel room (render ps) = expand vars ps := by
  induction ps generalizing fuel room with
  | nil => cases fuel <;> cases room <;> rfl
  | cons p ps ih =>
    cases p with
    | char c =>
      obtain ⟨hc, hps⟩ := h
      simp only [render, expand, length_cons] at hfuel hroom ⊢
      obtain _ | fuel := fuel
      · omega
      obtain _ | room := room
      · omega
      rw [resolveLoop, if_neg hc, ih hps (by omega) (by omega)]
    | ref name blanks =>
      obtain ⟨hname, hps⟩ := h
      simp only [expand, length_append] at hroom ⊢
      have hlen : (render (.ref name blanks :: ps)).length = 7 + (name ++ blanks).length + (render ps).length := by
        simp [render, varText]
        omega
      obtain _ | fuel := fuel
      · omega
      obtain _ | room := room
      · exact (length_eq_zero_iff.mp (by rw [length_append]; omega)).symm
      -- the name is read up to the bracket, which is then passed
      have hread : ((name ++ blanks ++ 41 :: render ps).takeWhile fun c => c ≠ 41 ∧ c ≠ 44) = name ++ blanks := by
        rw [takeWhile_append_of_pos fun c hc => by simpa using hname.closed c hc]
        simp
      have hrest : (name ++ blanks ++ 41 :: render ps).drop (name ++ blanks).length = 41 :: render ps := drop_left
      have hvalue := find?_ieq hname (room + 1)
      rw [take_of_length_le (by omega)] at hvalue
      have hdrop (l : List UInt8) : (varText.tail ++ l).drop 5 = l := rfl
      have hvar (l : List UInt8) : varText <+: 118 :: (varText.tail ++ l) := prefix_append varText l
      change resolveLoop vars _ _ (118 :: (varText.tail ++ (name ++ blanks ++ 41 :: render ps))) = _
      rw [resolveLoop, if_pos (hvar _)]
      simp only [← drop_drop, hdrop, hread, take_of_length_le hname.short, hrest, hname.trimmed, hvalue]
      rw [head?_cons, if_pos rfl, tail_cons, ih hps (by omega) (by omega)]

/-- References without a fallback are replaced, and everything else stays. -/
theorem vars_resolved {ps : List Piece} {cap : Nat} (hv : vars ≠ []) (h : Plain vars ps)
    (hcap : (expand vars ps).length < cap) (htmp : (expand vars ps).length < 1280) :
    resolveVars vars cap (render ps) = some (expand vars ps) := by
  rw [resolveVars, if_neg (by simpa using hv)]
  dsimp only
  rw [resolveLoop_render h le_rfl (by omega), if_pos htmp]

/-- With `--a: x`, the text `b var(--a )` becomes `b x`. -/
theorem vars_resolved_one :
    resolveVars [⟨[97], [120]⟩] 8 [98, 118, 97, 114, 40, 45, 45, 97, 32, 41] = some [98, 120] :=
  @vars_resolved [⟨[97], [120]⟩] [.char 98, .ref [97] [32]] 8 (cons_ne_nil _ _)
    ⟨by decide, ⟨by simp, by decide, by decide, by decide⟩, trivial⟩ (by decide) (by decide)

/-- With `--a: x`, the text `var(--a,b)` becomes `x,b)`. -/
theorem fallback_stays :
    resolveVars [⟨[97], [120]⟩] 32 [118, 97, 114, 40, 45, 45, 97, 44, 98, 41] = some [120, 44, 98, 41] := by
  decide

end VibeOS.CssVars
