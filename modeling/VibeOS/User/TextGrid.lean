import VibeOS.Lib.CInt

/-!
# The character screen of the terminal window

`user/terminal/text_grid.cpp`: bytes are written to a ring of 400 lines. A store outside the ring is `none`, and so is
a loop that has no `fuel` left.
-/

namespace VibeOS

open List

/-- Source: `class TextGrid` -/
structure TextGrid where
  ring : Int → Int → UInt8
  cols : Int := 80
  rows : Int := 24
  curLine : Int := 0
  curC : Int := 0
  viewOff : Int := 0

namespace TextGrid

def line (absolute : Int) : Int := (absolute.tmod 400 + 400).tmod 400

/-- `line(absolute)[col] = c`, where the cell exists. -/
def store (g : TextGrid) (absolute col : Int) (c : UInt8) : Option TextGrid :=
  if (0 ≤ line absolute ∧ line absolute < 400) ∧ 0 ≤ col ∧ col < 128 then
    some { g with ring := fun l k => if l = line absolute ∧ k = col then c else g.ring l k }
  else none

def resize (g : TextGrid) (cols rows : Int) : TextGrid :=
  let cols := if cols < 1 then 1 else cols
  let rows := if rows < 1 then 1 else rows
  let cols := if cols > 128 then 128 else cols
  let rows := if rows > 48 then 48 else rows
  { g with cols := cols, rows := rows, curC := if g.curC ≥ cols then cols - 1 else g.curC }

def clear (g : TextGrid) : TextGrid := { g with ring := fun _ _ => 32, curLine := 0, curC := 0, viewOff := 0 }

def newline (g : TextGrid) : Option TextGrid :=
  (range 128).foldlM (fun g (c : Nat) => store g g.curLine c 32) { g with curC := 0, curLine := wrap32 (g.curLine + 1) }

def backspace (g : TextGrid) : Option TextGrid :=
  if g.curC > 0 then store { g with curC := g.curC - 1 } g.curLine (g.curC - 1) 32 else some g

/-- `put` of every byte but a tab. -/
def putPlain (g : TextGrid) (c : UInt8) : Option TextGrid :=
  let g := { g with viewOff := 0 }
  if c = 10 then newline g
  else if c = 13 then some { g with curC := 0 }
  else if c = 8 then backspace g
  else if c < 0x20 ∨ c > 0x7e then some g
  else do
    let g ← store g g.curLine g.curC c
    let g := { g with curC := g.curC + 1 }
    if g.curC ≥ g.cols then newline g else some g

def tabLoop (next : Int) : Nat → TextGrid → Option TextGrid
  | 0, _ => none
  | fuel + 1, g => if g.curC < next then putPlain g 32 >>= tabLoop next fuel else some g

def tabStop (g : TextGrid) : Int := (g.curC / 4 + 1) * 4

def put (fuel : Nat) (g : TextGrid) (c : UInt8) : Option TextGrid :=
  if c = 9 then tabLoop (tabStop g) fuel { g with viewOff := 0 } else putPlain g c

/-- The grids that calls of the class lead to. -/
inductive Reachable : TextGrid → Prop
  | init (ring : Int → Int → UInt8) : Reachable { ring := ring }
  | resize {g : TextGrid} (cols rows : Int) : Reachable g → Reachable (resize g cols rows)
  | clear {g : TextGrid} : Reachable g → Reachable (clear g)
  | scroll {g : TextGrid} (viewOff : Int) : Reachable g → Reachable { g with viewOff := viewOff }
  | put {g g' : TextGrid} (fuel : Nat) (c : UInt8) : Reachable g → put fuel g c = some g' → Reachable g'

/-- The cursor stands in the line. -/
structure Fits (g : TextGrid) : Prop where
  cols : g.cols ≤ 128
  low : 0 ≤ g.curC
  high : g.curC < g.cols

variable {g g' : TextGrid}

lemma Fits.view (h : Fits g) : Fits { g with viewOff := 0 } := ⟨h.cols, h.low, h.high⟩

lemma store_eq (absolute : Int) {col : Int} (c : UInt8) (h : 0 ≤ col ∧ col < 128) : store g absolute col c =
    some { g with ring := fun l k => if l = line absolute ∧ k = col then c else g.ring l k } := by
  refine if_pos ⟨?_, h⟩
  have hlow : -400 < absolute.tmod 400 := by
    rcases le_total 0 absolute with h | h
    · rw [tmod_of_nonneg 400 h]
      omega
    · rw [← neg_neg absolute, Int.neg_tmod, tmod_of_nonneg 400 (by omega)]
      omega
  rw [line, tmod_of_nonneg 400 (by omega)]
  omega

lemma newline_fits (hcols : g.cols ≤ 128) (hpos : 0 < g.cols) :
    ∃ g', newline g = some g' ∧ Fits g' ∧ g'.cols = g.cols := by
  have hloop (n : Nat) (hn : n ≤ 128) (g : TextGrid) : ∃ g',
      (range n).foldlM (fun g (c : Nat) => store g g.curLine c 32) g = some g' ∧ g'.cols = g.cols ∧
        g'.curC = g.curC := by
    induction n with
    | zero => exact ⟨g, rfl, rfl, rfl⟩
    | succ n ih =>
      obtain ⟨g', hg', hc, hk⟩ := ih (by omega)
      have hcell := store_eq (g := g') g'.curLine 32 (show 0 ≤ (n : Int) ∧ (n : Int) < 128 by omega)
      rw [range_succ, foldlM_append, hg', Option.bind_eq_bind, Option.bind_some, foldlM_cons, hcell]
      exact ⟨_, rfl, hc, hk⟩
  obtain ⟨g', hg', hc, hk⟩ := hloop 128 le_rfl { g with curC := 0, curLine := wrap32 (g.curLine + 1) }
  exact ⟨g', hg', ⟨hc ▸ hcols, hk ▸ le_rfl, by rw [hk, hc]; exact hpos⟩, hc⟩

lemma putPlain_fits (h : Fits g) (c : UInt8) : ∃ g', putPlain g c = some g' ∧ Fits g' ∧ g'.cols = g.cols := by
  obtain ⟨hcols, hlow, hhigh⟩ := h
  have hpos : 0 < g.cols := by omega
  unfold putPlain
  dsimp only
  split_ifs
  · exact newline_fits hcols hpos
  · exact ⟨_, rfl, ⟨hcols, le_rfl, hpos⟩, rfl⟩
  · unfold backspace
    dsimp only
    split_ifs
    · exact ⟨_, store_eq _ _ (by omega), ⟨hcols, by dsimp only; omega, by dsimp only; omega⟩, rfl⟩
    · exact ⟨_, rfl, ⟨hcols, hlow, hhigh⟩, rfl⟩
  · exact ⟨_, rfl, ⟨hcols, hlow, hhigh⟩, rfl⟩
  · rw [store_eq _ _ (by omega), Option.bind_eq_bind, Option.bind_some]
    dsimp only
    split_ifs
    · exact newline_fits hcols hpos
    · exact ⟨_, rfl, ⟨hcols, by dsimp only; omega, by dsimp only; omega⟩, rfl⟩

/-- Blanks are printed from the cursor up to a stop. -/
def blanks (g : TextGrid) (next : Int) : TextGrid :=
  { g with
    ring := fun l k => if l = line g.curLine ∧ g.curC ≤ k ∧ k < next then 32 else g.ring l k
    curC := next
    viewOff := 0 }

lemma putPlain_blank (h : Fits g) (hroom : g.curC + 1 < g.cols) : putPlain g 32 = some (blanks g (g.curC + 1)) := by
  obtain ⟨hcols, hlow, hhigh⟩ := h
  unfold putPlain
  dsimp only
  rw [if_neg (by decide), if_neg (by decide), if_neg (by decide), if_neg (by decide), store_eq _ _ (by omega),
    Option.bind_eq_bind, Option.bind_some]
  dsimp only
  rw [if_neg (by omega), blanks]
  congr
  funext l k
  refine if_congr (and_congr_right fun _ => ?_) rfl rfl
  omega

variable {fuel : Nat}

lemma tabLoop_reaches {next : Int} (h : Fits g) (hle : g.curC ≤ next) (hnext : next < g.cols)
    (hfuel : next - g.curC < fuel) (hview : g.viewOff = 0) : tabLoop next fuel g = some (blanks g next) := by
  induction fuel generalizing g with
  | zero => omega
  | succ fuel ih =>
    obtain ⟨hcols, hlow, hhigh⟩ := h
    unfold tabLoop
    split_ifs with hlt
    · rw [putPlain_blank ⟨hcols, hlow, hhigh⟩ (by omega), Option.bind_eq_bind, Option.bind_some,
        ih (g := blanks g (g.curC + 1)) ⟨hcols, ?_, ?_⟩ ?_ hnext ?_ rfl]
      · unfold blanks
        dsimp only
        congr
        funext l k
        split_ifs <;> first | rfl | omega
      all_goals
        dsimp only [blanks]
        omega
    · obtain rfl : next = g.curC := by omega
      have hring : (fun l k => if l = line g.curLine ∧ g.curC ≤ k ∧ k < g.curC then 32 else g.ring l k) = g.ring := by
        funext l k
        rw [if_neg (by omega)]
      rw [blanks, hring, ← hview]

lemma tabLoop_none {next : Int} (h : Fits g) (hnext : g.cols ≤ next) (fuel : Nat) : tabLoop next fuel g = none := by
  induction fuel generalizing g with
  | zero => rfl
  | succ fuel ih =>
    obtain ⟨g', hput, hfits, hcols⟩ := putPlain_fits h 32
    rw [tabLoop, if_pos (h.high.trans_le hnext), hput]
    exact ih hfits (hcols ▸ hnext)

lemma tabLoop_fits {next : Int} (h : Fits g) (ht : tabLoop next fuel g = some g') : Fits g' := by
  induction fuel generalizing g with
  | zero => cases ht
  | succ fuel ih =>
    unfold tabLoop at ht
    split_ifs at ht
    · obtain ⟨g1, hput, hfits, -⟩ := putPlain_fits h 32
      rw [hput] at ht
      exact ih hfits ht
    · cases ht
      exact h

lemma put_fits {c : UInt8} (h : Fits g) (hput : put fuel g c = some g') : Fits g' := by
  unfold put at hput
  split_ifs at hput
  · exact tabLoop_fits h.view hput
  · obtain ⟨g1, hg1, hfits, -⟩ := putPlain_fits h c
    cases hg1.symm.trans hput
    exact hfits

lemma Reachable.fits (h : Reachable g) : Fits g := by
  induction h with
  | init ring => constructor <;> dsimp only <;> decide
  | resize cols rows _ ih =>
    obtain ⟨hcols, hlow, hhigh⟩ := ih
    constructor <;> unfold TextGrid.resize <;> dsimp only <;> split_ifs <;> omega
  | clear _ ih => exact ⟨ih.cols, le_rfl, ih.low.trans_lt ih.high⟩
  | scroll _ _ ih => exact ⟨ih.cols, ih.low, ih.high⟩
  | put fuel c _ hput ih => exact put_fits ih hput

/-- Every byte is put in a few steps, where the next tab stop is in the line, and a tab is never done elsewhere. -/
theorem put_finishes (h : Reachable g) (c : UInt8) (hfuel : 5 ≤ fuel) :
    (∃ g', put fuel g c = some g' ∧ 0 ≤ g'.curC ∧ g'.curC < g'.cols ∧
      (c = 9 → g' = blanks g (tabStop g) ∧ tabStop g - g.curC ≤ 4)) ↔ (c = 9 → tabStop g < g.cols) := by
  have hf := h.fits
  refine ⟨fun ⟨g', hput, _⟩ hc => ?_, fun hstop => ?_⟩
  · by_contra hno
    rw [put, if_pos hc, tabLoop_none hf.view (not_lt.mp hno)] at hput
    cases hput
  have hnext : g.curC < tabStop g ∧ tabStop g - g.curC ≤ 4 := by
    unfold tabStop
    omega
  by_cases hc : c = 9
  · have ht := @tabLoop_reaches { g with viewOff := 0 } fuel _ hf.view hnext.1.le (hstop hc) (by dsimp only; omega) rfl
    exact ⟨blanks g (tabStop g), (if_pos hc).trans ht, hf.low.trans hnext.1.le, hstop hc, fun _ => ⟨rfl, hnext.2⟩⟩
  · obtain ⟨g', hput, hfits, -⟩ := putPlain_fits hf c
    exact ⟨g', (if_neg hc).trans hput, hfits.low, hfits.high, fun h => absurd h hc⟩

theorem put_finishes_tab : ∃ g', put 5 { ring := fun _ _ => 0 } 9 = some g' ∧ g'.curC = 4 := by
  obtain ⟨g', hput, -, -, htab⟩ := (put_finishes (.init fun _ _ => 0) 9 (le_refl 5)).mpr fun _ => by decide
  exact ⟨g', hput, by rw [(htab rfl).1]; rfl⟩

/-- In a window of four columns a tab is never done. -/
theorem put_loops : Reachable (resize { ring := fun _ _ => 0 } 4 24) ∧
    ¬ ∃ fuel, (put fuel (resize { ring := fun _ _ => 0 } 4 24) 9).isSome := by
  have hr : Reachable (resize { ring := fun _ _ => 0 } 4 24) := .resize 4 24 (.init _)
  refine ⟨hr, fun ⟨fuel, hsome⟩ => ?_⟩
  rw [put, if_pos rfl, tabLoop_none hr.fits.view (by decide)] at hsome
  cases hsome

end TextGrid

end VibeOS
