import VibeOS.Lib.CInt
import VibeOS.Lib.Run

/-!
# The screen of a terminal

`tty_process_ansi_char` with the screen it draws on and the parser of escape sequences. The display (cells, cursor,
saved cursor, attribute) and the parser are two records: the parser decides which command is executed with which
parameters, and a command works on the display alone. Arrays are read and written through a test of the index, and
an index outside its array gives `none`. Coordinates and parameters are 32-bit integers that wrap.

* `run_on_screen`: the cursor stays on the screen and no index leaves its array, unless a move right or down, which
  tests only the upper bound, wraps it (`cursor_leaves_screen`).
* `escape_has_no_memory`: what earlier sequences left in the parameters does not matter, and a parameter that is left
  out has its default, except after nothing but semicolons (`parameter_left_over`).

Other names are those of `kernel/src/tty.c`.
-/

namespace VibeOS.Screen

open List Option Function

def TTY_SCREEN_ROWS : Int := 25

def TTY_SCREEN_COLS : Int := 80

def TTY_ATTR_NORMAL : UInt8 := 0

def TTY_ATTR_INVERSE : UInt8 := 1

/-- A place of `screen` with its place of `screen_attr`. -/
structure Cell where
  char : UInt8
  attr : UInt8
deriving DecidableEq

def blank : Cell := ⟨32, TTY_ATTR_NORMAL⟩

/-- What is drawn, and where the next character goes.
Source: `kernel/include/tty.h` `struct tty` -/
structure Display where
  cells : Int → Int → Cell
  cursorRow : Int
  cursorCol : Int
  savedCursorRow : Int
  savedCursorCol : Int
  currentAttr : UInt8

/-- Source: `kernel/include/tty.h` `enum ansi_state` -/
inductive AnsiState where
  | normal
  | escape
  | bracket
  | params
deriving DecidableEq

/-- Source: `kernel/include/tty.h` `struct tty` -/
structure AnsiTty where
  display : Display
  ansiState : AnsiState
  ansiParams : Int → Int
  ansiParamCount : Int
  ansiCmd : UInt8

/-! ### Drawing -/

def setCell (d : Display) (row col : Int) (c : Cell) : Option Display :=
  if 0 ≤ row ∧ row < TTY_SCREEN_ROWS ∧ 0 ≤ col ∧ col < TTY_SCREEN_COLS then
    some { d with cells := update d.cells row (update (d.cells row) col c) }
  else none

def getCell (d : Display) (row col : Int) : Option Cell :=
  if 0 ≤ row ∧ row < TTY_SCREEN_ROWS ∧ 0 ≤ col ∧ col < TTY_SCREEN_COLS then some (d.cells row col) else none

/-- A loop over `n` numbers from `i` on. -/
def loop (f : Display → Int → Option Display) : Nat → Int → Display → Option Display
  | 0, _, d => some d
  | n + 1, i, d => (f d i).bind (loop f n (i + 1))

/-- `for (i = lo; i < hi; ++i)` -/
def forLoop (lo hi : Int) (f : Display → Int → Option Display) (d : Display) : Option Display :=
  loop f (hi - lo).toNat lo d

def clearCells (row lo hi : Int) (d : Display) : Option Display :=
  forLoop lo hi (fun d col => setCell d row col blank) d

def screenClear (d : Display) : Option Display :=
  forLoop 0 TTY_SCREEN_ROWS (fun d row => clearCells row 0 TTY_SCREEN_COLS d) d

def screenClearLine (d : Display) (row : Int) : Option Display :=
  if row < 0 ∨ row ≥ TTY_SCREEN_ROWS then some d else clearCells row 0 TTY_SCREEN_COLS d

def screenClearToEol (d : Display) : Option Display :=
  if d.cursorRow < 0 ∨ d.cursorRow ≥ TTY_SCREEN_ROWS then some d
  else clearCells d.cursorRow d.cursorCol TTY_SCREEN_COLS d

def screenScrollUp (d : Display) : Option Display :=
  (forLoop 0 (TTY_SCREEN_ROWS - 1) (fun d row => forLoop 0 TTY_SCREEN_COLS (fun d col =>
    (getCell d (row + 1) col).bind (setCell d row col)) d) d).bind
    (clearCells (TTY_SCREEN_ROWS - 1) 0 TTY_SCREEN_COLS)

/-- The screen scrolls when the cursor has left it at the bottom. -/
def scrollAtEnd (d : Display) : Option Display :=
  if d.cursorRow ≥ TTY_SCREEN_ROWS then
    (screenScrollUp d).map fun d => { d with cursorRow := TTY_SCREEN_ROWS - 1 }
  else some d

def newLine (d : Display) : Option Display :=
  scrollAtEnd { d with cursorCol := 0, cursorRow := wrap32 (d.cursorRow + 1) }

def screenPutc (d : Display) (c : UInt8) : Option Display :=
  (scrollAtEnd d).bind fun d =>
    (if d.cursorCol ≥ TTY_SCREEN_COLS then newLine d else some d).bind fun d =>
      if d.cursorRow ≥ 0 ∧ d.cursorCol ≥ 0 then
        (setCell d d.cursorRow d.cursorCol ⟨c, d.currentAttr⟩).map fun d =>
          { d with cursorCol := wrap32 (d.cursorCol + 1) }
      else some d

/-! ### Commands -/

def ansiParam (params : Int → Int) (count index default : Int) : Int :=
  if index ≤ count ∧ params index > 0 then params index else default

/-- The loop of `m` over the parameters; the local copy has eight places.
Source: `ansi_execute` -/
def selectGraphic (params : Int → Int) : Nat → Int → Display → Option Display
  | 0, _, d => some d
  | n + 1, i, d =>
    if 0 ≤ i ∧ i < 8 then
      selectGraphic params n (i + 1)
        (if params i = 0 then { d with currentAttr := TTY_ATTR_NORMAL }
        else if params i = 7 then { d with currentAttr := TTY_ATTR_INVERSE }
        else if params i = 27 then { d with currentAttr := TTY_ATTR_NORMAL }
        else d)
    else none

/-- Below 0 and beyond the end are the first and the last place. -/
def clamp (x size : Int) : Int := if x < 0 then 0 else if x ≥ size then size - 1 else x

/-- The command `J`.
Source: `ansi_execute` -/
def eraseDisplay (d : Display) (mode : Int) : Option Display :=
  if mode = 0 then
    (screenClearToEol d).bind fun d =>
      forLoop (wrap32 (d.cursorRow + 1)) TTY_SCREEN_ROWS screenClearLine d
  else if mode = 1 then
    (forLoop 0 d.cursorRow screenClearLine d).bind fun d => clearCells d.cursorRow 0 d.cursorCol d
  else if mode = 2 then screenClear d
  else some d

/-- The command `K`.
Source: `ansi_execute` -/
def eraseLine (d : Display) (mode : Int) : Option Display :=
  if mode = 0 then screenClearToEol d
  else if mode = 1 then clearCells d.cursorRow 0 d.cursorCol d
  else if mode = 2 then screenClearLine d d.cursorRow
  else some d

/-- The command `cmd` with the parameters up to `count`.
Source: `ansi_execute` -/
def execCommand (d : Display) (cmd : UInt8) (params : Int → Int) (count : Int) : Option Display :=
  if cmd = 'H'.toUInt8 ∨ cmd = 'f'.toUInt8 then
    some { d with
      cursorRow := clamp (wrap32 (ansiParam params count 0 1 - 1)) TTY_SCREEN_ROWS
      cursorCol := clamp (wrap32 (ansiParam params count 1 1 - 1)) TTY_SCREEN_COLS }
  else if cmd = 'J'.toUInt8 then eraseDisplay d (params 0)
  else if cmd = 'K'.toUInt8 then eraseLine d (params 0)
  else if cmd = 'A'.toUInt8 then
    let row := wrap32 (d.cursorRow - ansiParam params count 0 1)
    some { d with cursorRow := if row < 0 then 0 else row }
  else if cmd = 'B'.toUInt8 then
    let row := wrap32 (d.cursorRow + ansiParam params count 0 1)
    some { d with cursorRow := if row ≥ TTY_SCREEN_ROWS then TTY_SCREEN_ROWS - 1 else row }
  else if cmd = 'C'.toUInt8 then
    let col := wrap32 (d.cursorCol + ansiParam params count 0 1)
    some { d with cursorCol := if col ≥ TTY_SCREEN_COLS then TTY_SCREEN_COLS - 1 else col }
  else if cmd = 'D'.toUInt8 then
    let col := wrap32 (d.cursorCol - ansiParam params count 0 1)
    some { d with cursorCol := if col < 0 then 0 else col }
  else if cmd = 'm'.toUInt8 then selectGraphic params (count + 1).toNat 0 d
  else if cmd = 's'.toUInt8 then some { d with savedCursorRow := d.cursorRow, savedCursorCol := d.cursorCol }
  else if cmd = 'u'.toUInt8 then some { d with cursorRow := d.savedCursorRow, cursorCol := d.savedCursorCol }
  -- the modes l and h change nothing that is drawn, and other commands are ignored
  else some d

/-! ### The parser -/

def ansiReset (t : AnsiTty) : AnsiTty := { t with ansiState := .normal, ansiParamCount := 0, ansiCmd := 0 }

def ansiExecute (t : AnsiTty) (c : UInt8) : Option AnsiTty :=
  (execCommand t.display c t.ansiParams t.ansiParamCount).map fun d =>
    ansiReset { t with display := d, ansiCmd := c }

/-- Store a parameter, if there is a place for it. -/
def setParam (t : AnsiTty) (i v : Int) : Option AnsiTty :=
  if 0 ≤ i ∧ i < 8 then some { t with ansiParams := update t.ansiParams i v } else none

/-- A byte outside of escape sequences.
Source: `tty_process_ansi_char` -/
def drawByte (d : Display) (c : UInt8) : Option Display :=
  if c = 10 then newLine d
  else if c = 13 then some { d with cursorCol := 0 }
  else if c = 8 ∨ c = 0x7f then some (if d.cursorCol > 0 then { d with cursorCol := d.cursorCol - 1 } else d)
  else if c = 9 then
    let col := wrap32 (d.cursorCol + 4)
    let col := col - col % 4
    some { d with cursorCol := if col ≥ TTY_SCREEN_COLS then TTY_SCREEN_COLS - 1 else col }
  else if 0x20 ≤ c ∧ c < 0x7f then screenPutc d c
  else some d

/-- The byte behind an escape, other than `[`.
Source: `tty_process_ansi_char` -/
def escapeByte (d : Display) (c : UInt8) : Option Display :=
  if c = 'c'.toUInt8 then (screenClear d).map fun d => { d with cursorRow := 0, cursorCol := 0 }
  else if c = '7'.toUInt8 then some { d with savedCursorRow := d.cursorRow, savedCursorCol := d.cursorCol }
  else if c = '8'.toUInt8 then some { d with cursorRow := d.savedCursorRow, cursorCol := d.savedCursorCol }
  else if c = 'M'.toUInt8 then
    if d.cursorRow = 0 then screenScrollUp d else some { d with cursorRow := wrap32 (d.cursorRow - 1) }
  else some d

def isDigit (c : UInt8) : Bool := 48 ≤ c && c ≤ 57

def digitValue (c : UInt8) : Int := c.toNat - 48

def ttyProcessAnsiChar (t : AnsiTty) (c : UInt8) : Option AnsiTty :=
  match t.ansiState with
  | .normal =>
    if c = 0x1b then some { t with ansiState := .escape }
    else (drawByte t.display c).map fun d => { t with display := d }
  | .escape =>
    if c = '['.toUInt8 then
      some { t with ansiState := .bracket, ansiParamCount := 0, ansiParams := update t.ansiParams 0 0 }
    else (escapeByte t.display c).map fun d => ansiReset { t with display := d }
  | .bracket =>
    if isDigit c then
      (setParam t t.ansiParamCount (digitValue c)).map fun t => { t with ansiState := .params }
    else if c = '?'.toUInt8 then
      some { t with ansiState := .params, ansiParams := update t.ansiParams 0 0 }
    else if c = ';'.toUInt8 then
      (setParam t t.ansiParamCount 0).map fun t =>
        let t := { t with ansiParamCount := t.ansiParamCount + 1 }
        if t.ansiParamCount ≥ 8 then ansiReset t else t
    else ansiExecute t c
  | .params =>
    if isDigit c then
      setParam t t.ansiParamCount (wrap32 (t.ansiParams t.ansiParamCount * 10 + digitValue c))
    else if c = ';'.toUInt8 then
      let t := { t with ansiParamCount := t.ansiParamCount + 1 }
      if t.ansiParamCount ≥ 8 then some (ansiReset t) else setParam t t.ansiParamCount 0
    else ansiExecute t c

/-- The terminal after `tty_init`; the parameters and the command are what was in memory.
Source: `tty_init` -/
def ttyInitScreen (params : Int → Int) (cmd : UInt8) : AnsiTty :=
  ⟨⟨fun _ _ => blank, 0, 0, 0, 0, TTY_ATTR_NORMAL⟩, .normal, params, 0, cmd⟩

/-- One byte; after an access outside an array there is nothing more to say. -/
def feedByte (t : Option AnsiTty) (c : UInt8) : Option AnsiTty := t.bind fun t => ttyProcessAnsiChar t c

/-! ### The cursor -/

/-- The cursor and the saved cursor are on the screen, or right behind the end of a row. -/
structure Display.OnScreen (d : Display) : Prop where
  row : 0 ≤ d.cursorRow ∧ d.cursorRow < TTY_SCREEN_ROWS
  col : 0 ≤ d.cursorCol ∧ d.cursorCol ≤ TTY_SCREEN_COLS
  savedRow : 0 ≤ d.savedCursorRow ∧ d.savedCursorRow < TTY_SCREEN_ROWS
  savedCol : 0 ≤ d.savedCursorCol ∧ d.savedCursorCol ≤ TTY_SCREEN_COLS

def Display.SameCursor (d d' : Display) : Prop :=
  d'.cursorRow = d.cursorRow ∧ d'.cursorCol = d.cursorCol ∧ d'.savedCursorRow = d.savedCursorRow ∧
    d'.savedCursorCol = d.savedCursorCol

lemma Display.SameCursor.trans {d d' d'' : Display} (h : d.SameCursor d') (h' : d'.SameCursor d'') :
    d.SameCursor d'' := by
  obtain ⟨h1, h2, h3, h4⟩ := h
  obtain ⟨h1', h2', h3', h4'⟩ := h'
  exact ⟨h1'.trans h1, h2'.trans h2, h3'.trans h3, h4'.trans h4⟩

lemma Display.OnScreen.congr {d d' : Display} (h : d.OnScreen) (hs : d.SameCursor d') : d'.OnScreen := by
  obtain ⟨h1, h2, h3, h4⟩ := hs
  exact ⟨by rw [h1]; exact h.row, by rw [h2]; exact h.col, by rw [h3]; exact h.savedRow, by rw [h4]; exact h.savedCol⟩

/-- It returns, and only cells change. -/
def Draws (d : Display) (r : Option Display) : Prop := ∃ d', r = some d' ∧ d.SameCursor d'

lemma draws_self (d : Display) : Draws d (some d) := ⟨d, rfl, rfl, rfl, rfl, rfl⟩

variable {d : Display} {r : Option Display}

lemma Draws.bind {f : Display → Option Display} (h : Draws d r)
    (hf : ∀ d', d.SameCursor d' → Draws d' (f d')) : Draws d (r.bind f) := by
  obtain ⟨d', rfl, hs⟩ := h
  obtain ⟨d'', hd'', hs'⟩ := hf d' hs
  exact ⟨d'', hd'', hs.trans hs'⟩

lemma setCell_draws {row col : Int} (hr : 0 ≤ row ∧ row < TTY_SCREEN_ROWS) (hc : 0 ≤ col ∧ col < TTY_SCREEN_COLS)
    (d : Display) (c : Cell) : Draws d (setCell d row col c) := by
  unfold setCell
  rw [if_pos ⟨hr.1, hr.2, hc.1, hc.2⟩]
  exact ⟨_, rfl, rfl, rfl, rfl, rfl⟩

lemma forLoop_draws {lo hi : Int} {f : Display → Int → Option Display}
    (hf : ∀ i, lo ≤ i → i < hi → ∀ d, Draws d (f d i)) (d : Display) : Draws d (forLoop lo hi f d) := by
  have hloop : ∀ n : Nat, ∀ i, lo ≤ i → i + n ≤ hi → ∀ d, Draws d (loop f n i d) := by
    intro n
    induction n with
    | zero => exact fun _ _ _ d => draws_self d
    | succ n ih =>
      intro i hlo hhi d
      push_cast at hhi
      exact (hf i hlo (by omega) d).bind fun d' _ => ih (i + 1) (by omega) (by omega) d'
  by_cases h : lo ≤ hi
  · exact hloop _ lo le_rfl (by omega) d
  · unfold forLoop
    rw [Int.toNat_of_nonpos (by omega)]
    exact draws_self d

lemma clearCells_draws {row lo hi : Int} (hr : 0 ≤ row ∧ row < TTY_SCREEN_ROWS) (hlo : 0 ≤ lo)
    (hhi : hi ≤ TTY_SCREEN_COLS) (d : Display) : Draws d (clearCells row lo hi d) :=
  forLoop_draws (fun _ h1 h2 d => setCell_draws hr ⟨by omega, by omega⟩ d _) d

lemma screenClear_draws (d : Display) : Draws d (screenClear d) :=
  forLoop_draws (fun _ h1 h2 d => clearCells_draws ⟨h1, h2⟩ le_rfl le_rfl d) d

lemma screenClearLine_draws (d : Display) (row : Int) : Draws d (screenClearLine d row) := by
  unfold screenClearLine
  split
  · exact draws_self d
  · exact clearCells_draws (by omega) le_rfl le_rfl d

lemma screenClearToEol_draws (h : 0 ≤ d.cursorCol) : Draws d (screenClearToEol d) := by
  unfold screenClearToEol
  split
  · exact draws_self d
  · exact clearCells_draws (by omega) h le_rfl d

lemma screenScrollUp_draws (d : Display) : Draws d (screenScrollUp d) := by
  have hrows : TTY_SCREEN_ROWS = 25 := rfl
  unfold screenScrollUp
  refine Draws.bind (forLoop_draws (fun row h1 h2 d => forLoop_draws (fun col h3 h4 d => ?_) d) d) fun d _ =>
    clearCells_draws (by omega) le_rfl le_rfl d
  unfold getCell
  rw [if_pos ⟨by omega, by omega, h3, h4⟩]
  exact setCell_draws ⟨h1, by omega⟩ ⟨h3, h4⟩ d _

def Stays (r : Option Display) : Prop := ∃ d, r = some d ∧ d.OnScreen

lemma Draws.stays (h : Draws d r) (hd : d.OnScreen) : Stays r := by
  obtain ⟨d', rfl, hs⟩ := h
  exact ⟨d', rfl, hd.congr hs⟩

lemma Stays.ite {c : Prop} [Decidable c] {r' : Option Display} (h : c → Stays r) (h' : ¬ c → Stays r') :
    Stays (if c then r else r') := by
  split
  · next hc => exact h hc
  · next hc => exact h' hc

lemma Stays.map (h : Stays r) {f : Display → Display} (hf : ∀ d, d.OnScreen → (f d).OnScreen) : Stays (r.map f) := by
  obtain ⟨d, rfl, hd⟩ := h
  exact ⟨f d, rfl, hf d hd⟩

lemma Stays.bind (h : Stays r) {f : Display → Option Display}
    (hf : ∀ d, d.OnScreen → Stays (f d)) : Stays (r.bind f) := by
  obtain ⟨d, rfl, hd⟩ := h
  exact hf d hd

lemma scrollAtEnd_stays (h : { d with cursorRow := 0 }.OnScreen) (h0 : 0 ≤ d.cursorRow) :
    Stays (scrollAtEnd d) := by
  have hrows : TTY_SCREEN_ROWS = 25 := rfl
  unfold scrollAtEnd
  split
  · obtain ⟨d', hd', h1, h2, h3, h4⟩ := screenScrollUp_draws d
    rw [hd']
    refine ⟨_, rfl, ⟨by dsimp only; omega, ?_, ?_, ?_⟩⟩
    · dsimp only
      rw [h2]
      exact h.col
    · dsimp only
      rw [h3]
      exact h.savedRow
    · dsimp only
      rw [h4]
      exact h.savedCol
  · exact ⟨d, rfl, ⟨by omega, h.col, h.savedRow, h.savedCol⟩⟩

lemma newLine_stays (h : d.OnScreen) : Stays (newLine d) := by
  have hrows : TTY_SCREEN_ROWS = 25 := rfl
  have hcols : TTY_SCREEN_COLS = 80 := rfl
  have hrow := h.row
  have hwrap : wrap32 (d.cursorRow + 1) = d.cursorRow + 1 := wrap32_of_fits ⟨by omega, by omega⟩
  unfold newLine
  rw [hwrap]
  refine scrollAtEnd_stays ⟨?_, ?_, h.savedRow, h.savedCol⟩ ?_
  · dsimp only
    omega
  · dsimp only
    omega
  · dsimp only
    omega

lemma screenPutc_stays (h : d.OnScreen) (c : UInt8) : Stays (screenPutc d c) := by
  have hrows : TTY_SCREEN_ROWS = 25 := rfl
  have hcols : TTY_SCREEN_COLS = 80 := rfl
  have hfirst : Stays (scrollAtEnd d) := scrollAtEnd_stays ⟨by dsimp only; omega, h.col, h.savedRow, h.savedCol⟩ h.row.1
  -- after the two tests the cursor is in a cell
  have hplace : ∀ d : Display, d.OnScreen → ∃ d', (if d.cursorCol ≥ TTY_SCREEN_COLS then newLine d else some d) =
      some d' ∧ d'.OnScreen ∧ d'.cursorCol < TTY_SCREEN_COLS := by
    intro d hd
    split
    · obtain ⟨d', hd', hs⟩ := newLine_stays hd
      refine ⟨d', hd', hs, ?_⟩
      have hzero : d'.cursorCol = 0 := by
        unfold newLine scrollAtEnd at hd'
        split at hd'
        · rw [map_eq_some_iff] at hd'
          obtain ⟨d'', hd'', rfl⟩ := hd'
          obtain ⟨e, he, hsame⟩ := screenScrollUp_draws { d with cursorCol := 0, cursorRow := wrap32 (d.cursorRow + 1) }
          rw [he] at hd''
          cases hd''
          exact hsame.2.1
        · cases hd'
          rfl
      rw [hzero]
      decide
    · next hlt => exact ⟨d, rfl, hd, by omega⟩
  unfold screenPutc
  refine hfirst.bind fun d hd => ?_
  obtain ⟨d', hd', hs, hlt⟩ := hplace d hd
  rw [hd', bind_some, if_pos ⟨hs.row.1, hs.col.1⟩]
  obtain ⟨d'', hd'', hsame⟩ := setCell_draws hs.row ⟨hs.col.1, hlt⟩ d' ⟨c, d'.currentAttr⟩
  rw [hd'']
  have hs' := hs.congr hsame
  have hcol : d''.cursorCol = d'.cursorCol := hsame.2.1
  have hcol0 := hs.col
  have hwrap : wrap32 (d''.cursorCol + 1) = d''.cursorCol + 1 := wrap32_of_fits ⟨by omega, by omega⟩
  refine ⟨_, rfl, ⟨hs'.row, ?_, hs'.savedRow, hs'.savedCol⟩⟩
  dsimp only
  rw [hwrap]
  omega

lemma drawByte_stays (h : d.OnScreen) (c : UInt8) : Stays (drawByte d c) := by
  have hcols : TTY_SCREEN_COLS = 80 := rfl
  have hcol := h.col
  unfold drawByte
  split
  · exact newLine_stays h
  split
  · exact ⟨_, rfl, ⟨h.row, by dsimp only; omega, h.savedRow, h.savedCol⟩⟩
  split
  · refine ⟨_, rfl, ?_⟩
    split
    · exact ⟨h.row, by dsimp only; omega, h.savedRow, h.savedCol⟩
    · exact h
  split
  · have hwrap : wrap32 (d.cursorCol + 4) = d.cursorCol + 4 := wrap32_of_fits ⟨by omega, by omega⟩
    refine ⟨_, rfl, ⟨h.row, ?_, h.savedRow, h.savedCol⟩⟩
    dsimp only
    rw [hwrap]
    split_ifs <;> omega
  split
  · exact screenPutc_stays h c
  · exact ⟨d, rfl, h⟩

lemma escapeByte_stays (h : d.OnScreen) (c : UInt8) : Stays (escapeByte d c) := by
  have hrows : TTY_SCREEN_ROWS = 25 := rfl
  have hcols : TTY_SCREEN_COLS = 80 := rfl
  have hrow := h.row
  unfold escapeByte
  split
  · exact ((screenClear_draws d).stays h).map fun d hd =>
      ⟨by dsimp only; omega, by dsimp only; omega, hd.savedRow, hd.savedCol⟩
  split
  · exact ⟨_, rfl, ⟨h.row, h.col, h.row, h.col⟩⟩
  split
  · exact ⟨_, rfl, ⟨h.savedRow, h.savedCol, h.savedRow, h.savedCol⟩⟩
  split
  · split
    · exact (screenScrollUp_draws d).stays h
    · have hwrap : wrap32 (d.cursorRow - 1) = d.cursorRow - 1 := wrap32_of_fits ⟨by omega, by omega⟩
      refine ⟨_, rfl, ⟨?_, h.col, h.savedRow, h.savedCol⟩⟩
      dsimp only
      rw [hwrap]
      omega
  · exact ⟨d, rfl, h⟩

lemma selectGraphic_draws (params : Int → Int) (n : Nat) (i : Int) (h0 : 0 ≤ i) (hn : i + n ≤ 8) (d : Display) :
    Draws d (selectGraphic params n i d) := by
  induction n generalizing i d with
  | zero => exact draws_self d
  | succ n ih =>
    push_cast at hn
    rw [selectGraphic, if_pos ⟨h0, by omega⟩]
    refine (ih (i + 1) (by omega) (by omega) _).imp fun _ h => ⟨h.1, Display.SameCursor.trans ?_ h.2⟩
    split_ifs <;> exact ⟨rfl, rfl, rfl, rfl⟩

variable {params p p' : Int → Int} {x count v : Int} {t : AnsiTty} {c : UInt8}

lemma ansiParam_pos (h : ∀ i, Fits32 (params i)) (count index : Int) :
    0 < ansiParam params count index 1 ∧ ansiParam params count index 1 < 2147483648 := by
  have := (h index).2
  unfold ansiParam
  split
  · omega
  · omega

lemma clamp_range {size : Int} (h : 0 < size) : 0 ≤ clamp x size ∧ clamp x size < size := by
  unfold clamp
  split_ifs <;> omega

/-- Moving right and down does not wrap the cursor. -/
def NoWrap (d : Display) (cmd : UInt8) (params : Int → Int) (count : Int) : Prop :=
  (cmd = 'B'.toUInt8 → d.cursorRow + ansiParam params count 0 1 < 2147483648) ∧
  (cmd = 'C'.toUInt8 → d.cursorCol + ansiParam params count 0 1 < 2147483648)

instance NoWrap.instDecidable (d : Display) (cmd : UInt8) (params : Int → Int) (count : Int) :
    Decidable (NoWrap d cmd params count) := inferInstanceAs (Decidable (_ ∧ _))

lemma eraseDisplay_draws (h : d.OnScreen) (mode : Int) : Draws d (eraseDisplay d mode) := by
  unfold eraseDisplay
  split
  · exact (screenClearToEol_draws h.col.1).bind fun d _ => forLoop_draws (fun _ _ _ d => screenClearLine_draws d _) d
  split
  · refine Draws.bind (forLoop_draws (fun _ _ _ d => screenClearLine_draws d _) d) fun d' hs => ?_
    have h' := h.congr hs
    exact clearCells_draws h'.row le_rfl h'.col.2 d'
  split
  · exact screenClear_draws d
  · exact draws_self d

lemma eraseLine_draws (h : d.OnScreen) (mode : Int) : Draws d (eraseLine d mode) := by
  unfold eraseLine
  split
  · exact screenClearToEol_draws h.col.1
  split
  · exact clearCells_draws h.row le_rfl h.col.2 d
  split
  · exact screenClearLine_draws d _
  · exact draws_self d

lemma back_range {n : Int} (hx : 0 ≤ x ∧ x < 2147483648) (hn : 0 < n ∧ n < 2147483648) :
    0 ≤ (if wrap32 (x - n) < 0 then 0 else wrap32 (x - n)) ∧
      (if wrap32 (x - n) < 0 then 0 else wrap32 (x - n)) ≤ x := by
  rw [wrap32_of_fits ⟨by omega, by omega⟩]
  split
  · exact ⟨le_rfl, hx.1⟩
  · omega

lemma forward_range {n size : Int} (hx : 0 ≤ x) (hn : 0 < n) (hlt : x + n < 2147483648) (hsize : 0 < size) :
    0 ≤ (if wrap32 (x + n) ≥ size then size - 1 else wrap32 (x + n)) ∧
      (if wrap32 (x + n) ≥ size then size - 1 else wrap32 (x + n)) < size := by
  rw [wrap32_of_fits ⟨by omega, by omega⟩]
  split
  · omega
  · omega

lemma execCommand_stays (h : d.OnScreen) {cmd : UInt8}
    (hp : ∀ i, Fits32 (params i)) (hcount : 0 ≤ count ∧ count < 8) (hw : NoWrap d cmd params count) :
    Stays (execCommand d cmd params count) := by
  have hrows : TTY_SCREEN_ROWS = 25 := rfl
  have hcols : TTY_SCREEN_COLS = 80 := rfl
  have hrow := h.row
  have hcol := h.col
  have hparam := ansiParam_pos hp count 0
  have hup := back_range ⟨hrow.1, by omega⟩ hparam
  have hback := back_range ⟨hcol.1, by omega⟩ hparam
  unfold execCommand
  -- the commands in the order of the source
  refine Stays.ite (fun _ => ?position) fun _ => Stays.ite (fun _ => (eraseDisplay_draws h _).stays h) fun _ =>
    Stays.ite (fun _ => (eraseLine_draws h _).stays h) fun _ => Stays.ite (fun _ => ?up) fun _ =>
    Stays.ite (fun hB => ?down) fun _ => Stays.ite (fun hC => ?right) fun _ => Stays.ite (fun _ => ?left) fun _ =>
    Stays.ite (fun _ => (selectGraphic_draws params _ 0 le_rfl (by omega) d).stays h) fun _ =>
    Stays.ite (fun _ => ⟨_, rfl, ⟨h.row, h.col, h.row, h.col⟩⟩) fun _ =>
    Stays.ite (fun _ => ⟨_, rfl, ⟨h.savedRow, h.savedCol, h.savedRow, h.savedCol⟩⟩) fun _ => ⟨d, rfl, h⟩
  case position =>
    exact ⟨_, rfl, ⟨clamp_range (by decide), ⟨(clamp_range (by decide)).1, (clamp_range (by decide)).2.le⟩,
      h.savedRow, h.savedCol⟩⟩
  case up => exact ⟨_, rfl, ⟨⟨hup.1, hup.2.trans_lt hrow.2⟩, h.col, h.savedRow, h.savedCol⟩⟩
  case down =>
    exact ⟨_, rfl, ⟨forward_range hrow.1 hparam.1 (hw.1 hB) (by decide), h.col, h.savedRow, h.savedCol⟩⟩
  case right =>
    have hright := forward_range hcol.1 hparam.1 (hw.2 hC) (show 0 < TTY_SCREEN_COLS by decide)
    exact ⟨_, rfl, ⟨h.row, ⟨hright.1, hright.2.le⟩, h.savedRow, h.savedCol⟩⟩
  case left => exact ⟨_, rfl, ⟨h.row, ⟨hback.1, hback.2.trans hcol.2⟩, h.savedRow, h.savedCol⟩⟩

/-- The cursor is on the screen and the parser inside its array. -/
structure AnsiTty.Safe (t : AnsiTty) : Prop where
  display : t.display.OnScreen
  count : 0 ≤ t.ansiParamCount ∧ t.ansiParamCount < 8
  params : ∀ i, Fits32 (t.ansiParams i)

/-- If the byte executes a command, the command does not wrap the cursor. -/
def AnsiTty.MovesInside (t : AnsiTty) (c : UInt8) : Prop :=
  t.ansiState = .bracket ∨ t.ansiState = .params → NoWrap t.display c t.ansiParams t.ansiParamCount

instance AnsiTty.instDecidableMovesInside (t : AnsiTty) (c : UInt8) : Decidable (t.MovesInside c) :=
  inferInstanceAs (Decidable (_ → _))

lemma fits_update (h : ∀ i, Fits32 (params i)) (i : Int) (hv : Fits32 v) :
    ∀ j, Fits32 (update params i v j) := by
  intro j
  by_cases hj : j = i
  · rw [hj, update_self]
    exact hv
  · rw [update_of_ne hj]
    exact h j

lemma setParam_safe (h : t.Safe) (hv : Fits32 v) :
    ∃ t', setParam t t.ansiParamCount v = some t' ∧ t'.Safe ∧ t'.ansiParamCount = t.ansiParamCount := by
  unfold setParam
  rw [if_pos h.count]
  exact ⟨_, rfl, ⟨h.display, h.count, fits_update h.params _ hv⟩, rfl⟩

lemma ansiReset_safe (hd : t.display.OnScreen) (hp : ∀ i, Fits32 (t.ansiParams i)) :
    (ansiReset t).Safe := ⟨hd, ⟨le_rfl, show (0 : Int) < 8 by decide⟩, hp⟩

lemma ansiExecute_safe (h : t.Safe)
    (hw : NoWrap t.display c t.ansiParams t.ansiParamCount) : ∃ t', ansiExecute t c = some t' ∧ t'.Safe := by
  obtain ⟨d, hd, hs⟩ := execCommand_stays h.display h.params h.count hw
  unfold ansiExecute
  rw [hd]
  exact ⟨_, rfl, ansiReset_safe hs h.params⟩

lemma digit_fits : Fits32 (digitValue c) := by
  have := c.toNat_lt
  unfold Fits32 digitValue
  omega

lemma ttyProcessAnsiChar_safe (h : t.Safe) (hw : t.MovesInside c) :
    ∃ t', ttyProcessAnsiChar t c = some t' ∧ t'.Safe := by
  have hcount := h.count
  unfold ttyProcessAnsiChar
  cases hstate : t.ansiState with
  | normal =>
    dsimp only
    split
    · exact ⟨_, rfl, ⟨h.display, h.count, h.params⟩⟩
    · obtain ⟨d, hd, hs⟩ := drawByte_stays h.display c
      rw [hd]
      exact ⟨_, rfl, ⟨hs, h.count, h.params⟩⟩
  | escape =>
    dsimp only
    split
    · exact ⟨_, rfl, ⟨h.display, ⟨le_rfl, by dsimp only; omega⟩, fits_update h.params 0 (by decide)⟩⟩
    · obtain ⟨d, hd, hs⟩ := escapeByte_stays h.display c
      rw [hd]
      exact ⟨_, rfl, ansiReset_safe hs h.params⟩
  | bracket =>
    dsimp only
    split
    · obtain ⟨t', ht', hs, -⟩ := setParam_safe h (digit_fits (c := c))
      rw [ht']
      exact ⟨_, rfl, ⟨hs.display, hs.count, hs.params⟩⟩
    split
    · exact ⟨_, rfl, ⟨h.display, h.count, fits_update h.params 0 (by decide)⟩⟩
    split
    · obtain ⟨t', ht', hs, hc⟩ := setParam_safe h (v := 0) (by decide)
      rw [ht']
      refine ⟨_, rfl, ?_⟩
      dsimp only
      split
      · exact ansiReset_safe hs.display hs.params
      · exact ⟨hs.display, by dsimp only; omega, hs.params⟩
    · exact ansiExecute_safe h (hw (.inl hstate))
  | params =>
    dsimp only
    split
    · obtain ⟨t', ht', hs, -⟩ := setParam_safe h (wrap32_fits (t.ansiParams t.ansiParamCount * 10 + digitValue c))
      exact ⟨t', ht', hs⟩
    split
    · split
      · exact ⟨_, rfl, ansiReset_safe h.display h.params⟩
      · next hroom =>
        have hs : AnsiTty.Safe { t with ansiState := .params, ansiParamCount := t.ansiParamCount + 1 } :=
          ⟨h.display, by dsimp only at hroom ⊢; omega, h.params⟩
        obtain ⟨t', ht', hs', -⟩ := setParam_safe hs (v := 0) (by decide)
        exact ⟨t', ht', hs'⟩
    · exact ansiExecute_safe h (hw (.inr hstate))

/-- The condition on a run, of the terminal before each byte. -/
def MovesInside : Option AnsiTty → UInt8 → Prop
  | none, _ => True
  | some t, c => t.MovesInside c

instance MovesInside.instDecidable : ∀ (t : Option AnsiTty) (c : UInt8), Decidable (MovesInside t c)
  | none, _ => .isTrue trivial
  | some t, c => inferInstanceAs (Decidable (t.MovesInside c))

/-- Any bytes whose cursor movements end inside keep every index inside the screen and the parameters.
Source: `tty_process_ansi_char`, `ansi_execute`, `screen_putc` -/
theorem run_on_screen (params : Int → Int) (hp : ∀ i, Fits32 (params i)) (cmd : UInt8) (bytes : List UInt8)
    (h : Along feedByte MovesInside (some (ttyInitScreen params cmd)) bytes) :
    ∃ t, run feedByte (some (ttyInitScreen params cmd)) bytes = some t ∧ t.Safe := by
  have hinit : (ttyInitScreen params cmd).Safe :=
    have hrow : 0 ≤ (0 : Int) ∧ 0 < TTY_SCREEN_ROWS := by decide
    have hcol : 0 ≤ (0 : Int) ∧ 0 ≤ TTY_SCREEN_COLS := by decide
    ⟨⟨hrow, hcol, hrow, hcol⟩, ⟨le_rfl, show (0 : Int) < 8 by decide⟩, hp⟩
  refine run_invariant (I := fun o => ∃ t, o = some t ∧ t.Safe) ?_ ⟨_, rfl, hinit⟩ h
  rintro _ c ⟨t, rfl, ht⟩ hc
  exact ttyProcessAnsiChar_safe ht hc

/-- Down two rows, right three columns, one character, and the rest of the line erased. -/
theorem run_on_screen_moves :
    ∃ t, run feedByte (some (ttyInitScreen (fun _ => 0) 0)) [0x1b, 91, 50, 66, 0x1b, 91, 51, 67, 97, 0x1b, 91, 75] =
      some t ∧ t.Safe :=
  run_on_screen (fun _ => 0) (fun _ => by decide) 0 _ (by decide)

/-- One character, then 2147483647 columns to the right: the column is negative, and erasing the rest of the line
starts there. -/
theorem cursor_leaves_screen : (run feedByte (some (ttyInitScreen (fun _ => 0) 0))
      [97, 0x1b, 91, 50, 49, 52, 55, 52, 56, 51, 54, 52, 55, 67]).map (fun t => t.display.cursorCol) =
        some (-2147483648) ∧ (run feedByte (some (ttyInitScreen (fun _ => 0) 0))
      [97, 0x1b, 91, 50, 49, 52, 55, 52, 56, 51, 54, 52, 55, 67, 0x1b, 91, 75]).isNone = true := by
  decide

/-! ### Two runs -/

/-- The terminals differ at most in what no sequence reads any more. In the middle of a sequence they have the same
parameters, but for the one that only a digit will set. -/
def Agree (t u : AnsiTty) : Prop :=
  t.display = u.display ∧ t.ansiState = u.ansiState ∧
  match t.ansiState with
  | .normal => True
  | .escape => True
  | .bracket => t.ansiParamCount = u.ansiParamCount ∧
      (∀ i, 0 ≤ i → i < t.ansiParamCount ∨ i = 0 → t.ansiParams i = u.ansiParams i) ∧ 0 ≤ t.ansiParamCount
  | .params => t.ansiParamCount = u.ansiParamCount ∧
      (∀ i, 0 ≤ i → i ≤ t.ansiParamCount → t.ansiParams i = u.ansiParams i) ∧ 0 ≤ t.ansiParamCount

/-- The last parameter of a sequence of semicolons only is not cleared, and the byte would make use of it. -/
def ReadsLeftOver (t : AnsiTty) (c : UInt8) : Prop :=
  t.ansiState = .bracket ∧ 0 < t.ansiParamCount ∧
    (c = '?'.toUInt8 ∨ c = 'm'.toUInt8 ∨ (c = 'H'.toUInt8 ∨ c = 'f'.toUInt8) ∧ t.ansiParamCount = 1)

instance ReadsLeftOver.instDecidable (t : AnsiTty) (c : UInt8) : Decidable (ReadsLeftOver t c) :=
  inferInstanceAs (Decidable (_ ∧ _))

/-- The condition on a run, of the terminal before each byte. -/
def Cleared : Option AnsiTty → UInt8 → Prop
  | none, _ => True
  | some t, c => ¬ ReadsLeftOver t c

instance Cleared.instDecidable : ∀ (t : Option AnsiTty) (c : UInt8), Decidable (Cleared t c)
  | none, _ => .isTrue trivial
  | some t, c => inferInstanceAs (Decidable (¬ ReadsLeftOver t c))

/-- Both runs go on, or both leave an array. -/
def OptAgree : Option AnsiTty → Option AnsiTty → Prop
  | none, none => True
  | some t, some u => Agree t u
  | _, _ => False

lemma ansiParam_congr {params params' : Int → Int} {index : Int}
    (h : index ≤ count → params index = params' index) (default : Int) :
    ansiParam params count index default = ansiParam params' count index default := by
  unfold ansiParam
  by_cases hi : index ≤ count
  · rw [h hi]
  · rw [if_neg (fun h' => hi h'.1), if_neg (fun h' => hi h'.1)]

lemma selectGraphic_congr {params params' : Int → Int} {n : Nat} {i : Int} (h0 : 0 ≤ i)
    (h : ∀ j, i ≤ j → j < i + n → params j = params' j) (d : Display) :
    selectGraphic params n i d = selectGraphic params' n i d := by
  induction n generalizing i d with
  | zero => rfl
  | succ n ih =>
    push_cast at h
    rw [selectGraphic, selectGraphic, h i le_rfl (by omega)]
    split
    · exact ih (by omega) (fun j h1 h2 => h j (by omega) (by omega)) _
    · rfl

lemma execCommand_congr {cmd : UInt8} {params params' : Int → Int}
    (h0 : params 0 = params' 0) (h1 : cmd = 'H'.toUInt8 ∨ cmd = 'f'.toUInt8 → 1 ≤ count → params 1 = params' 1)
    (hm : cmd = 'm'.toUInt8 → ∀ i, 0 ≤ i → i ≤ count → params i = params' i) :
    execCommand d cmd params count = execCommand d cmd params' count := by
  have hfirst : ansiParam params count 0 1 = ansiParam params' count 0 1 := ansiParam_congr (fun _ => h0) 1
  unfold execCommand
  by_cases hH : cmd = 'H'.toUInt8 ∨ cmd = 'f'.toUInt8
  · rw [if_pos hH, if_pos hH, hfirst, ansiParam_congr (h1 hH) 1]
  · rw [if_neg hH, if_neg hH, hfirst, h0]
    by_cases hsgr : cmd = 'm'.toUInt8
    · rw [selectGraphic_congr le_rfl (fun j h₁ h2 => hm hsgr j h₁ (by omega)) d]
    · rw [if_neg hsgr, if_neg hsgr]

lemma ansiExecute_agree {u : AnsiTty} (hd : t.display = u.display)
    (hc : t.ansiParamCount = u.ansiParamCount) (h0 : t.ansiParams 0 = u.ansiParams 0)
    (h1 : c = 'H'.toUInt8 ∨ c = 'f'.toUInt8 → 1 ≤ t.ansiParamCount → t.ansiParams 1 = u.ansiParams 1)
    (hm : c = 'm'.toUInt8 → ∀ i, 0 ≤ i → i ≤ t.ansiParamCount → t.ansiParams i = u.ansiParams i) :
    OptAgree (ansiExecute t c) (ansiExecute u c) := by
  unfold ansiExecute
  rw [← hd, ← hc, ← execCommand_congr h0 h1 hm]
  rcases execCommand t.display c t.ansiParams t.ansiParamCount with _ | d
  · trivial
  · exact ⟨rfl, rfl, trivial⟩

lemma update_agree {i : Int} (k : Int) (h : i ≠ k → p i = p' i) :
    update p k v i = update p' k v i := by
  by_cases hi : i = k
  · rw [hi, update_self, update_self]
  · rw [update_of_ne hi, update_of_ne hi, h hi]

lemma bracketByte_agree {n : Int} {k k' : UInt8} (h0 : 0 ≤ n)
    (hparams : ∀ i, 0 ≤ i → i < n ∨ i = 0 → p i = p' i) (hc : ¬ ReadsLeftOver ⟨d, .bracket, p, n, k⟩ c) :
    OptAgree (ttyProcessAnsiChar ⟨d, .bracket, p, n, k⟩ c) (ttyProcessAnsiChar ⟨d, .bracket, p', n, k'⟩ c) := by
  have hzero : c = '?'.toUInt8 ∨ c = 'm'.toUInt8 → n = 0 := fun h => by
    by_contra hne
    exact hc ⟨rfl, show 0 < n by omega, h.imp_right .inl⟩
  have hone : c = 'H'.toUInt8 ∨ c = 'f'.toUInt8 → n ≠ 1 := fun h h1 =>
    hc ⟨rfl, show 0 < n by omega, .inr (.inr ⟨h, h1⟩)⟩
  unfold ttyProcessAnsiChar setParam
  dsimp only
  split
  · -- a digit sets the parameter that may have differed
    split
    · exact ⟨rfl, rfl, rfl, fun i hi hi' => update_agree _ fun hne => hparams i hi (by dsimp only at hi'; omega), h0⟩
    · trivial
  split
  · next hq =>
    have := hzero (.inl hq)
    exact ⟨rfl, rfl, rfl, fun i hi hi' => update_agree 0 fun hne => by dsimp only at hi'; omega, h0⟩
  split
  · split
    · simp only [map_some]
      split
      · exact ⟨rfl, rfl, trivial⟩
      · exact ⟨rfl, rfl, rfl, fun i hi hi' => update_agree _ fun hne => hparams i hi (by dsimp only at hi'; omega),
          by dsimp only; omega⟩
    · trivial
  · refine ansiExecute_agree rfl rfl (hparams 0 le_rfl (.inr rfl)) (fun hH h1 => ?_) fun hm i hi hi' => ?_
    · have := hone hH
      exact hparams 1 (by omega) (.inl (by dsimp only at h1; omega))
    · have := hzero (.inr hm)
      exact hparams i hi (by dsimp only at hi'; omega)

lemma paramsByte_agree {n : Int} {k k' : UInt8} (h0 : 0 ≤ n)
    (hparams : ∀ i, 0 ≤ i → i ≤ n → p i = p' i) (c : UInt8) :
    OptAgree (ttyProcessAnsiChar ⟨d, .params, p, n, k⟩ c) (ttyProcessAnsiChar ⟨d, .params, p', n, k'⟩ c) := by
  unfold ttyProcessAnsiChar setParam
  dsimp only
  split
  · rw [hparams n h0 le_rfl]
    split
    · exact ⟨rfl, rfl, rfl, fun i hi hi' => update_agree _ fun hne => hparams i hi hi', h0⟩
    · trivial
  split
  · split
    · exact ⟨rfl, rfl, trivial⟩
    split
    · refine ⟨rfl, rfl, rfl, fun i hi hi' => update_agree _ fun hne => hparams i hi ?_, by dsimp only; omega⟩
      dsimp only at hi'
      omega
    · trivial
  · exact ansiExecute_agree rfl rfl (hparams 0 le_rfl h0) (fun _ h1 => hparams 1 (by omega) h1)
      fun _ i hi hi' => hparams i hi hi'

lemma ttyProcessAnsiChar_agree {u : AnsiTty} (h : Agree t u) (hc : ¬ ReadsLeftOver t c) :
    OptAgree (ttyProcessAnsiChar t c) (ttyProcessAnsiChar u c) := by
  obtain ⟨d, state, p, n, cmd⟩ := t
  obtain ⟨d', state', p', n', cmd'⟩ := u
  obtain ⟨rfl, rfl, hrest⟩ := h
  cases state with
  | normal =>
    unfold ttyProcessAnsiChar
    dsimp only
    split
    · exact ⟨rfl, rfl, trivial⟩
    · rcases drawByte d c with _ | d
      · trivial
      · exact ⟨rfl, rfl, trivial⟩
  | escape =>
    unfold ttyProcessAnsiChar
    dsimp only
    split
    · exact ⟨rfl, rfl, rfl, fun i hi hi' => update_agree 0 fun hne => by dsimp only at hi'; omega, le_rfl⟩
    · rcases escapeByte d c with _ | d
      · trivial
      · exact ⟨rfl, rfl, trivial⟩
  | bracket =>
    obtain ⟨rfl, hparams, h0⟩ := hrest
    exact bracketByte_agree h0 hparams hc
  | params =>
    obtain ⟨rfl, hparams, h0⟩ := hrest
    exact paramsByte_agree h0 hparams c

lemma run_agree {t u : Option AnsiTty} (h : OptAgree t u) {bytes : List UInt8} (hc : Along feedByte Cleared t bytes) :
    OptAgree (run feedByte t bytes) (run feedByte u bytes) := by
  induction bytes generalizing t u with
  | nil => exact h
  | cons c bytes ih =>
    refine ih ?_ hc.2
    match t, u, h with
    | none, none, _ => trivial
    | some t, some u, h => exact ttyProcessAnsiChar_agree h hc.1

lemma OptAgree.display {t u : Option AnsiTty} (h : OptAgree t u) : t.map AnsiTty.display = u.map AnsiTty.display := by
  match t, u, h with
  | none, none, _ => rfl
  | some t, some u, h => exact congrArg some h.1

/-! ### Parameters -/

/-- The value of a parameter; one that is left out is 0. -/
def fieldValue (field : List UInt8) : Int := field.foldl (fun v c => wrap32 (v * 10 + digitValue c)) 0

/-- Fields behind semicolons. -/
def behind (fields : List (List UInt8)) : List UInt8 := fields.flatMap fun f => ';'.toUInt8 :: f

def Digits (f : List UInt8) : Prop := ∀ c ∈ f, isDigit c = true

section fields

variable {d : Display} {p : Int → Int} {n : Int} {k : UInt8} {f : List UInt8} {rest : List (List UInt8)}

lemma run_digits (hn : 0 ≤ n ∧ n < 8) (hf : Digits f) : run feedByte (some ⟨d, .params, p, n, k⟩) f =
      some ⟨d, .params, update p n (f.foldl (fun v c => wrap32 (v * 10 + digitValue c)) (p n)), n, k⟩ := by
  induction f generalizing p with
  | nil => rw [run_nil, foldl_nil, update_eq_self]
  | cons c f ih =>
    have hstep : feedByte (some ⟨d, .params, p, n, k⟩) c =
        some ⟨d, .params, update p n (wrap32 (p n * 10 + digitValue c)), n, k⟩ := by
      simp only [feedByte, bind_some, ttyProcessAnsiChar, hf c mem_cons_self, if_true, setParam]
      rw [if_pos hn]
    rw [run_cons, hstep, ih fun c' h' => hf c' (mem_cons_of_mem _ h')]
    simp only [update_self, update_idem, foldl_cons]

lemma run_behind (hn : 0 ≤ n) {fields : List (List UInt8)} (hlen : n + fields.length < 8)
    (hf : ∀ f ∈ fields, Digits f) : ∃ p', run feedByte (some ⟨d, .params, p, n, k⟩) (behind fields) =
        some ⟨d, .params, p', n + fields.length, k⟩ ∧ (∀ i, i ≤ n → p' i = p i) ∧
      ∀ (j : Nat) (f : List UInt8), fields[j]? = some f → p' (n + 1 + j) = fieldValue f := by
  induction fields generalizing p n with
  | nil => exact ⟨p, by simp [behind], fun _ _ => rfl, fun j f h => by simp at h⟩
  | cons f fields ih =>
    rw [length_cons] at hlen
    push_cast at hlen
    have hstep : feedByte (some ⟨d, .params, p, n, k⟩) ';'.toUInt8 =
        some ⟨d, .params, update p (n + 1) 0, n + 1, k⟩ := by
      have hdigit : isDigit ';'.toUInt8 = false := by decide
      simp only [feedByte, bind_some, ttyProcessAnsiChar, hdigit, Bool.false_eq_true, if_false, if_true, setParam]
      rw [if_neg (by omega), if_pos ⟨by omega, by omega⟩]
    obtain ⟨p', hrun, hold, hnew⟩ := ih (p := update (update p (n + 1) 0) (n + 1)
      (f.foldl (fun v c => wrap32 (v * 10 + digitValue c)) 0)) (n := n + 1) (by omega) (by omega)
      fun g hg => hf g (mem_cons_of_mem _ hg)
    have hbehind : behind (f :: fields) = ';'.toUInt8 :: (f ++ behind fields) := by simp [behind]
    refine ⟨p', ?_, fun i hi => ?_, fun j g hj => ?_⟩
    · rw [hbehind, run_cons, hstep, run_append, run_digits ⟨by omega, by omega⟩ (hf f mem_cons_self),
        update_self, hrun, length_cons]
      congr 2
      push_cast
      ring
    · rw [hold i (by omega), update_idem, update_of_ne (by omega)]
    · cases j with
      | zero =>
        cases hj
        push_cast
        rw [add_zero, hold (n + 1) le_rfl, update_self]
        rfl
      | succ j =>
        have := hnew j g (by simpa using hj)
        rw [← this]
        congr 1
        push_cast
        ring

/-- The parameters of a sequence from a field on whose value is already there. -/
lemma run_from_params (hn : 0 ≤ n) {f0 : List UInt8} (hlen : n + rest.length < 8)
    (hf : Digits f) (hrest : ∀ g ∈ rest, Digits g) (hp : p n = fieldValue f0) :
    ∃ p', run feedByte (some ⟨d, .params, p, n, k⟩) (f ++ behind rest) =
        some ⟨d, .params, p', n + rest.length, k⟩ ∧ (∀ i, i < n → p' i = p i) ∧
      ∀ (j : Nat) (g : List UInt8), ((f0 ++ f) :: rest)[j]? = some g → p' (n + j) = fieldValue g := by
  obtain ⟨p', hrun, hold, hnew⟩ := run_behind (d := d) (p := update p n
    (f.foldl (fun v c => wrap32 (v * 10 + digitValue c)) (p n))) (k := k) hn hlen hrest
  refine ⟨p', ?_, fun i hi => ?_, fun j g hj => ?_⟩
  · rw [run_append, run_digits ⟨hn, by omega⟩ hf, hrun]
  · rw [hold i hi.le, update_of_ne hi.ne]
  · cases j with
    | zero =>
      cases hj
      push_cast
      rw [add_zero, hold n le_rfl, update_self, hp, fieldValue, fieldValue, foldl_append]
    | succ j =>
      have := hnew j g (by simpa using hj)
      rw [← this]
      congr 1
      push_cast
      ring

/-- A field that begins with a digit, right behind the bracket or a semicolon. -/
lemma run_digit_first (hn : 0 ≤ n)
    (hlen : n + rest.length < 8) (hf : ∀ g ∈ (c :: f) :: rest, Digits g) (hold : ∀ i, 0 ≤ i → i < n ∨ i = 0 → p i = 0) :
    ∃ state p', run feedByte (some ⟨d, .bracket, p, n, k⟩) ((c :: f) ++ behind rest) =
        some ⟨d, state, p', n + rest.length, k⟩ ∧ (∀ i, 0 ≤ i → i < n → p' i = 0) ∧
      ∀ (j : Nat) (g : List UInt8), ((c :: f) :: rest)[j]? = some g → p' (n + j) = fieldValue g := by
  have hc : isDigit c = true := hf _ mem_cons_self c mem_cons_self
  have hstep : feedByte (some ⟨d, .bracket, p, n, k⟩) c = some ⟨d, .params, update p n (digitValue c), n, k⟩ := by
    simp only [feedByte, bind_some, ttyProcessAnsiChar, hc, if_true, setParam]
    rw [if_pos ⟨hn, by omega⟩]
    rfl
  have hvalue : update p n (digitValue c) n = fieldValue [c] := by
    rw [update_self, fieldValue, foldl_cons, foldl_nil, zero_mul, zero_add, wrap32_of_fits digit_fits]
  obtain ⟨p', hrun, hkeep, hnew⟩ := run_from_params (d := d) (k := k) hn hlen (fun x hx => hf _ mem_cons_self x
    (mem_cons_of_mem _ hx)) (fun x hx => hf x (mem_cons_of_mem _ hx)) hvalue
  refine ⟨.params, p', ?_, fun i h1 h2 => ?_, hnew⟩
  · rw [cons_append, run_cons, hstep, hrun]
  · rw [hkeep i h2, update_of_ne h2.ne, hold i h1 (.inl h2)]

lemma feed_semicolon (hn : 0 ≤ n) (hlt : n + 1 < 8) :
    feedByte (some ⟨d, .bracket, p, n, k⟩) ';'.toUInt8 = some ⟨d, .bracket, update p n 0, n + 1, k⟩ := by
  have hdigit : isDigit ';'.toUInt8 = false := by decide
  have hq : ';'.toUInt8 ≠ '?'.toUInt8 := by decide
  simp only [feedByte, bind_some, ttyProcessAnsiChar, hdigit, Bool.false_eq_true, if_false, if_neg hq, if_true,
    setParam]
  rw [if_pos ⟨hn, by omega⟩, map_some]
  dsimp only
  rw [if_neg (by omega)]

/-- The fields behind the bracket. As long as they are empty the semicolons are counted, and the first digit begins
the parameters. -/
lemma run_fields (hn : 0 ≤ n) (hlen : n + rest.length < 8)
    (hf : ∀ g ∈ f :: rest, Digits g) (hgiven : n + rest.length = 0 ∨ ∃ g ∈ f :: rest, g ≠ [])
    (hold : ∀ i, 0 ≤ i → i < n ∨ i = 0 → p i = 0) :
    ∃ state p', run feedByte (some ⟨d, .bracket, p, n, k⟩) (f ++ behind rest) =
      some ⟨d, state, p', n + rest.length, k⟩ ∧ (∀ i, 0 ≤ i → i < n → p' i = 0) ∧
      ∀ (j : Nat) (g : List UInt8), (f :: rest)[j]? = some g → p' (n + j) = fieldValue g := by
  induction rest generalizing f p n with
  | nil =>
    cases f with
    | cons c f => exact run_digit_first hn hlen hf hold
    | nil =>
      have hzero : n = 0 := by
        rcases hgiven with h | ⟨g, hg, hne⟩
        · simpa using h
        · rw [mem_singleton] at hg
          exact absurd hg hne
      subst hzero
      refine ⟨.bracket, p, by simp [behind], fun i h1 h2 => by omega, fun j g hj => ?_⟩
      cases j with
      | zero =>
        cases hj
        exact hold 0 le_rfl (.inr rfl)
      | succ j => simp at hj
  | cons g rest ih =>
    cases f with
    | cons c f => exact run_digit_first hn hlen hf hold
    | nil =>
      -- a semicolon closes the empty field
      rw [length_cons] at hlen
      push_cast at hlen
      have hgiven' : n + 1 + rest.length = 0 ∨ ∃ x ∈ g :: rest, x ≠ [] := by
        rcases hgiven with h | ⟨x, hx, hne⟩
        · rw [length_cons] at h
          push_cast at h
          omega
        · rcases mem_cons.mp hx with rfl | hx
          · exact absurd rfl hne
          · exact .inr ⟨x, hx, hne⟩
      obtain ⟨state, p', hrun, hkeep, hnew⟩ := ih (p := update p n 0) (n := n + 1)
        (by omega) (by omega)
        (fun x hx => hf x (mem_cons_of_mem _ hx)) hgiven' (fun i h1 h2 => by
          by_cases hi : i = n
          · rw [hi, update_self]
          · rw [update_of_ne hi, hold i h1 (by omega)])
      refine ⟨state, p', ?_, fun i h1 h2 => hkeep i h1 (by omega), fun j x hj => ?_⟩
      · have hbehind : ([] : List UInt8) ++ behind (g :: rest) = ';'.toUInt8 :: (g ++ behind rest) := by simp [behind]
        rw [hbehind, run_cons, feed_semicolon hn (by omega), hrun, length_cons]
        congr 2
        push_cast
        ring
      · cases j with
        | zero =>
          cases hj
          push_cast
          rw [add_zero, hkeep n hn (by omega)]
          rfl
        | succ j =>
          have := hnew j x (by simpa using hj)
          rw [← this]
          congr 1
          push_cast
          ring

end fields

lemma ansiParam_fields {p : Int → Int} {fields : List (List UInt8)} {n : Int} (hn : n + 1 = fields.length)
    (h : ∀ (j : Nat) (g : List UInt8), fields[j]? = some g → p j = fieldValue g) (i : Nat) (default : Int) :
    ansiParam p n i default = if fieldValue (fields.getD i []) > 0 then fieldValue (fields.getD i []) else default := by
  unfold ansiParam
  by_cases hi : i < fields.length
  · have hg := getElem?_eq_getElem hi
    rw [h i _ hg, getD_eq_getElem?_getD, hg, getD_some]
    by_cases hv : fieldValue fields[i] > 0
    · rw [if_pos ⟨by omega, hv⟩, if_pos hv]
    · rw [if_neg (fun h' => hv h'.2), if_neg hv]
  · have hnone : fieldValue (fields.getD i []) = 0 := by
      rw [getD_eq_default _ _ (by omega)]
      rfl
    rw [if_neg (by omega), hnone, if_neg (lt_irrefl _)]

def csi (priv : Bool) (f : List UInt8) (rest : List (List UInt8)) : List UInt8 :=
  0x1b :: '['.toUInt8 :: ((if priv then ['?'.toUInt8] else []) ++ (f ++ behind rest))

/-- Two terminals that show the same show the same after any bytes that meet `Cleared`, whatever parameters earlier
sequences left, and each parameter has the value of its own digits.
Source: `tty_process_ansi_char`, `ansi_param`, `ansi_execute` -/
theorem escape_has_no_memory (t u : AnsiTty) (ht : t.ansiState = .normal) (hu : u.ansiState = .normal)
    (hd : t.display = u.display) : (∀ bytes, Along feedByte Cleared (some t) bytes →
      (run feedByte (some t) bytes).map AnsiTty.display = (run feedByte (some u) bytes).map AnsiTty.display) ∧
    ∀ (priv : Bool) (f : List UInt8) (rest : List (List UInt8)), rest.length < 8 → (∀ g ∈ f :: rest, Digits g) →
      (priv = true ∨ rest = [] ∨ ∃ g ∈ f :: rest, g ≠ []) →
      ∃ t', run feedByte (some t) (csi priv f rest) = some t' ∧ t'.display = t.display ∧
        ∀ (i : Nat) (default : Int), ansiParam t'.ansiParams t'.ansiParamCount i default =
          if fieldValue ((f :: rest).getD i []) > 0 then fieldValue ((f :: rest).getD i []) else default := by
  refine ⟨fun bytes hc => (run_agree ?_ hc).display, fun priv f rest hlen hf hgiven => ?_⟩
  · exact ⟨hd, ht.trans hu.symm, by rw [ht]; trivial⟩
  obtain ⟨d, state, p, n, cmd⟩ := t
  cases ht
  have hopen : run feedByte (some ⟨d, .normal, p, n, cmd⟩) (csi priv f rest) = run feedByte (some
      ⟨d, .bracket, update p 0 0, 0, cmd⟩) ((if priv then ['?'.toUInt8] else []) ++ (f ++ behind rest)) := rfl
  have hzero : update p 0 0 0 = fieldValue [] := update_self _ _ _
  rw [hopen]
  cases priv with
  | true =>
    have hq : run feedByte (some ⟨d, .bracket, update p 0 0, 0, cmd⟩)
        ((if true = true then ['?'.toUInt8] else []) ++ (f ++ behind rest)) =
        run feedByte (some ⟨d, .params, update p 0 0, 0, cmd⟩) (f ++ behind rest) := by
      have hidem : update (update p 0 0) 0 0 = update p 0 0 := update_idem _ _ _
      rw [if_pos rfl, cons_append, run_cons, nil_append]
      conv_rhs => rw [← hidem]
      rfl
    obtain ⟨p', hrun, -, hnew⟩ := run_from_params (d := d) (k := cmd) le_rfl (by omega)
      (hf f mem_cons_self) (fun g hg => hf g (mem_cons_of_mem _ hg)) hzero
    refine ⟨_, hq.trans hrun, rfl, ansiParam_fields (by simp) fun j g hj => ?_⟩
    have := hnew j g hj
    rwa [zero_add] at this
  | false =>
    obtain ⟨state, p', hrun, -, hnew⟩ := run_fields (d := d) (k := cmd) (p := update p 0 0) le_rfl
      (by simpa using hlen) hf (by
        rcases hgiven with h | h | h
        · cases h
        · exact .inl (by simp [h])
        · exact .inr h) (fun i h1 h2 => by
        have : i = 0 := by omega
        rw [this, update_self])
    refine ⟨_, hrun, rfl, ansiParam_fields (by simp) fun j g hj => ?_⟩
    have := hnew j g hj
    rwa [zero_add] at this

set_option maxRecDepth 8192 in
theorem escape_has_no_memory_home :
    (run feedByte (some (ttyInitScreen (fun _ => 3) 0)) (csi false [53] [[]] ++ ['H'.toUInt8])).map AnsiTty.display =
      (run feedByte (some (ttyInitScreen (fun _ => 0) 0)) (csi false [53] [[]] ++ ['H'.toUInt8])).map AnsiTty.display ∧
    ∃ t', run feedByte (some (ttyInitScreen (fun _ => 3) 0)) (csi false [53] [[]]) = some t' ∧
      ansiParam t'.ansiParams t'.ansiParamCount 1 1 = 1 := by
  have h := escape_has_no_memory (ttyInitScreen (fun _ => 3) 0) (ttyInitScreen (fun _ => 0) 0) rfl rfl rfl
  obtain ⟨t', hrun, -, hparam⟩ := h.2 false [53] [[]] (by decide)
    (by unfold Digits; decide) (.inr (.inr ⟨[53], by decide⟩))
  exact ⟨h.1 _ (by decide), t', hrun, hparam 1 1⟩

/-- The column of an earlier position is the column of a position without one. -/
theorem parameter_left_over :
    (run feedByte (some (ttyInitScreen (fun _ => 0) 0)) (csi false [53] [[55]] ++ ['H'.toUInt8] ++
      csi false [] [[]] ++ ['H'.toUInt8])).map (fun t => (t.display.cursorRow, t.display.cursorCol)) = some (0, 6) ∧
    (run feedByte (some (ttyInitScreen (fun _ => 0) 0)) (csi false [] [[]] ++ ['H'.toUInt8])).map
      (fun t => (t.display.cursorRow, t.display.cursorCol)) = some (0, 0) := by
  decide

end VibeOS.Screen
