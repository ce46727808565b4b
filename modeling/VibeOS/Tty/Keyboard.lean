import VibeOS.Tty.Lines

/-!
# The keyboard

The keyboard half of `input_poll`: scancodes of set 1 become characters, Enter and Backspace. `decodeByte` is one
pass of its loop, with what the pass does to `struct keyboard_state` as a `KeyAction`. The bytes of the mouse go
another way and are left out.

The prefix 0xE0 is gone after each key event that does not leave the decoder early (`run_prefix_cleared`). And
polling more often does not change what is typed, as long as each batch, which keeps of Enter and Backspace only
that they occurred, has its keys in the order in which they are taken (`split_does_not_matter`).

Other names are those of `kernel/src/input.c`.
-/

namespace VibeOS

open List

/-- Source: `g_shift_down`, `g_ctrl_down`, `g_extended_code` -/
structure Decoder where
  shiftDown : Bool
  ctrlDown : Bool
  extendedCode : Bool
deriving DecidableEq

def inputInit : Decoder := ⟨false, false, false⟩

/-- Room for the characters of one poll.
Source: `kernel/include/input.h` `struct keyboard_state` -/
def KEYBOARD_CHARS : Nat := 32

def keyboardPushChar (k : KeyboardState) (c : UInt8) : KeyboardState :=
  if k.chars.length < KEYBOARD_CHARS then { k with chars := k.chars ++ [c] } else k

def keyboardPushBytes (k : KeyboardState) (bytes : List UInt8) : KeyboardState := bytes.foldl keyboardPushChar k

/-- The German layout: scancode, plain character, character with shift.
Source: `keycode_to_char` -/
def keymap : List (UInt8 × Char × Char) :=
  [(0x02, '1', '!'), (0x03, '2', '"'), (0x04, '3', '§'), (0x05, '4', '$'), (0x06, '5', '%'), (0x07, '6', '&'),
    (0x08, '7', '/'), (0x09, '8', '('), (0x0A, '9', ')'), (0x0B, '0', '='), (0x0C, '-', '_'), (0x0D, '+', '*'),
    (0x10, 'q', 'Q'), (0x11, 'w', 'W'), (0x12, 'e', 'E'), (0x13, 'r', 'R'), (0x14, 't', 'T'), (0x15, 'z', 'Z'),
    (0x16, 'u', 'U'), (0x17, 'i', 'I'), (0x18, 'o', 'O'), (0x19, 'p', 'P'), (0x1E, 'a', 'A'), (0x1F, 's', 'S'),
    (0x20, 'd', 'D'), (0x21, 'f', 'F'), (0x22, 'g', 'G'), (0x23, 'h', 'H'), (0x24, 'j', 'J'), (0x25, 'k', 'K'),
    (0x26, 'l', 'L'), (0x2C, 'y', 'Y'), (0x2D, 'x', 'X'), (0x2E, 'c', 'C'), (0x2F, 'v', 'V'), (0x30, 'b', 'B'),
    (0x31, 'n', 'N'), (0x32, 'm', 'M'), (0x33, ',', ';'), (0x34, '.', ':'), (0x35, '#', '_'), (0x39, ' ', ' '),
    (0x56, '<', '>')]

/-- Zero for a key without a character. -/
def keycodeToChar (d : Decoder) (scancode : UInt8) : UInt8 :=
  match keymap.lookup scancode with
  | some (plain, shifted) => if d.shiftDown then shifted.toUInt8 else plain.toUInt8
  | none => 0

def keycodeToCtrlChar (d : Decoder) (scancode : UInt8) : UInt8 :=
  let c := keycodeToChar d scancode
  let c := if 65 ≤ c ∧ c ≤ 90 then c - 65 + 97 else c
  if 97 ≤ c ∧ c ≤ 122 then c - 97 + 1 else 0

/-- The bytes of a key behind the prefix.
Source: `input_poll` -/
def extendedBytes (value : UInt8) : List UInt8 :=
  match value with
  | 0x47 => [0x1b, 0x5b, 0x48]
  | 0x48 => [0x1b, 0x5b, 0x41]
  | 0x49 => [0x1b, 0x5b, 0x35, 0x7e]
  | 0x4B => [0x1b, 0x5b, 0x44]
  | 0x4D => [0x1b, 0x5b, 0x43]
  | 0x4F => [0x1b, 0x5b, 0x46]
  | 0x50 => [0x1b, 0x5b, 0x42]
  | 0x51 => [0x1b, 0x5b, 0x36, 0x7e]
  | 0x53 => [0x1b, 0x5b, 0x33, 0x7e]
  | _ => []

/-- What a scancode does to the keyboard state of its poll. -/
inductive KeyAction where
  | push (bytes : List UInt8)
  | enter
  | backspace
deriving DecidableEq

/-- A character that is zero is not pushed. -/
def pushChar (c : UInt8) : KeyAction := .push (if c ≠ 0 then [c] else [])

/-- The part of the loop behind the shift and Ctrl keys.
Source: `input_poll` -/
def decodeKey (d : Decoder) (value : UInt8) : Decoder × KeyAction :=
  if value &&& 0x80 ≠ 0 then ({ d with extendedCode := false }, .push [])
  else if d.extendedCode then ({ d with extendedCode := false }, .push (extendedBytes value))
  else if value = 0x1C then (d, .enter)
  else if value = 0x0E then (d, .backspace)
  else if value = 0x01 then (d, .push [0x1b])
  else if value = 0x0F then (d, .push [9])
  else if d.ctrlDown then (d, pushChar (keycodeToCtrlChar d value))
  else (d, pushChar (keycodeToChar d value))

/-- One byte of the keyboard. What is decided here goes on to the next byte with the prefix as it is.
Source: `input_poll` -/
def decodeByte (d : Decoder) (value : UInt8) : Decoder × KeyAction :=
  if value = 0xE0 then ({ d with extendedCode := true }, .push [])
  else if value = 0x2A ∨ value = 0x36 then ({ d with shiftDown := true }, .push [])
  else if value = 0xAA ∨ value = 0xB6 then ({ d with shiftDown := false }, .push [])
  else if d.extendedCode = false ∧ value = 0x1D then ({ d with ctrlDown := true }, .push [])
  else if value = 0x9D then ({ d with ctrlDown := false }, .push [])
  else if d.extendedCode = true ∧ value = 0x1D then decodeKey { d with ctrlDown := true } value
  else decodeKey d value

def KeyAction.apply (k : KeyboardState) : KeyAction → KeyboardState
  | .push bytes => keyboardPushBytes k bytes
  | .enter => { k with enterPressed := true }
  | .backspace => { k with backspacePressed := true }

/-- What the bytes of a sequence do, one after another, and the decoder after them. -/
def decode : Decoder → List UInt8 → Decoder × List KeyAction
  | d, [] => (d, [])
  | d, b :: bs =>
    let r := decodeByte d b
    let rest := decode r.1 bs
    (rest.1, r.2 :: rest.2)

/-- The bytes that wait in the controller become one keyboard state. -/
def inputPoll (d : Decoder) (batch : List UInt8) : Decoder × KeyboardState :=
  let r := decode d batch
  (r.1, r.2.foldl KeyAction.apply ⟨[], false, false⟩)

/-! ### The prefix -/

/-- A complete key event: a make or break code, perhaps behind the prefix, which is itself no code. -/
structure KeyEvent where
  prefixed : Bool
  code : UInt8
  isCode : code ≠ 0xE0

def KeyEvent.bytes (e : KeyEvent) : List UInt8 := if e.prefixed then [0xE0, e.code] else [e.code]

def Decoder.event (d : Decoder) (e : KeyEvent) : Decoder := (decode d e.bytes).1

/-- A fake shift, or right Ctrl going up: the codes for which `input_poll` goes on to the next byte before it
clears the prefix. -/
def KeyEvent.LeavesEarly (e : KeyEvent) : Prop :=
  e.prefixed = true ∧ (e.code = 0x2A ∨ e.code = 0x36 ∨ e.code = 0xAA ∨ e.code = 0xB6 ∨ e.code = 0x9D)

instance KeyEvent.instDecidableLeavesEarly (e : KeyEvent) : Decidable e.LeavesEarly :=
  inferInstanceAs (Decidable (_ ∧ _))

lemma decodeKey_prefix (d : Decoder) (value : UInt8) : (decodeKey d value).1.extendedCode = false := by
  unfold decodeKey
  split
  · rfl
  split
  · rfl
  next hext =>
    rw [Bool.not_eq_true] at hext
    repeat' split
    all_goals exact hext

variable {d : Decoder} {k : KeyboardState}

lemma decodeByte_unprefixed {value : UInt8} (hd : d.extendedCode = false) (hv : value ≠ 0xE0) :
    (decodeByte d value).1.extendedCode = false := by
  unfold decodeByte
  rw [if_neg hv]
  repeat' split
  all_goals first | exact hd | exact decodeKey_prefix _ _

lemma decodeByte_prefixed {value : UInt8} (hd : d.extendedCode) (hv : value ≠ 0xE0)
    (h : ¬ (value = 0x2A ∨ value = 0x36 ∨ value = 0xAA ∨ value = 0xB6 ∨ value = 0x9D)) :
    (decodeByte d value).1.extendedCode = false := by
  simp only [not_or] at h
  obtain ⟨h1, h2, h3, h4, h5⟩ := h
  unfold decodeByte
  rw [if_neg hv, if_neg (not_or.mpr ⟨h1, h2⟩), if_neg (not_or.mpr ⟨h3, h4⟩), if_neg (by simp [hd]), if_neg h5]
  split
  · exact decodeKey_prefix _ _
  · exact decodeKey_prefix _ _

lemma event_prefix_cleared {e : KeyEvent} (hd : d.extendedCode = false) (he : ¬ e.LeavesEarly) :
    (d.event e).extendedCode = false := by
  unfold Decoder.event KeyEvent.bytes
  cases hp : e.prefixed with
  | false => exact decodeByte_unprefixed hd e.isCode
  | true =>
    have hcodes : ¬ (e.code = 0x2A ∨ e.code = 0x36 ∨ e.code = 0xAA ∨ e.code = 0xB6 ∨ e.code = 0x9D) :=
      fun h => he ⟨hp, h⟩
    exact decodeByte_prefixed rfl e.isCode hcodes

/-- After key events none of which leaves the decoder early, no `0xE0` is remembered: the next event is decoded as
without it. Source: `input_poll` -/
theorem run_prefix_cleared (d : Decoder) (hd : d.extendedCode = false) (es : List KeyEvent)
    (h : ∀ e ∈ es, ¬ e.LeavesEarly) : (run Decoder.event d es).extendedCode = false ∧
    ∀ next : KeyEvent, decode (run Decoder.event d es) next.bytes =
      decode ⟨(run Decoder.event d es).shiftDown, (run Decoder.event d es).ctrlDown, false⟩ next.bytes := by
  have hclear : (run Decoder.event d es).extendedCode = false := by
    induction es generalizing d with
    | nil => exact hd
    | cons e es ih =>
      exact ih _ (event_prefix_cleared hd (h e mem_cons_self)) fun e' he' => h e' (mem_cons_of_mem _ he')
  refine ⟨hclear, fun next => ?_⟩
  congr 1
  rw [← hclear]

theorem run_prefix_cleared_arrows :
    (run Decoder.event inputInit [⟨true, 0x48, by decide⟩, ⟨true, 0x1D, by decide⟩]).extendedCode = false ∧
    ∀ next : KeyEvent, decode (run Decoder.event inputInit [⟨true, 0x48, by decide⟩, ⟨true, 0x1D, by decide⟩])
      next.bytes = decode ⟨false, true, false⟩ next.bytes :=
  run_prefix_cleared inputInit rfl _ (by decide)

/-- After the release of the right Ctrl key the next letter is lost. -/
theorem prefix_survives : (inputInit.event ⟨true, 0x9D, by decide⟩).extendedCode = true ∧
    (decode (inputInit.event ⟨true, 0x9D, by decide⟩) [0x1E]).2 = [.push []] ∧
    (decode inputInit [0x1E]).2 = [.push [97]] := by
  decide

/-! ### Batches -/

abbrev Console := Decoder × Terminal

/-- The bytes that came since the last poll are polled and handed to the terminal; `jobs` matter for Ctrl+C only. -/
def Console.poll (jobs : List Nat) (s : Console) (batch : List UInt8) : Console :=
  let r := inputPoll s.1 batch
  (r.1, ttyHandleKeyboard s.2 r.2 jobs)

/-- What is typed: the lines that Enter was pressed on, and the line being typed. -/
abbrev Typed := List (List UInt8) × List UInt8

def Terminal.typed (s : Terminal) : Typed := (s.committed, s.tty.input)

/-- One key after another, as the user pressed them. -/
def Typed.key (t : Typed) : KeyAction → Typed
  | .push bytes => (t.1, bytes.foldl typeByte t.2)
  | .enter => (t.1 ++ [t.2], [])
  | .backspace => (t.1, t.2.dropLast)

def KeyAction.bytes : KeyAction → List UInt8
  | .push bytes => bytes
  | .enter => []
  | .backspace => []

def pushed (as : List KeyAction) : List UInt8 := as.flatMap KeyAction.bytes

def Terminal.Cooked (s : Terminal) : Prop := (s.tty.ansiMode || s.tty.rawInputMode) = false

def keys (as : List KeyAction) : List KeyAction := as.filter (· ≠ .push [])

/-- The keys of a batch come in the order in which `tty_handle_keyboard` takes them: at most one Backspace, before
all characters, and at most one Enter, after them; and the characters fit. -/
def InOrder (as : List KeyAction) : Prop :=
  keys as = (if .backspace ∈ as then [.backspace] else []) ++
      (keys as).filter (fun a => a ≠ .backspace ∧ a ≠ .enter) ++ (if .enter ∈ as then [.enter] else []) ∧
    (pushed as).length ≤ KEYBOARD_CHARS

instance InOrder.instDecidable (as : List KeyAction) : Decidable (InOrder as) :=
  inferInstanceAs (Decidable (_ ∧ _))

lemma decode_append (d : Decoder) (bs bs' : List UInt8) :
    decode d (bs ++ bs') = ((decode (decode d bs).1 bs').1, (decode d bs).2 ++ (decode (decode d bs).1 bs').2) := by
  induction bs generalizing d with
  | nil => rfl
  | cons b bs ih =>
    simp only [cons_append, decode]
    rw [ih]

@[simp] lemma pushed_nil : pushed [] = [] := rfl

@[simp] lemma pushed_cons (a : KeyAction) (as : List KeyAction) : pushed (a :: as) = a.bytes ++ pushed as := by
  simp [pushed]

@[simp] lemma pushed_append (as as' : List KeyAction) : pushed (as ++ as') = pushed as ++ pushed as' := by
  simp [pushed]

/-! #### What a poll collects -/

lemma keyboardPushBytes_fits {bytes : List UInt8}
    (h : k.chars.length + bytes.length ≤ KEYBOARD_CHARS) :
    keyboardPushBytes k bytes = { k with chars := k.chars ++ bytes } := by
  unfold keyboardPushBytes
  induction bytes generalizing k with
  | nil => simp
  | cons c bytes ih =>
    rw [length_cons] at h
    have hpush : keyboardPushChar k c = { k with chars := k.chars ++ [c] } := by
      unfold keyboardPushChar
      rw [if_pos (by omega)]
    rw [foldl_cons, hpush, ih]
    · simp
    · simp only [length_append, length_singleton]
      omega

/-- The characters in order, and whether Enter and Backspace were among the keys. -/
lemma foldl_apply {as : List KeyAction} (h : k.chars.length + (pushed as).length ≤ KEYBOARD_CHARS) :
    as.foldl KeyAction.apply k = ⟨k.chars ++ pushed as, k.enterPressed || decide (.enter ∈ as),
      k.backspacePressed || decide (.backspace ∈ as)⟩ := by
  induction as generalizing k with
  | nil => simp
  | cons a as ih =>
    rw [pushed_cons, length_append] at h
    cases a with
    | push bytes =>
      have hb : (KeyAction.push bytes).bytes = bytes := rfl
      rw [hb] at h
      have happly : KeyAction.apply k (.push bytes) = { k with chars := k.chars ++ bytes } :=
        keyboardPushBytes_fits (by omega)
      rw [foldl_cons, happly, ih]
      · simp [hb]
      · simp only [length_append]
        omega
    | enter =>
      rw [foldl_cons, ih]
      · simp [KeyAction.apply, KeyAction.bytes]
      · simp only [KeyAction.apply]
        omega
    | backspace =>
      rw [foldl_cons, ih]
      · simp [KeyAction.apply, KeyAction.bytes]
      · simp only [KeyAction.apply]
        omega

/-! #### What the terminal makes of it -/

lemma wake_typed (s : Terminal) :
    s.processWakeTtyReader.typed = s.typed ∧ (s.Cooked → s.processWakeTtyReader.Cooked) := by
  unfold Terminal.processWakeTtyReader Terminal.typed Terminal.Cooked
  dsimp only
  split
  · exact ⟨rfl, id⟩
  · cases s.blocked s.tty.waiterPid with
    | none => exact ⟨rfl, id⟩
    | some count =>
      obtain ⟨hi, ha, hr, -⟩ := ttyFdRead_keeps { s.tty with waiterPid := 0 } count
      simp only [Terminal.deliver]
      rw [hi, ha, hr]
      exact ⟨rfl, id⟩

lemma ttyHandleKeyboard_typed {s : Terminal} (hs : s.Cooked) (hk : 3 ∉ k.chars)
    (jobs : List Nat) : (ttyHandleKeyboard s k jobs).Cooked ∧ (ttyHandleKeyboard s k jobs).typed =
      ((if k.backspacePressed then [KeyAction.backspace] else []) ++ [KeyAction.push k.chars] ++
        (if k.enterPressed then [KeyAction.enter] else [])).foldl Typed.key s.typed := by
  have hmode : ¬ (s.tty.ansiMode || s.tty.rawInputMode) = true := by rw [hs]; decide
  unfold ttyHandleKeyboard
  rw [if_neg hk, if_neg hmode]
  unfold typedLine
  cases k.backspacePressed <;> cases k.enterPressed
  · exact ⟨hs, rfl⟩
  · obtain ⟨ht, hc⟩ := wake_typed { s with
      tty := { s.tty with
        cookedLine := k.chars.foldl typeByte s.tty.input, lineReady := true, input := [] },
      committed := s.committed ++ [k.chars.foldl typeByte s.tty.input] }
    exact ⟨hc hs, ht⟩
  · exact ⟨hs, rfl⟩
  · obtain ⟨ht, hc⟩ := wake_typed { s with
      tty := { s.tty with
        cookedLine := k.chars.foldl typeByte s.tty.input.dropLast, lineReady := true, input := [] },
      committed := s.committed ++ [k.chars.foldl typeByte s.tty.input.dropLast] }
    exact ⟨hc hs, ht⟩

/-! #### One key after another -/

lemma foldl_key_keys (t : Typed) (as : List KeyAction) : (keys as).foldl Typed.key t = as.foldl Typed.key t := by
  unfold keys
  induction as generalizing t with
  | nil => rfl
  | cons a as ih =>
    by_cases ha : a = .push []
    · subst ha
      rw [filter_cons_of_neg (by decide), ih, foldl_cons]
      rfl
    · rw [filter_cons_of_pos (by simpa using ha), foldl_cons, foldl_cons, ih]

lemma foldl_key_pushes {as : List KeyAction} (h : ∀ a ∈ as, a ≠ .backspace ∧ a ≠ .enter) (t : Typed) :
    as.foldl Typed.key t = t.key (.push (pushed as)) := by
  induction as generalizing t with
  | nil => rfl
  | cons a as ih =>
    rw [foldl_cons, ih (fun a' h' => h a' (mem_cons_of_mem _ h'))]
    cases a with
    | push bytes =>
      simp only [Typed.key, pushed_cons, foldl_append, KeyAction.bytes]
    | enter => exact absurd rfl (h _ mem_cons_self).2
    | backspace => exact absurd rfl (h _ mem_cons_self).1

lemma pushed_filter (as : List KeyAction) :
    pushed ((keys as).filter fun a => a ≠ .backspace ∧ a ≠ .enter) = pushed as := by
  unfold keys
  induction as with
  | nil => rfl
  | cons a as ih =>
    rw [pushed_cons a as, ← ih]
    cases a with
    | push bytes =>
      by_cases hb : bytes = []
      · subst hb
        rfl
      · rw [filter_cons_of_pos (by simpa using hb), filter_cons_of_pos (by simp), pushed_cons]
    | enter => rfl
    | backspace => rfl

lemma poll_typed {s : Terminal} (hs : s.Cooked) {batch : List UInt8} (jobs : List Nat)
    (hc : 3 ∉ pushed (decode d batch).2) (ho : InOrder (decode d batch).2) :
    (Console.poll jobs (d, s) batch).1 = (decode d batch).1 ∧ (Console.poll jobs (d, s) batch).2.Cooked ∧
    (Console.poll jobs (d, s) batch).2.typed = (decode d batch).2.foldl Typed.key s.typed := by
  obtain ⟨horder, hfit⟩ := ho
  have hk : (inputPoll d batch).2 = ⟨pushed (decode d batch).2, decide (.enter ∈ (decode d batch).2),
      decide (.backspace ∈ (decode d batch).2)⟩ := by
    unfold inputPoll
    dsimp only
    rw [foldl_apply (by simpa using hfit)]
    simp only [nil_append, Bool.false_or]
  obtain ⟨hcooked, htyped⟩ := ttyHandleKeyboard_typed hs (k := (inputPoll d batch).2) (by rw [hk]; exact hc) jobs
  refine ⟨rfl, hcooked, ?_⟩
  have hpushes (t : Typed) : ((keys (decode d batch).2).filter fun a => a ≠ .backspace ∧ a ≠ .enter).foldl
      Typed.key t = t.key (.push (pushed (decode d batch).2)) := by
    rw [foldl_key_pushes (fun a ha => by simpa using (mem_filter.mp ha).2), pushed_filter]
  rw [← foldl_key_keys, horder]
  refine htyped.trans ?_
  rw [hk]
  simp only [foldl_append, decide_eq_true_eq, foldl_cons, foldl_nil]
  rw [hpushes]

lemma run_poll_typed {s : Terminal} (hs : s.Cooked) (jobs : List Nat) {split : List (List UInt8)}
    (hc : 3 ∉ pushed (decode d split.flatten).2)
    (ho : Along (Console.poll jobs) (fun s batch => InOrder (decode s.1 batch).2) (d, s) split) :
    (run (Console.poll jobs) (d, s) split).2.typed = (decode d split.flatten).2.foldl Typed.key s.typed := by
  induction split generalizing d s with
  | nil => rfl
  | cons batch split ih =>
    rw [flatten_cons, decode_append] at hc ⊢
    simp only [pushed_append, mem_append, not_or] at hc
    obtain ⟨hdec, hcooked, htyped⟩ := poll_typed hs jobs hc.1 ho.1
    have hstate : Console.poll jobs (d, s) batch =
        ((decode d batch).1, (Console.poll jobs (d, s) batch).2) := Prod.ext hdec rfl
    have hrest := ho.2
    rw [run_cons, hstate, ih hcooked hc.2 hrest, htyped, foldl_append]

lemma decodeByte_fits (d : Decoder) (value : UInt8) : (decodeByte d value).2.bytes.length ≤ 4 := by
  have hext : (extendedBytes value).length ≤ 4 := by
    unfold extendedBytes
    split <;> decide
  have hchar : ∀ c, (pushChar c).bytes.length ≤ 4 := by
    intro c
    unfold pushChar KeyAction.bytes
    dsimp only
    split
    · exact (by decide : 1 ≤ 4)
    · exact Nat.zero_le 4
  have hkey : ∀ d, (decodeKey d value).2.bytes.length ≤ 4 := by
    intro d
    unfold decodeKey
    repeat' split
    all_goals first | exact hext | exact hchar _ | exact Nat.zero_le 4 | exact (by decide : 1 ≤ 4)
  unfold decodeByte
  repeat' split
  all_goals first | exact hkey _ | exact Nat.zero_le 4

lemma inOrder_singleton {a : KeyAction} (h : a.bytes.length ≤ KEYBOARD_CHARS) : InOrder [a] := by
  refine ⟨?_, ?_⟩
  · cases a with
    | push bytes =>
      by_cases hb : bytes = []
      · subst hb
        decide
      · simp [keys, hb]
    | enter => decide
    | backspace => decide
  · rw [pushed_cons, pushed_nil, append_nil]
    exact h

lemma singles_inOrder (jobs : List Nat) (s : Console) (bytes : List UInt8) :
    Along (Console.poll jobs) (fun s batch => InOrder (decode s.1 batch).2) s (bytes.map fun b => [b]) := by
  induction bytes generalizing s with
  | nil => trivial
  | cons b bytes ih =>
    have hfit : (decodeByte s.1 b).2.bytes.length ≤ KEYBOARD_CHARS := le_trans (decodeByte_fits s.1 b) (by decide)
    exact ⟨inOrder_singleton hfit, ih _⟩

/-- How the scan codes fall on polls does not matter to what is typed, as long as each poll keeps its characters in
order. Source: `input_poll`; `kernel/src/tty.c` `tty_handle_keyboard` -/
theorem split_does_not_matter (jobs : List Nat) (d : Decoder) (s : Terminal) (hs : s.Cooked) (bytes : List UInt8)
    (hc : 3 ∉ pushed (decode d bytes).2) (split split' : List (List UInt8))
    (hsplit : split.flatten = bytes) (hsplit' : split'.flatten = bytes)
    (ho : Along (Console.poll jobs) (fun s batch => InOrder (decode s.1 batch).2) (d, s) split)
    (ho' : Along (Console.poll jobs) (fun s batch => InOrder (decode s.1 batch).2) (d, s) split') :
    (run (Console.poll jobs) (d, s) split).2.typed = (run (Console.poll jobs) (d, s) split').2.typed ∧
    (run (Console.poll jobs) (d, s) split).2.typed =
      (run (Console.poll jobs) (d, s) (bytes.map fun b => [b])).2.typed := by
  have hsingles : (bytes.map fun b => [b]).flatten = bytes := by
    rw [← flatMap_def, flatMap_singleton']
  have h := run_poll_typed hs jobs (by rw [hsplit]; exact hc) ho
  have h' := run_poll_typed hs jobs (by rw [hsplit']; exact hc) ho'
  have h1 := run_poll_typed hs jobs (by rw [hsingles]; exact hc) (singles_inOrder jobs (d, s) bytes)
  rw [hsplit] at h
  rw [hsplit'] at h'
  rw [hsingles] at h1
  exact ⟨h.trans h'.symm, h.trans h1.symm⟩

theorem split_does_not_matter_line :
    (run (Console.poll []) (inputInit, Terminal.boot) [[0x1E, 0x30, 0x1C]]).2.typed = ([[97, 98]], []) ∧
    (run (Console.poll []) (inputInit, Terminal.boot) [[0x1E, 0x30, 0x1C]]).2.typed =
      (run (Console.poll []) (inputInit, Terminal.boot) [[0x1E], [0x30, 0x1C]]).2.typed :=
  ⟨by decide, (split_does_not_matter [] inputInit Terminal.boot rfl [0x1E, 0x30, 0x1C] (by decide)
    [[0x1E, 0x30, 0x1C]] [[0x1E], [0x30, 0x1C]] rfl rfl (by decide) (by decide)).1⟩

/-- A letter after Enter in the same poll is added to the line before it. -/
theorem split_matters : 3 ∉ pushed (decode inputInit [0x1E, 0x1C, 0x30]).2 ∧
    (run (Console.poll []) (inputInit, Terminal.boot) [[0x1E, 0x1C, 0x30]]).2.typed = ([[97, 98]], []) ∧
    (run (Console.poll []) (inputInit, Terminal.boot) [[0x1E], [0x1C], [0x30]]).2.typed = ([[97]], [98]) := by
  decide

end VibeOS
