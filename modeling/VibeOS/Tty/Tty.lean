import VibeOS.Lib.Run

/-!
# Terminals and their readers

The input side of `tty.c` with the processes that read one terminal: the line being typed, the line that Enter
committed, the bytes a reader can take, and the one process registered to be woken. What is drawn is left out.

A reader that finds nothing is suspended, with the number of bytes it wants; `blocked` has them. `delivered`
and `committed` record what readers got and what Enter was pressed on, and no definition reads them.

Other names are those of `kernel/src/tty.c`.
-/

namespace VibeOS

abbrev TTY_INPUT_CAPACITY : Nat := 96

/-- The buffers are lists of as many bytes as their lengths say.
Source: `kernel/include/tty.h` `struct tty` -/
structure Tty where
  input : List UInt8
  cookedLine : List UInt8
  lineReady : Bool
  rawInput : List UInt8
  waiterPid : Nat
  ansiMode : Bool
  rawInputMode : Bool
deriving DecidableEq

def ttyInit : Tty := ⟨[], [], false, [], 0, false, false⟩

/-- A terminal, the processes suspended in a read of it, and a record of its traffic. -/
structure Terminal where
  tty : Tty
  blocked : Nat → Option Nat
  delivered : List UInt8
  committed : List (List UInt8)

def Terminal.boot : Terminal := ⟨ttyInit, fun _ => none, [], []⟩

/-! ### Reading -/

/-- Room for one byte is kept. -/
def ttyQueueRawInput (t : Tty) (data : List UInt8) : Tty :=
  { t with rawInput := t.rawInput ++ data.take (TTY_INPUT_CAPACITY - 1 - t.rawInput.length) }

/-- A committed line becomes bytes to read, with a newline.
Source: `tty_fd_read` -/
def drainLine (t : Tty) : Tty :=
  { t with
    rawInput := t.cookedLine.take (TTY_INPUT_CAPACITY - 1) ++ [10]
    lineReady := false
    cookedLine := []
    waiterPid := 0 }

/-- Source: `tty_fd_read`, `tty_raw_input_shift_left` -/
def ttyFdRead (t : Tty) (count : Nat) : List UInt8 × Tty :=
  if count = 0 then ([], t)
  else if t.rawInput ≠ [] then (t.rawInput.take count, { t with rawInput := t.rawInput.drop count })
  else if !t.lineReady then ([], t)
  else
    let t := drainLine t
    (t.rawInput.take count, { t with rawInput := t.rawInput.drop count })

def Terminal.deliver (s : Terminal) (count : Nat) : Terminal :=
  let r := ttyFdRead s.tty count
  { s with tty := r.2, delivered := s.delivered ++ r.1 }

def Tty.hasInput (t : Tty) : Bool := t.lineReady || !t.rawInput.isEmpty

/-- Source: `kernel/src/process.c` `process_try_blocking_tty_read`, `SYS_READ` -/
def Terminal.sysRead (s : Terminal) (pid count : Nat) : Terminal :=
  -- a suspended process makes no calls
  if (s.blocked pid).isSome then s
  else if s.tty.hasInput then s.deliver count
  else { s with
    blocked := Function.update s.blocked pid (some count)
    tty := { s.tty with waiterPid := pid } }

/-- Source: `kernel/src/process.c` -/
def Terminal.processWakeTtyReader (s : Terminal) : Terminal :=
  if s.tty.waiterPid = 0 then s
  else
    let pid := s.tty.waiterPid
    let s := { s with tty := { s.tty with waiterPid := 0 } }
    match s.blocked pid with
    | none => s
    | some count => { s.deliver count with blocked := Function.update s.blocked pid none }

/-! ### Input -/

/-- Source: `kernel/include/input.h` `struct keyboard_state` -/
structure KeyboardState where
  chars : List UInt8
  enterPressed : Bool
  backspacePressed : Bool

/-- One more byte of a line, if there is room. -/
def typeByte (line : List UInt8) (c : UInt8) : List UInt8 :=
  if line.length + 1 < TTY_INPUT_CAPACITY then line ++ [c] else line

/-- The line after a Backspace, if it was pressed, and the bytes of an event. -/
def typedLine (line : List UInt8) (k : KeyboardState) : List UInt8 :=
  k.chars.foldl typeByte (if k.backspacePressed then line.dropLast else line)

/-- Enter: the line replaces whatever line is there. -/
def commitLine (s : Terminal) : Terminal :=
  Terminal.processWakeTtyReader { s with
    tty := { s.tty with cookedLine := s.tty.input, lineReady := true, input := [] }
    committed := s.committed ++ [s.tty.input] }

def rawBytes (k : KeyboardState) : List UInt8 :=
  (((if k.backspacePressed then [8] else []) ++ k.chars).take 32 ++ (if k.enterPressed then [13] else [])).take 32

/-- A process or thread dies, and its registration goes with it.
Source: `kernel/src/process.c` `process_kill`, `process_kill_sibling_threads`,
`process_clear_pending_tty_wait` -/
def Terminal.processKill (s : Terminal) (pid : Nat) : Terminal :=
  if (s.blocked pid).isSome then { s with
    blocked := Function.update s.blocked pid none
    tty := { s.tty with waiterPid := if s.tty.waiterPid = pid then 0 else s.tty.waiterPid } }
  else s

/-- The check of the stack canaries ends a process by its state alone.
Source: `kernel/src/process.c` `kstack_canary_check` -/
def Terminal.stackOverflow (s : Terminal) (pid : Nat) : Terminal :=
  { s with blocked := Function.update s.blocked pid none }

/-- Ctrl+C kills what the shells of this terminal wait for; `jobs` are their processes.
Source: `kernel/src/process.c` -/
def Terminal.processInterruptTerminal (s : Terminal) (jobs : List Nat) : Terminal :=
  jobs.foldl Terminal.processKill s

def ttyHandleKeyboard (s : Terminal) (k : KeyboardState) (jobs : List Nat) : Terminal :=
  if 3 ∈ k.chars then s.processInterruptTerminal jobs
  else if s.tty.ansiMode || s.tty.rawInputMode then
    if rawBytes k = [] then s
    else Terminal.processWakeTtyReader { s with tty := ttyQueueRawInput s.tty (rawBytes k) }
  else
    let s := { s with tty := { s.tty with input := typedLine s.tty.input k } }
    if k.enterPressed then commitLine s else s

/-- One byte from the serial line; the loop of the source takes them one after another.
Source: `tty_handle_serial_input` -/
def ttyHandleSerialByte (s : Terminal) (c : UInt8) (jobs : List Nat) : Terminal :=
  if c = 3 then s.processInterruptTerminal jobs
  else if s.tty.ansiMode || s.tty.rawInputMode then
    Terminal.processWakeTtyReader { s with tty := ttyQueueRawInput s.tty [c] }
  else if c = 0x7f ∨ c = 8 then { s with tty := { s.tty with input := s.tty.input.dropLast } }
  else if c = 13 ∨ c = 10 then commitLine s
  else if (0x20 ≤ c ∧ c ≤ 0x7e) ∨ c = 9 then { s with tty := { s.tty with input := typeByte s.tty.input c } }
  else s

/-! ### Control -/

/-- The mode of the input survives. -/
def ttyReset (t : Tty) : Tty := { ttyInit with rawInputMode := t.rawInputMode }

/-- Output with an escape switches to the screen mode. -/
def ttyFdWrite (t : Tty) (text : List UInt8) : Tty :=
  if 0x1b ∈ text then { t with ansiMode := true } else t

/-- What can happen to a terminal: its readers, its keys, its modes and the ends of processes. -/
inductive TtyEvent where
  | read (pid count : Nat)
  | keyboard (k : KeyboardState) (jobs : List Nat)
  | serial (c : UInt8) (jobs : List Nat)
  | write (text : List UInt8)
  | setRaw (on : Bool)
  | clear
  | kill (pid : Nat)
  | stackOverflow (pid : Nat)

def Terminal.step (s : Terminal) : TtyEvent → Terminal
  | .read pid count => s.sysRead pid count
  | .keyboard k jobs => ttyHandleKeyboard s k jobs
  | .serial c jobs => ttyHandleSerialByte s c jobs
  | .write text => { s with tty := ttyFdWrite s.tty text }
  | .setRaw on => { s with tty := { s.tty with rawInputMode := on, input := [] } }
  | .clear => { s with tty := ttyReset s.tty }
  | .kill pid => s.processKill pid
  | .stackOverflow pid => s.stackOverflow pid

end VibeOS
