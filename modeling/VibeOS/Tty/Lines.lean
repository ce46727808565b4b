import VibeOS.Tty.Tty

/-!
# Lines typed at a terminal

What readers have got, followed by what they can still get, is what Enter was pressed on: `Conserved`. Reading
moves bytes from the second to the first (`ttyFdRead_conserves`), and Enter adds a line to the second, unless a
line is there that nobody has read.

`run_lines` is the result for a terminal in cooked mode. `lines_fails` is a line typed ahead.
-/

namespace VibeOS

open List

def Tty.undelivered (t : Tty) : List UInt8 :=
  t.rawInput ++ if t.lineReady then t.cookedLine ++ [10] else []

/-- The lines one after another, each with its newline. -/
def asBytes (lines : List (List UInt8)) : List UInt8 := (lines.map (· ++ [10])).flatten

/-- Nothing typed is lost, and all buffers are within their capacity. -/
structure Conserved (s : Terminal) : Prop where
  bytes : s.delivered ++ s.tty.undelivered = asBytes s.committed
  input : s.tty.input.length < TTY_INPUT_CAPACITY
  line : s.tty.cookedLine.length < TTY_INPUT_CAPACITY
  lines : ∀ l ∈ s.committed, l.length < TTY_INPUT_CAPACITY
  cooked : (s.tty.ansiMode || s.tty.rawInputMode) = false

/-! ### Reading -/

lemma ttyFdRead_conserves {t : Tty} (h : t.cookedLine.length < TTY_INPUT_CAPACITY) (count : Nat) :
    (ttyFdRead t count).1 ++ (ttyFdRead t count).2.undelivered = t.undelivered := by
  unfold ttyFdRead
  by_cases hcount : count = 0
  · rw [if_pos hcount]
    rfl
  rw [if_neg hcount]
  by_cases hraw : t.rawInput ≠ []
  · rw [if_pos hraw]
    simp only [Tty.undelivered]
    rw [← append_assoc, take_append_drop]
  rw [if_neg hraw]
  rw [not_not] at hraw
  cases hready : t.lineReady with
  | false =>
    rfl
  | true =>
    have htake : t.cookedLine.take (TTY_INPUT_CAPACITY - 1) = t.cookedLine :=
      take_of_length_le (by unfold TTY_INPUT_CAPACITY at *; omega)
    simp only [Bool.not_true, Bool.false_eq_true, if_false, Tty.undelivered, drainLine, htake, hraw, hready,
      if_true, append_nil, nil_append]
    exact take_append_drop _ _

/-- A read changes neither the line being typed nor the modes, and no line grows. -/
lemma ttyFdRead_keeps (t : Tty) (count : Nat) :
    (ttyFdRead t count).2.input = t.input ∧ (ttyFdRead t count).2.ansiMode = t.ansiMode ∧
      (ttyFdRead t count).2.rawInputMode = t.rawInputMode ∧
      (ttyFdRead t count).2.cookedLine.length ≤ t.cookedLine.length := by
  unfold ttyFdRead drainLine
  split_ifs
  · exact ⟨rfl, rfl, rfl, le_rfl⟩
  · exact ⟨rfl, rfl, rfl, le_rfl⟩
  · exact ⟨rfl, rfl, rfl, le_rfl⟩
  · exact ⟨rfl, rfl, rfl, Nat.zero_le _⟩

variable {s : Terminal}

lemma Conserved.deliver (h : Conserved s) (count : Nat) : Conserved (s.deliver count) := by
  obtain ⟨hi, ha, hr, hl⟩ := ttyFdRead_keeps s.tty count
  refine ⟨?_, by rw [Terminal.deliver, hi]; exact h.input, lt_of_le_of_lt hl h.line, h.lines, ?_⟩
  · rw [Terminal.deliver]
    rw [append_assoc, ttyFdRead_conserves h.line]
    exact h.bytes
  · rw [Terminal.deliver]
    rw [ha, hr]
    exact h.cooked

lemma Conserved.congr (h : Conserved s) (blocked : Nat → Option Nat) (pid : Nat) :
    Conserved { s with blocked := blocked, tty := { s.tty with waiterPid := pid } } :=
  ⟨h.bytes, h.input, h.line, h.lines, h.cooked⟩

lemma Conserved.wake (h : Conserved s) : Conserved s.processWakeTtyReader := by
  have h0 : Conserved { s with tty := { s.tty with waiterPid := 0 } } := h.congr s.blocked 0
  unfold Terminal.processWakeTtyReader
  dsimp only
  split
  · exact h
  · cases s.blocked s.tty.waiterPid with
    | none => exact h0
    | some count =>
      have h1 := h0.deliver count
      exact ⟨h1.bytes, h1.input, h1.line, h1.lines, h1.cooked⟩

/-! ### Typing -/

lemma length_typeByte {line : List UInt8} (h : line.length < TTY_INPUT_CAPACITY) (c : UInt8) :
    (typeByte line c).length < TTY_INPUT_CAPACITY := by
  unfold typeByte
  split
  · next hroom =>
    rw [length_append, length_singleton]
    exact hroom
  · exact h

lemma length_typedLine {line : List UInt8} (h : line.length < TTY_INPUT_CAPACITY) (k : KeyboardState) :
    (typedLine line k).length < TTY_INPUT_CAPACITY := by
  refine foldlRecOn (motive := fun line : List UInt8 => line.length < TTY_INPUT_CAPACITY) k.chars typeByte ?_
    fun _ h c _ => length_typeByte h c
  split
  · exact lt_of_le_of_lt (by rw [length_dropLast]; omega) h
  · exact h

lemma Conserved.typed (h : Conserved s) {line : List UInt8} (hlen : line.length < TTY_INPUT_CAPACITY) :
    Conserved { s with tty := { s.tty with input := line } } :=
  ⟨h.bytes, hlen, h.line, h.lines, h.cooked⟩

lemma Conserved.commit (h : Conserved s) (hready : s.tty.lineReady = false) : Conserved (commitLine s) := by
  refine Conserved.wake ⟨?_, by simp [TTY_INPUT_CAPACITY], h.input, ?_, h.cooked⟩
  · have hb := h.bytes
    simp only [Tty.undelivered, hready, Bool.false_eq_true, if_false, append_nil] at hb
    simp only [Tty.undelivered, if_true, asBytes, map_append, flatten_append, map_cons,
      map_nil, flatten_cons, flatten_nil, append_nil]
    rw [← append_assoc, hb]
    rfl
  · intro l hl
    rw [mem_append, mem_singleton] at hl
    rcases hl with hl | rfl
    · exact h.lines l hl
    · exact h.input

lemma Conserved.processKill (h : Conserved s) (pid : Nat) : Conserved (s.processKill pid) := by
  unfold Terminal.processKill
  split
  · exact h.congr _ _
  · exact h

/-! ### Runs -/

/-- The terminal stays in cooked mode, nobody presses Ctrl+C, and Enter is pressed when no line is waiting to be
read. -/
def LineTaken (s : Terminal) : TtyEvent → Prop
  | .keyboard k _ => 3 ∉ k.chars ∧ (k.enterPressed = true → s.tty.lineReady = false)
  | .serial c _ => c ≠ 3 ∧ (c = 13 ∨ c = 10 → s.tty.lineReady = false)
  | .write text => 0x1b ∉ text
  | .setRaw on => on = false
  | .clear => False
  | _ => True

instance instDecidableLineTaken (s : Terminal) (e : TtyEvent) : Decidable (LineTaken s e) := by
  cases e <;> unfold LineTaken <;> infer_instance

lemma conserved_boot : Conserved Terminal.boot :=
  ⟨rfl, by decide, by decide, fun _ hl => (by cases hl), rfl⟩

lemma Conserved.sysRead (h : Conserved s) (pid count : Nat) : Conserved (s.sysRead pid count) := by
  unfold Terminal.sysRead
  split
  · exact h
  split
  · exact h.deliver count
  · exact h.congr _ _

lemma step_conserved (h : Conserved s) {e : TtyEvent} (he : LineTaken s e) : Conserved (s.step e) := by
  cases e with
  | read pid count => exact h.sysRead pid count
  | keyboard k jobs =>
    obtain ⟨hc, henter⟩ := he
    rw [Terminal.step, ttyHandleKeyboard, if_neg hc, h.cooked]
    simp only [Bool.false_eq_true, if_false]
    have htyped := h.typed (length_typedLine h.input k)
    split
    · next hk => exact htyped.commit (henter hk)
    · exact htyped
  | serial c jobs =>
    obtain ⟨hc, henter⟩ := he
    rw [Terminal.step, ttyHandleSerialByte, if_neg hc, h.cooked]
    simp only [Bool.false_eq_true, if_false]
    split
    · exact h.typed (lt_of_le_of_lt (by rw [length_dropLast]; omega) h.input)
    split
    · next hret => exact h.commit (henter hret)
    split
    · exact h.typed (length_typeByte h.input c)
    · exact h
  | write text =>
    have hw : ttyFdWrite s.tty text = s.tty := if_neg he
    rw [Terminal.step, hw]
    exact h
  | setRaw on =>
    cases he
    refine ⟨h.bytes, by simp [Terminal.step, TTY_INPUT_CAPACITY], h.line, h.lines, ?_⟩
    have := h.cooked
    rw [Bool.or_eq_false_iff] at this
    rw [Terminal.step]
    simp only [this.1, Bool.or_self]
  | clear => exact he.elim
  | kill pid => exact h.processKill pid
  | stackOverflow pid => exact ⟨h.bytes, h.input, h.line, h.lines, h.cooked⟩

lemma sysRead_one (h : Conserved s) {pid : Nat} (hpid : s.blocked pid = none) {b : UInt8}
    {rest : List UInt8} (hu : s.tty.undelivered = b :: rest) :
    (s.sysRead pid 1).tty.undelivered = rest ∧ (s.sysRead pid 1).blocked pid = none ∧
      (s.sysRead pid 1).committed = s.committed := by
  have hinput : s.tty.hasInput = true := by
    by_contra hno
    simp only [Tty.hasInput, Bool.or_eq_true, Bool.not_eq_true', not_or, Bool.not_eq_true,
      Bool.not_eq_false, List.isEmpty_iff] at hno
    simp [Tty.undelivered, hno.1, hno.2] at hu
  have hread : s.sysRead pid 1 = s.deliver 1 := by
    rw [Terminal.sysRead, hpid]
    simp [hinput]
  have hone : (ttyFdRead s.tty 1).1.length = 1 := by
    unfold ttyFdRead drainLine
    rw [if_neg one_ne_zero]
    by_cases hraw : s.tty.rawInput ≠ []
    · rw [if_pos hraw, length_take]
      have := length_pos_of_ne_nil hraw
      omega
    · rw [if_neg hraw]
      have hready : s.tty.lineReady = true := by
        simpa [Tty.hasInput, hraw] using hinput
      simp [hready, length_take]
  have hcons := ttyFdRead_conserves h.line 1
  obtain ⟨c, hc⟩ := length_eq_one_iff.mp hone
  rw [hc, hu, singleton_append] at hcons
  rw [hread]
  exact ⟨(List.cons.inj hcons).2, hpid, rfl⟩

lemma run_read_all (h : Conserved s) {pid : Nat} (hpid : s.blocked pid = none) {n : Nat}
    (hn : s.tty.undelivered.length = n) :
    (run Terminal.step s (List.replicate n (.read pid 1))).delivered = asBytes s.committed := by
  induction n generalizing s with
  | zero =>
    have hb := h.bytes
    rw [length_eq_zero_iff.mp hn, append_nil] at hb
    exact hb
  | succ n ih =>
    obtain ⟨b, rest, hu⟩ := exists_cons_of_length_eq_add_one hn
    obtain ⟨hrest, hpid', hcommitted⟩ := sysRead_one h hpid hu
    rw [replicate_succ, run_cons, ← hcommitted]
    refine ih (h.sysRead pid 1) hpid' ?_
    rw [Terminal.step, hrest]
    rw [hu, length_cons] at hn
    omega

/-- In every run at a terminal in cooked mode in which Enter is only pressed when no line is waiting, what the
readers got is the beginning of the lines in the order they were entered, and any process that is not suspended
can read the rest. -/
theorem run_lines (es : List TtyEvent) (hes : Along Terminal.step LineTaken Terminal.boot es) :
    let s := run Terminal.step Terminal.boot es
    s.delivered <+: asBytes s.committed ∧ (∀ l ∈ s.committed, l.length < TTY_INPUT_CAPACITY) ∧
    ∀ pid, s.blocked pid = none →
      (run Terminal.step s (List.replicate s.tty.undelivered.length (.read pid 1))).delivered =
        asBytes s.committed := by
  intro s
  have h : Conserved s :=
    run_invariant (I := Conserved) (fun _ _ hi hP => step_conserved hi hP) conserved_boot hes
  exact ⟨⟨_, h.bytes⟩, h.lines, fun pid hpid => run_read_all h hpid rfl⟩

/-- A suspended reader gets the first line, and another reader part of the second. -/
theorem run_lines_two : (run Terminal.step Terminal.boot [.read 1 80, .keyboard ⟨[97], true, false⟩ [], .serial 98 [],
      .serial 13 [], .read 2 1]).delivered <+: asBytes [[97], [98]] :=
  (run_lines [.read 1 80, .keyboard ⟨[97], true, false⟩ [], .serial 98 [], .serial 13 [], .read 2 1]
    (by decide)).1

/-- The second Enter replaces a line that nobody has read. -/
theorem lines_fails :
    let s := run Terminal.step Terminal.boot [.keyboard ⟨[97], true, false⟩ [],
      .keyboard ⟨[98], true, false⟩ [], .read 1 80]
    s.committed = [[97], [98]] ∧ s.delivered = [98, 10] ∧ ¬ s.delivered <+: asBytes s.committed := by
  decide

end VibeOS
