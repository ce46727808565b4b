import VibeOS.Tty.Tty

/-!
# Processes suspended at a terminal

A terminal has room for one process to wake. `Registered` says that a suspended process is that one, and that it
has nothing to read; every input that gives it something wakes it (`wakeTtyReader_wakes`).

`run_readers` is the result for runs in which no second process is suspended and the terminal is not cleared
under one that is. `readers_fails` has two processes reading.
-/

namespace VibeOS

open Option

/-- A suspended process is the one that is registered, and there is nothing to read. -/
def Registered (s : Terminal) : Prop :=
  ∀ p, (s.blocked p).isSome → p ≠ 0 ∧ s.tty.waiterPid = p ∧ s.tty.hasInput = false

variable {s : Terminal}

lemma Registered.of_none (h : ∀ p, s.blocked p = none) : Registered s := by
  intro p hp
  rw [h p] at hp
  cases hp

lemma wakeTtyReader_wakes (h : ∀ p, (s.blocked p).isSome → p ≠ 0 ∧ s.tty.waiterPid = p) (q : Nat) :
    s.processWakeTtyReader.blocked q = none := by
  have hother : ∀ q, q ≠ s.tty.waiterPid → s.blocked q = none := by
    intro q hq
    by_contra hne
    exact hq (h q (isSome_iff_ne_none.mpr hne)).2.symm
  unfold Terminal.processWakeTtyReader
  dsimp only
  by_cases hzero : s.tty.waiterPid = 0
  · rw [if_pos hzero]
    by_contra hne
    obtain ⟨hq, hw⟩ := h q (isSome_iff_ne_none.mpr hne)
    exact hq (hw.symm.trans hzero)
  rw [if_neg hzero]
  cases hb : s.blocked s.tty.waiterPid with
  | none =>
    by_cases hq : q = s.tty.waiterPid
    · rw [hq, hb]
    · exact hother q hq
  | some count =>
    dsimp only [Terminal.deliver]
    by_cases hq : q = s.tty.waiterPid
    · rw [hq, Function.update_self]
    · rw [Function.update_of_ne hq]
      exact hother q hq

/-- What is typed or queued does not change who is registered, so the wake that follows leaves nobody suspended. -/
lemma Registered.wake {s' : Terminal} (h : Registered s) (hb : s'.blocked = s.blocked)
    (hw : s'.tty.waiterPid = s.tty.waiterPid) (q : Nat) : s'.processWakeTtyReader.blocked q = none := by
  refine wakeTtyReader_wakes (fun p hp => ?_) q
  rw [hb] at hp
  rw [hw]
  exact ⟨(h p hp).1, (h p hp).2.1⟩

lemma Registered.processKill (h : Registered s) (pid : Nat) : Registered (s.processKill pid) := by
  unfold Terminal.processKill
  split
  · next hpid =>
    -- the process that dies was the only one
    refine .of_none fun q => ?_
    dsimp only
    by_cases hq : q = pid
    · rw [hq, Function.update_self]
    · rw [Function.update_of_ne hq]
      by_contra hne
      exact hq ((h q (isSome_iff_ne_none.mpr hne)).2.1.symm.trans (h pid hpid).2.1)
  · exact h

lemma Registered.interrupt (h : Registered s) (jobs : List Nat) : Registered (s.processInterruptTerminal jobs) := by
  induction jobs generalizing s with
  | nil => exact h
  | cons pid jobs ih => exact ih (h.processKill pid)

lemma Registered.congr (h : Registered s) {t : Tty} (hw : t.waiterPid = s.tty.waiterPid)
    (hi : t.hasInput = s.tty.hasInput) : Registered { s with tty := t } := by
  intro p hp
  obtain ⟨hp0, hwait, hinput⟩ := h p hp
  exact ⟨hp0, hw.trans hwait, hi.trans hinput⟩

/-- Every key event that gives a reader something wakes it, in either mode. -/
lemma Registered.enter (h : Registered s) {k : KeyboardState} (hc : 3 ∉ k.chars)
    (hk : k.enterPressed = true) (jobs : List Nat) (q : Nat) : (ttyHandleKeyboard s k jobs).blocked q = none := by
  unfold ttyHandleKeyboard
  rw [if_neg hc]
  split
  · rw [if_neg (by simp [rawBytes, hk])]
    refine h.wake ?_ ?_ q <;> rfl
  · exact h.wake (by rfl) (by rfl) q

lemma Registered.keyboard (h : Registered s) (k : KeyboardState) (jobs : List Nat) :
    Registered (ttyHandleKeyboard s k jobs) := by
  by_cases hc : 3 ∈ k.chars
  · unfold ttyHandleKeyboard
    rw [if_pos hc]
    exact h.interrupt jobs
  by_cases hk : k.enterPressed = true
  · exact .of_none (h.enter hc hk jobs)
  unfold ttyHandleKeyboard
  rw [if_neg hc]
  split
  · split
    · exact h
    · exact .of_none fun q => h.wake (by rfl) (by rfl) q
  · exact h.congr rfl rfl

lemma Registered.serial (h : Registered s) (c : UInt8) (jobs : List Nat) :
    Registered (ttyHandleSerialByte s c jobs) := by
  unfold ttyHandleSerialByte
  split
  · exact h.interrupt jobs
  split
  · exact .of_none fun q => h.wake (by rfl) (by rfl) q
  split
  · exact h.congr rfl rfl
  split
  · exact .of_none fun q => h.wake (by rfl) (by rfl) q
  split
  · exact h.congr rfl rfl
  · exact h

/-! ### Runs -/

/-- A process is suspended, and the terminal cleared, only when the registered process is not suspended itself. -/
def SoleReader (s : Terminal) : TtyEvent → Prop
  | .read pid _ => pid ≠ 0 ∧ (s.blocked pid = none → s.tty.hasInput = false → s.blocked s.tty.waiterPid = none)
  | .clear => s.blocked s.tty.waiterPid = none
  | _ => True

instance instDecidableSoleReader (s : Terminal) : (e : TtyEvent) → Decidable (SoleReader s e)
  | .read _ _ | .clear => by
    unfold SoleReader
    infer_instance
  | .keyboard _ _ | .serial _ _ | .write _ | .setRaw _ | .kill _ | .stackOverflow _ => .isTrue trivial

lemma Registered.nobody (h : Registered s) (hw : s.blocked s.tty.waiterPid = none) (p : Nat) : s.blocked p = none := by
  by_contra hne
  have hp := isSome_iff_ne_none.mpr hne
  rw [(h p hp).2.1] at hw
  exact hne hw

lemma Registered.sysRead (h : Registered s) {pid count : Nat} (hpid : pid ≠ 0)
    (hsole : s.blocked pid = none → s.tty.hasInput = false → s.blocked s.tty.waiterPid = none) :
    Registered (s.sysRead pid count) := by
  unfold Terminal.sysRead
  split
  · exact h
  · next hb =>
    have hb' : s.blocked pid = none := by simpa using hb
    split
    · next hinput =>
      -- a process that is suspended has nothing to read
      refine .of_none fun p => ?_
      by_contra hne
      have := (h p (isSome_iff_ne_none.mpr hne)).2.2
      rw [hinput] at this
      cases this
    · next hinput =>
      have hinput' : s.tty.hasInput = false := by simpa using hinput
      intro p hp
      dsimp only at hp
      by_cases hpp : p = pid
      · exact ⟨hpp ▸ hpid, hpp.symm, hinput'⟩
      · rw [Function.update_of_ne hpp, h.nobody (hsole hb' hinput') p] at hp
        cases hp

lemma step_registered (h : Registered s) {e : TtyEvent} (he : SoleReader s e) : Registered (s.step e) := by
  cases e with
  | read pid count => exact h.sysRead he.1 he.2
  | keyboard k jobs => exact h.keyboard k jobs
  | serial c jobs => exact h.serial c jobs
  | write text =>
    refine h.congr ?_ ?_ <;> unfold ttyFdWrite <;> split <;> rfl
  | setRaw on => exact h.congr rfl rfl
  | clear => exact .of_none (h.nobody he)
  | kill pid => exact h.processKill pid
  | stackOverflow pid =>
    intro p hp
    rw [Terminal.step, Terminal.stackOverflow] at hp ⊢
    dsimp only at hp
    by_cases hpp : p = pid
    · rw [hpp, Function.update_self] at hp
      cases hp
    · rw [Function.update_of_ne hpp] at hp
      exact h p hp

/-- In every run in which a process is suspended, and the terminal cleared, only while the registered process is
not suspended itself: a suspended process is registered, nobody is suspended while there is something to read,
and the next Enter wakes whoever is suspended. -/
theorem run_readers (es : List TtyEvent) (hes : Along Terminal.step SoleReader Terminal.boot es) :
    let s := run Terminal.step Terminal.boot es
    (∀ p, (s.blocked p).isSome → s.tty.waiterPid = p) ∧
    (s.tty.hasInput = true → ∀ p, s.blocked p = none) ∧
    ∀ p, (s.blocked p).isSome → ∀ k jobs, 3 ∉ k.chars → k.enterPressed = true →
      (s.step (.keyboard k jobs)).blocked p = none := by
  intro s
  have h : Registered s :=
    run_invariant (I := Registered) (fun _ _ hi hP => step_registered hi hP)
      (.of_none fun _ => rfl) hes
  refine ⟨fun p hp => (h p hp).2.1, fun hinput p => ?_, fun p _ k jobs hc hk => h.enter hc hk jobs p⟩
  by_contra hne
  have := (h p (isSome_iff_ne_none.mpr hne)).2.2
  rw [hinput] at this
  cases this

theorem run_readers_killed : (run Terminal.step Terminal.boot [.read 1 80, .kill 1, .read 2 80]).tty.waiterPid = 2 :=
  (run_readers [.read 1 80, .kill 1, .read 2 80] (by decide)).1 2 (by decide)

/-- Two processes read. The line wakes the second, and the next line nobody: the first is suspended with a line
to read and no registration. -/
theorem readers_fails :
    let s := run Terminal.step Terminal.boot [.read 1 80, .read 2 80, .keyboard ⟨[97], true, false⟩ [],
      .keyboard ⟨[98], true, false⟩ []]
    (s.blocked 1).isSome ∧ s.tty.waiterPid = 0 ∧ s.tty.hasInput = true := by
  decide

end VibeOS
