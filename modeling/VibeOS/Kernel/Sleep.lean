import VibeOS.Kernel.Moves

/-!
# Sleeping processes

`SYS_TIMER_SLEEP` and `SYS_SLEEP_MS` store the tick at which `process_wake_ready` may make the process ready
again. The model adds the timer and the `wake_tick` of every slot to the process table. `asked` is no field
of the source: it is the tick the process asked for, a natural number that does not wrap, and it is only
compared with.

The sum of the current tick and the argument saturates, so a sleep in ticks never ends early. The conversion
of milliseconds is done in 64 bits before that, and there the result may wrap around.
-/

namespace VibeOS

open Function

/-! ### The model -/

/-- The timer, the process table and what the sleeping processes wait for. -/
structure SleepTable where
  table : ProcessTable
  -- `g_timer_ticks`
  ticks : UInt64
  wakeTick : ProcSlot → UInt64
  asked : ProcSlot → Option Nat

/-- `max_u64` of the two calls. -/
def maxU64 : UInt64 := 0xFFFFFFFFFFFFFFFF

def wakeAt (now ticks : UInt64) : UInt64 := if ticks ≥ maxU64 - now then maxU64 else now + ticks

/-- The ticks of a sleep in milliseconds, as `SYS_SLEEP_MS` computes them. -/
def msTicks (hz : UInt32) (ms : UInt64) : UInt64 :=
  let ticks := (ms * hz.toUInt64 + 999) / 1000
  if ticks = 0 then 1 else ticks

/-- The least number of ticks that last at least `ms` milliseconds. -/
def leastTicks (hz : UInt32) (ms : UInt64) : Nat := (ms.toNat * hz.toNat + 999) / 1000

/-- The common end of both calls: `i` is the caller, it sleeps `ticks` ticks and asked for `wanted`. -/
def sleepFor (s : SleepTable) (cpu : Nat) (i : ProcSlot) (frame : Context) (ticks : UInt64)
    (wanted : Nat) : SleepTable :=
  { s with
    table := syscallHandleInterrupt s.table cpu i frame .sleep
    wakeTick := update s.wakeTick i (wakeAt s.ticks ticks)
    asked := update s.asked i (some (s.ticks.toNat + wanted)) }

/-- A system call of a process that has been killed only gives the CPU back. -/
def ifAlive (s : SleepTable) (cpu : Nat) (i : ProcSlot) (frame : Context) (live : SleepTable) : SleepTable :=
  if (s.table.procs i).state = .exited then
    { s with table := syscallHandleInterrupt s.table cpu i frame .sleep }
  else live

/-- Source: `kernel/src/process.c` `syscall_handle_interrupt`, `SYS_TIMER_SLEEP` -/
def sysTimerSleep (s : SleepTable) (cpu : Nat) (i : ProcSlot) (frame : Context) (ticks : UInt64) : SleepTable :=
  ifAlive s cpu i frame (if ticks = 0 then s else sleepFor s cpu i frame ticks ticks.toNat)

/-- Source: `kernel/src/process.c` `syscall_handle_interrupt`, `SYS_SLEEP_MS` -/
def sysSleepMs (hz : UInt32) (s : SleepTable) (cpu : Nat) (i : ProcSlot) (frame : Context) (ms : UInt64) : SleepTable :=
  ifAlive s cpu i frame (sleepFor s cpu i frame (msTicks hz ms) (leastTicks hz ms))

/-- `process_wake_ready(timer_tick_count())`, as the scheduler calls it.
Source: `kernel/src/process.c` `process_wake_ready` -/
def wakeSleepers (s : SleepTable) : SleepTable :=
  let due i := decide (s.wakeTick i ≤ s.ticks)
  { s with
    table := processWakeReady s.table due
    wakeTick := fun i => if (s.table.procs i).state = .sleeping ∧ due i then 0 else s.wakeTick i }

/-- A tick of the timer, its wake-up of sleepers, and the two calls that sleep. -/
inductive SleepEvent where
  | tick
  | wake
  | timerSleep (cpu : Nat) (frame : Context) (ticks : UInt64)
  | sleepMs (cpu : Nat) (frame : Context) (ms : UInt64)

def SleepTable.step (hz : UInt32) (s : SleepTable) : SleepEvent → SleepTable
  | .tick => { s with ticks := s.ticks + 1 }
  | .wake => wakeSleepers s
  | .timerSleep cpu frame ticks =>
    match s.table.runs cpu with
    | some i => sysTimerSleep s cpu i frame ticks
    | none => s
  | .sleepMs cpu frame ms =>
    match s.table.runs cpu with
    | some i => sysSleepMs hz s cpu i frame ms
    | none => s

/-- The millisecond conversion of the call fits in 64 bits. -/
def SleepEvent.Fits (hz : UInt32) (_ : SleepTable) : SleepEvent → Prop
  | .sleepMs _ _ ms => ms.toNat * hz.toNat + 999 < 2 ^ 64
  | _ => True

/-! ### The arithmetic of the calls -/

lemma toNat_maxU64 : maxU64.toNat = 2 ^ 64 - 1 := rfl

lemma toNat_wakeAt (now ticks : UInt64) : (wakeAt now ticks).toNat = min (now.toNat + ticks.toNat) (2 ^ 64 - 1) := by
  have hnow := now.toNat_lt
  have hsub : (maxU64 - now).toNat = 2 ^ 64 - 1 - now.toNat := by
    rw [UInt64.toNat_sub_of_le, toNat_maxU64]
    rw [UInt64.le_iff_toNat_le, toNat_maxU64]
    omega
  rw [wakeAt]
  split_ifs with h
  · rw [ge_iff_le, UInt64.le_iff_toNat_le, hsub] at h
    rw [toNat_maxU64]
    omega
  · rw [ge_iff_le, UInt64.le_iff_toNat_le, hsub] at h
    rw [UInt64.toNat_add]
    omega

lemma leastTicks_le_msTicks {hz : UInt32} {ms : UInt64} (h : ms.toNat * hz.toNat + 999 < 2 ^ 64) :
    leastTicks hz ms ≤ (msTicks hz ms).toNat := by
  have hval : ((ms * hz.toUInt64 + 999) / 1000).toNat = leastTicks hz ms := by
    rw [UInt64.toNat_div, UInt64.toNat_add, UInt64.toNat_mul, UInt32.toNat_toUInt64, leastTicks]
    have h1 : (999 : UInt64).toNat = 999 := rfl
    have h2 : (1000 : UInt64).toNat = 1000 := rfl
    rw [h1, h2, Nat.mod_eq_of_lt (by omega : ms.toNat * hz.toNat < 2 ^ 64), Nat.mod_eq_of_lt h]
  rw [msTicks]
  split_ifs with h0
  · rw [h0] at hval
    rw [← hval]
    exact Nat.zero_le _
  · exact hval.ge

/-! ### The invariant -/

/-- No process is put to sleep. -/
def Rouses (t t' : ProcessTable) : Prop :=
  ∀ i, (t'.procs i).state = .sleeping → (t.procs i).state = .sleeping

lemma rouses_wakeWaiter (t : ProcessTable) (i : ProcSlot) : Rouses t (processWakeWaiter t i) := by
  intro k hk
  rcases wakeWaiter_cases t i with heq | ⟨j, -, heq⟩
  · rwa [heq] at hk
  · rw [heq] at hk
    by_cases hki : k = i
    · subst hki
      simp [processReap] at hk
    · rw [procs_processReap_of_ne hki] at hk
      by_cases hkj : k = j
      · subst hkj
        rw [procs_answerWaiter_self] at hk
        cases hk
      · rwa [procs_answerWaiter_of_ne hkj] at hk

lemma rouses_leave (t : ProcessTable) (cpu : Nat) (i : ProcSlot) : Rouses t (leave t cpu i) := by
  intro k hk
  by_cases hki : k = i
  · subst hki
    rw [leave] at hk
    rwa [ProcessTable.procs_modify_self] at hk
  · rw [leave] at hk
    rwa [ProcessTable.procs_modify_of_ne (h := hki)] at hk

lemma rouses_returnToScheduler (t : ProcessTable) (cpu : Nat) : Rouses t (returnToScheduler t cpu) := by
  rw [returnToScheduler]
  split
  · exact fun _ h => h
  · next i hi =>
    rw [endSlice_eq]
    split_ifs
    · exact fun k hk => rouses_leave (t.setCurrent cpu none) cpu i k (rouses_wakeWaiter _ i k hk)
    · exact rouses_leave (t.setCurrent cpu none) cpu i

lemma sleeping_of_sleep {t : ProcessTable} {cpu : Nat} {i k : ProcSlot} {frame : Context} (hk : k ≠ i)
    (h : ((syscallHandleInterrupt t cpu i frame .sleep).procs k).state = .sleeping) :
    (t.procs k).state = .sleeping := by
  rw [syscallHandleInterrupt] at h
  split_ifs at h
  · exact rouses_returnToScheduler t cpu k h
  · have h := rouses_returnToScheduler _ cpu k h
    rwa [ProcessTable.procs_modify_of_ne (h := hk)] at h

/-- The tick stored for a sleeping process is not before the one it asked for. -/
def SleepInv (s : SleepTable) : Prop :=
  ∀ i a, s.asked i = some a → (s.table.procs i).state = .sleeping → min a (2 ^ 64 - 1) ≤ (s.wakeTick i).toNat

variable {s : SleepTable}

lemma SleepInv.sleepFor (hs : SleepInv s) (cpu : Nat) (i : ProcSlot) (frame : Context)
    {ticks : UInt64} {wanted : Nat} (h : wanted ≤ ticks.toNat) : SleepInv (sleepFor s cpu i frame ticks wanted) := by
  intro k a ha hk
  by_cases hki : k = i
  · subst hki
    have ha : some (s.ticks.toNat + wanted) = some a := by
      rw [← ha]
      exact (update_self k _ s.asked).symm
    obtain rfl := Option.some.inj ha
    have hw : (VibeOS.sleepFor s cpu k frame ticks wanted).wakeTick k = wakeAt s.ticks ticks :=
      update_self k _ s.wakeTick
    rw [hw, toNat_wakeAt]
    omega
  · have ha : s.asked k = some a := by
      rw [← ha]
      exact (update_of_ne hki _ s.asked).symm
    have hw : (VibeOS.sleepFor s cpu i frame ticks wanted).wakeTick k = s.wakeTick k :=
      update_of_ne hki _ s.wakeTick
    rw [hw]
    exact hs k a ha (sleeping_of_sleep hki hk)

lemma SleepInv.ifAlive {live : SleepTable} (hs : SleepInv s) (hlive : SleepInv live) (cpu : Nat)
    (i : ProcSlot) (frame : Context) : SleepInv (ifAlive s cpu i frame live) := by
  rw [VibeOS.ifAlive]
  split_ifs with hx
  · intro k a ha hk
    refine hs k a ha ?_
    rw [syscallHandleInterrupt, if_pos hx] at hk
    exact rouses_returnToScheduler s.table cpu k hk
  · exact hlive

lemma SleepInv.wake (hs : SleepInv s) : SleepInv (wakeSleepers s) := by
  intro k a ha hk
  dsimp only [wakeSleepers, processWakeReady] at ha hk ⊢
  split_ifs at hk ⊢ with h
  exact hs k a ha hk

lemma SleepInv.step {hz : UInt32} {e : SleepEvent} (hs : SleepInv s) (he : e.Fits hz s) : SleepInv (s.step hz e) := by
  cases e with
  | tick => exact hs
  | wake => exact hs.wake
  | timerSleep cpu frame ticks =>
    rw [SleepTable.step]
    split
    · refine hs.ifAlive ?_ cpu _ frame
      split_ifs
      · exact hs
      · exact hs.sleepFor cpu _ frame le_rfl
    · exact hs
  | sleepMs cpu frame ms =>
    rw [SleepTable.step]
    split
    · exact hs.ifAlive (hs.sleepFor cpu _ frame (leastTicks_le_msTicks he)) cpu _ frame
    · exact hs

/-! ### No early wake-up -/

/-- The process in `i` is made ready by `process_wake_ready`. -/
def Woken (s : SleepTable) (i : ProcSlot) : Prop :=
  (s.table.procs i).state = .sleeping ∧ ((wakeSleepers s).table.procs i).state = .ready

lemma Woken.due {i : ProcSlot} (h : Woken s i) : s.wakeTick i ≤ s.ticks := by
  obtain ⟨hs, hr⟩ := h
  dsimp only [wakeSleepers, processWakeReady] at hr
  split_ifs at hr with hd
  · exact of_decide_eq_true hd.2
  · rw [hs] at hr
    cases hr

/-- In every run of timer ticks, wake-ups and sleep calls whose millisecond conversions fit in 64 bits, a
process that is woken asked for a tick that has come, or for one behind the last, and then the last tick has
come. -/
theorem run_no_early_wake (hz : UInt32) (s : SleepTable) (hs : s.asked = fun _ => none)
    (es : List SleepEvent) (h : Along (SleepTable.step hz) (SleepEvent.Fits hz) s es) (i : ProcSlot) (a : Nat)
    (ha : (run (SleepTable.step hz) s es).asked i = some a) (hw : Woken (run (SleepTable.step hz) s es) i) :
    a ≤ (run (SleepTable.step hz) s es).ticks.toNat ∨
      2 ^ 64 ≤ a ∧ (run (SleepTable.step hz) s es).ticks.toNat = 2 ^ 64 - 1 := by
  have hinv : SleepInv s := by
    intro k b hb
    rw [hs] at hb
    cases hb
  have hrun := run_invariant (fun _ _ hs he => hs.step he) hinv h
  have hmin := hrun i a ha hw.1
  have hdue := UInt64.le_iff_toNat_le.mp hw.due
  have hlt := (run (SleepTable.step hz) s es).ticks.toNat_lt
  omega

/-- One process runs on the first CPU and the timer stands at `now`. -/
def oneRunning (now : UInt64) : SleepTable where
  table := run ProcessTable.step (processInit fun _ => 0) [.spawnDesktop .tty 1 0 true .ok, .startSlice 0 intact]
  ticks := now
  wakeTick := fun _ => 0
  asked := fun _ => none

instance instDecidableWoken (s : SleepTable) (i : ProcSlot) : Decidable (Woken s i) :=
  inferInstanceAs (Decidable (_ ∧ _))

instance instDecidableSleepFits (hz : UInt32) (s : SleepTable) : ∀ e : SleepEvent, Decidable (e.Fits hz s)
  | .sleepMs _ _ ms => inferInstanceAs (Decidable (ms.toNat * hz.toNat + 999 < 2 ^ 64))
  | .tick => .isTrue trivial
  | .wake => .isTrue trivial
  | .timerSleep _ _ _ => .isTrue trivial

/-- A sleep of 15 milliseconds at 100 Hz, begun at tick 7 and ended at tick 9. -/
def shortSleep : List SleepEvent := [.sleepMs 0 ⟨0, 0, 0⟩ 15, .tick, .wake, .tick]

theorem run_no_early_wake_short : (run (SleepTable.step 100) (oneRunning 7) shortSleep).asked 0 = some 9 ∧
    Woken (run (SleepTable.step 100) (oneRunning 7) shortSleep) 0 ∧
    (9 ≤ (run (SleepTable.step 100) (oneRunning 7) shortSleep).ticks.toNat ∨
      2 ^ 64 ≤ 9 ∧ (run (SleepTable.step 100) (oneRunning 7) shortSleep).ticks.toNat = 2 ^ 64 - 1) :=
  have ha : (run (SleepTable.step 100) (oneRunning 7) shortSleep).asked 0 = some 9 := by decide
  have hw : Woken (run (SleepTable.step 100) (oneRunning 7) shortSleep) 0 := by decide
  ⟨ha, hw, run_no_early_wake 100 (oneRunning 7) rfl shortSleep (by decide) 0 9 ha hw⟩

/-- A sleep of `2 ^ 61` milliseconds at 1000 Hz: the product wraps around to zero and the process is woken at
the next tick. -/
theorem long_sleep_wakes_early :
    (run (SleepTable.step 1000) (oneRunning 0) [.sleepMs 0 ⟨0, 0, 0⟩ 2305843009213693952, .tick]).asked 0 =
      some 2305843009213693952 ∧
    Woken (run (SleepTable.step 1000) (oneRunning 0) [.sleepMs 0 ⟨0, 0, 0⟩ 2305843009213693952, .tick]) 0 ∧
    (run (SleepTable.step 1000) (oneRunning 0) [.sleepMs 0 ⟨0, 0, 0⟩ 2305843009213693952, .tick]).ticks = 1 := by
  decide

end VibeOS
