import VibeOS.Kernel.Kill

/-!
# What a kernel entry is made of

Every kernel entry is a sequence of small moves: a process is marked as exited, a status is handed over, a
slot is reclaimed or filled, a CPU leaves its slice, and so on. `Move` lists them once, each with what is
known when it happens, and `step_moves` takes every entry apart. An invariant of the process table is then
proved move by move (`Invariant.step`).

What a development assumes about the entries is a `Policy`: predicates on the moves that need one.
-/

namespace VibeOS

open ProcessTable Function

/-- What is assumed of the moves: of the process that makes a call, of one whose status is handed over (on the CPU
given, if any, the slice ends with the entry), of an exited one whose slot is taken, of one that starts to wait, of
a descriptor that is closed, and of the last pid. -/
structure Policy where
  acts : Process → Prop
  handOver : Option Nat → ProcessTable → ProcSlot → Prop
  reclaim : ProcessTable → ProcSlot → Prop
  waits : ProcessTable → ProcSlot → Nat → Prop
  closes : ProcessTable → ProcSlot → Fin 16 → Prop
  creates : Nat → Prop

/-- The CPU leaves the slice of the process in `i`. -/
def leave (t : ProcessTable) (cpu : Nat) (i : ProcSlot) : ProcessTable :=
  { t.modify i fun p => { p with runningOnCpu := none } with slice := update t.slice cpu none }

/-- `process_create_thread` in the slot it has found. -/
def fillThread (t : ProcessTable) (slot parent : ProcSlot) : ProcessTable :=
  { t.modify slot fun p => processSetupContext { p with
      userPageTables := (t.procs parent).userPageTables, cr3 := (t.procs parent).cr3
      userImage := (t.procs parent).userImage
      heapChunks := [], isThread := true, pid := (t.nextPid + 1) % 2 ^ 32
      parentPid := (t.procs parent).pid, waitTargetPid := 0, loaded := true, state := .ready
      exitCode := 0, fds := (t.procs parent).fds, handles := resetVfsHandles p.handles } with
    nextPid := (t.nextPid + 1) % 2 ^ 32 }

/-- `process_load_image_slot` in the slot it was given, and the uid that the callers write. -/
def fillImage (t : ProcessTable) (slot : ProcSlot) (fds : FdTable) (parentPid uid : Nat) : ProcessTable :=
  (processLoadImageSlot t slot fds parentPid .ok).2.modify slot fun p => { p with uid := uid }

section fill

variable (t : ProcessTable) {slot j : ProcSlot} (fds : FdTable) (parentPid uid : Nat) (parent : ProcSlot)

lemma procs_fillImage_self : (fillImage t slot fds parentPid uid).procs slot =
    { pid := (t.nextPid + 1) % 2 ^ 32, parentPid := parentPid, waitTargetPid := 0, state := .ready
      loaded := true, isThread := false, uid := uid, exitCode := 0, userImage := t.nextAlloc
      userPageTables := some slot, cr3 := some slot, heapChunks := [], runningOnCpu := none
      kresume := false, context := ⟨0, 0, 0⟩, fds := fds, handles := resetVfsHandles (t.procs slot).handles } := by
  rw [fillImage, procs_modify_self, processLoadImageSlot]
  rw [procs_modify_self]
  rfl

lemma procs_fillImage_of_ne (h : j ≠ slot) : (fillImage t slot fds parentPid uid).procs j = t.procs j := by
  rw [fillImage, procs_modify_of_ne _ _ h]
  exact update_of_ne h _ _

lemma procs_fillThread_self : (fillThread t slot parent).procs slot =
    { pid := (t.nextPid + 1) % 2 ^ 32, parentPid := (t.procs parent).pid, waitTargetPid := 0
      state := .ready, loaded := true, isThread := true, uid := (t.procs slot).uid, exitCode := 0
      userImage := (t.procs parent).userImage, userPageTables := (t.procs parent).userPageTables
      cr3 := (t.procs parent).cr3, heapChunks := [], runningOnCpu := none
      kresume := false, context := ⟨0, 0, 0⟩, fds := (t.procs parent).fds
      handles := resetVfsHandles (t.procs slot).handles } := by
  rw [fillThread]
  rw [procs_modify_self]
  rfl

lemma procs_fillThread_of_ne (h : j ≠ slot) : (fillThread t slot parent).procs j = t.procs j :=
  update_of_ne h _ _

lemma procs_fillImage : (fillImage t slot fds parentPid uid).procs =
    update t.procs slot ((fillImage t slot fds parentPid uid).procs slot) := by
  funext j
  by_cases hj : j = slot
  · subst hj
    rw [update_self]
  · rw [update_of_ne hj, procs_fillImage_of_ne _ _ _ _ hj]

lemma procs_fillThread : (fillThread t slot parent).procs =
    update t.procs slot ((fillThread t slot parent).procs slot) := by
  funext j
  by_cases hj : j = slot
  · subst hj
    rw [update_self]
  · rw [update_of_ne hj, procs_fillThread_of_ne _ _ hj]

end fill

/-- The scheduler picks a process that is ready, or parked in a blocking call, and runs nowhere. -/
lemma pickNextReady_spec {t : ProcessTable} {i : ProcSlot} {cpu : Nat} (h : processPickNextReady t cpu = some i) :
    (t.procs i).runningOnCpu = none ∧
      ((t.procs i).state = .ready ∨ (t.procs i).state = .waitingIo ∧ (t.procs i).kresume = true) := by
  have hspec := List.find?_some h
  simpa using hspec

section moves

variable (P : Policy)

/-- The process in `i` makes a call on the CPU. -/
structure Acts (t : ProcessTable) (cpu : Nat) (i : ProcSlot) : Prop where
  runs : t.runs cpu = some i
  acts : P.acts (t.procs i)
  state : (t.procs i).state ≠ .exited

/-- One change of the table, with what its kernel entry has checked and what `P` demands. -/
inductive Move (c : Option Nat) : ProcessTable → ProcessTable → Prop
  | mark {t i} (code : Int) (h : (t.procs i).state ≠ .exited)
      (hi : (t.procs i).loaded = true ∨ ∃ cpu, Acts P t cpu i) : Move c t (markExited t i code)
  | answer {t j i} (hx : (t.procs i).state = .exited) (hw : Waits t j i) (hp : P.handOver c t i) :
      Move c t (processReap (answerWaiter t j i) i)
  | collect {t cpu i j pid} (h : Acts P t cpu i)
      (hj : processFindExitedChild t (t.procs i).pid pid = some j) (hp : P.handOver c t j) :
      Move c t (processReap { t with
        waited := t.waited ++ [((t.procs i).pid, (t.procs j).pid, (t.procs j).exitCode)]
        targets := t.targets ++ [pid] } j)
  | reclaim {t r} (hl : (t.procs r).loaded = true) (hx : (t.procs r).state = .exited)
      (hp : P.reclaim t r) : Move c t (processReap t r)
  | drop {t} (cpu : Nat) : Move c t (t.setCurrent cpu none)
  | leave {t cpu i} (h : t.slice cpu = some i) : Move c t (leave t cpu i)
  | block {t cpu i} (hc : c = some cpu) (h : Acts P t cpu i) :
      Move c t (t.modify i fun p => { p with state := .waitingIo, kresume := true })
  | dispatch {t cpu} (hc : c = none) (hs : SpaceInv t) (h : t.slice cpu = none) : Move c t (startSlice t cpu)
  | deschedule {t cpu i} (hc : c = some cpu) (h : Acts P t cpu i) (state : ProcessState) (frame : Context)
      (hs : state = .ready ∨ state = .sleeping ∨ state = .waitingIo) :
      Move c t (t.modify i fun p => { p with state := state, context := frame })
  | wait {t cpu i pid} (hc : c = some cpu) (h : Acts P t cpu i) (frame : Context) (hp : P.waits t i pid) :
      Move c t (t.modify i fun p => { p with state := .waiting, waitTargetPid := pid, context := frame })
  | preempt {t cpu i} (hc : c = some cpu) (h : t.runs cpu = some i) (hp : P.acts (t.procs i)) (frame : Context) :
      Move c t (t.modify i fun p => { p with
        context := frame, state := if p.state = .exited then .exited else .ready })
  | wakeReady {t} (due : ProcSlot → Bool) : Move c t (processWakeReady t due)
  | wakeTty {t i} (n : Nat) (h : (t.procs i).state = .waitingIo) :
      Move c t (t.modify i fun p => { p with state := .ready, context := { p.context with rax := n } })
  | noMemory {t slot} (h : (t.procs slot).loaded = false) (fds : FdTable) (parentPid : Nat) :
      Move c t (processLoadImageSlot t slot fds parentPid .noMemory).2
  | spawn {t slot cpu i} (h : (t.procs slot).loaded = false) (hn : P.creates t.nextPid)
      (hi : Acts P t cpu i) (uid : Nat) :
      Move c t (fillImage t slot (t.procs i).fds (t.procs i).pid uid)
  | spawnPath {t slot} (h : (t.procs slot).loaded = false) (hn : P.creates t.nextPid) (ops : FdOps)
      (object uid : Nat) : Move c t (fillImage t slot (stdioTable (.device ops object)) 0 uid)
  -- the caller has not changed since its call began, if it holds its slot
  | adopt {t slot j i} (hi : ∃ t0 cpu, Acts P t0 cpu i ∧
        ((t0.procs i).loaded = true → t.procs i = t0.procs i)) (hl : (t.procs slot).loaded = true)
      (hr : (t.procs slot).state = .ready) (hp : (t.procs slot).pid = t.nextPid)
      (hz : (t.procs slot).parentPid = 0)
      (hj : processFindByPid t t.nextPid = some j) :
      Move c t (t.modify j fun p => { p with parentPid := (t.procs i).pid })
  | thread {t slot cpu i} (h : (t.procs slot).loaded = false) (hn : P.creates t.nextPid)
      (hi : Acts P t cpu i) : Move c t (fillThread t slot i)
  | ptyOpen {t cpu i fd fds pty} (h : Acts P t cpu i)
      (hf : fdAlloc (t.procs i).fds (.device .ptyMaster pty) = some (fd, fds)) :
      Move c t (t.modify i fun p => { p with fds := fds })
  | openFile {t cpu i} (h : Acts P t cpu i) (out : OpenOutcome) : Move c t (processOpen t i out).2
  | closeFd {t cpu i fd} (h : Acts P t cpu i) (hp : P.closes t i fd) : Move c t (processCloseFd t i fd)
  | moveOffset {t cpu i} (h : Acts P t cpu i) (fd : Fin 16) (offset : Nat) : Move c t (processMoveOffset t i fd offset)
  | sbrk {t cpu i} (h : Acts P t cpu i) (chunks : Nat) : Move c t (processSbrk t i chunks)
  | setuid {t} (i : ProcSlot) (uid : Nat) : Move c t (t.modify i fun p => { p with uid := uid })
  | desktopUid {t} (uid : Nat) : Move c t { t.modify 0 fun p => { p with uid := uid } with desktopUid := uid }

variable (c : Option Nat)

abbrev Moves : ProcessTable → ProcessTable → Prop := Relation.ReflTransGen (Move P c)

/-! ### The conditions of the entries -/

def WakeOk (t : ProcessTable) (i : ProcSlot) : Prop :=
  ∀ j, Waits t j i → P.handOver c t i

/-- The thread in `i` dies with the owner in `o`. -/
def Victim (t : ProcessTable) (o i : ProcSlot) : Prop :=
  i ≠ o ∧ (t.procs i).loaded = true ∧ (t.procs i).isThread = true ∧ (t.procs i).state ≠ .exited ∧
    (t.procs i).userPageTables = (t.procs o).userPageTables

def DieOk (cpu : Nat) (t : ProcessTable) (i : ProcSlot) (code : Int) : Prop :=
  ((t.procs i).isThread = false → Along (killSibling cpu i)
    (fun t k => Victim t i k → WakeOk P c (markExited t k (-1)) k) (markExited t i code)
    (List.finRange PROCESS_MAX_COUNT)) ∧
  WakeOk P c (processKillSiblingThreads cpu (markExited t i code) i) i

def KillOk (cpu : Nat) (t : ProcessTable) (pid : Nat) : Prop :=
  ∀ i ∈ processFindByPid t pid, (t.procs i).state ≠ .exited → DieOk P c cpu t i (-1)

def InterruptOk (cpu : Nat) (t : ProcessTable) (object : Nat) : Prop :=
  Along (interruptWaiter cpu object)
    (fun t w => (t.procs w).state = .waiting → KillOk P none cpu t (t.procs w).waitTargetPid) t
    (List.finRange PROCESS_MAX_COUNT)

/-- Of the processes that the check of the stacks ends, none has living threads, and each may be handed over. -/
def CanaryOk (cpu : Nat) (smashed : ProcSlot → Bool) (t : ProcessTable) : Prop :=
  SparesThreads smashed t ∧ Along (canaryKill cpu smashed) (fun t i => smashed i = true → (t.procs i).loaded = true →
    (t.procs i).state ≠ .exited → WakeOk P c (markExited t i (-14)) i) t (List.finRange PROCESS_MAX_COUNT)

/-- The slice that ends hands its process over, if that has exited. -/
def LeaveOk (cpu : Nat) (t : ProcessTable) : Prop :=
  ∀ i, t.slice cpu = some i → (t.procs i).state = .exited → WakeOk P (some cpu) (leave (t.setCurrent cpu none) cpu i) i

def SearchOk (t : ProcessTable) : Prop :=
  P.creates t.nextPid ∧ ∀ r ∈ processFindFreeSlot t, (t.procs r.1).loaded = true → (t.procs r.1).state = .exited →
      P.reclaim t r.1

def Syscall.Obeys (cpu : Nat) (t : ProcessTable) (i : ProcSlot) : Syscall → Prop
  | .exit code => DieOk P (some cpu) cpu t i code ∧ LeaveOk P cpu (processDie cpu t i code)
  | .spawn _ _ => SearchOk P t
  | .spawnPty _ found _ => found = true → SearchOk P t
  | .threadCreate argsOk => argsOk = true → SearchOk P t
  | .ptyInterrupt fd =>
    ∀ pty, (t.procs i).fds fd = some (.device .ptyMaster pty) → InterruptOk P cpu t pty
  | .waitpid pid =>
    match processFindExitedChild t (t.procs i).pid pid with
    | some j => P.handOver none t j
    | none => P.waits t i pid
  | .kill pid =>
    if (processKill cpu t pid).current cpu = none then
      KillOk P (some cpu) cpu t pid ∧ LeaveOk P cpu (processKill cpu t pid)
    else KillOk P none cpu t pid
  | .close fd => P.closes t i fd
  | _ => True

def KernelEvent.Obeys (t : ProcessTable) : KernelEvent → Prop
  | .syscall cpu _ call =>
    ∀ i ∈ t.runs cpu, if (t.procs i).state = .exited then LeaveOk P cpu t
      else P.acts (t.procs i) ∧ call.Obeys P cpu t i
  | .startSlice cpu smashed => t.slice cpu = none → CanaryOk P none cpu smashed t
  | .orphanCall cpu => t.current cpu = none → LeaveOk P cpu t
  -- the stack of the process that faults has not overflown itself
  | .fault cpu smashed =>
    ∀ i ∈ t.runs cpu, (t.procs i).state ≠ .exited → smashed i = false ∧
      P.acts ((kstackCanaryCheck cpu smashed t).procs i) ∧
      CanaryOk P (some cpu) cpu smashed t ∧ DieOk P (some cpu) cpu (kstackCanaryCheck cpu smashed t) i (-14) ∧
      LeaveOk P cpu (processDie cpu (kstackCanaryCheck cpu smashed t) i (-14))
  | .preempt cpu frame =>
    ∀ i ∈ t.runs cpu, P.acts (t.procs i) ∧ LeaveOk P cpu (t.modify i fun p => { p with
      context := frame, state := if p.state = .exited then .exited else .ready })
  | .spawnDesktop _ _ _ found _ => found = true → SearchOk P t
  | .killDesktop cpu pid => KillOk P none cpu t pid
  | _ => True

end moves

/-! ### Taking the entries apart -/

section

variable {P : Policy} {c : Option Nat} {t t' : ProcessTable} {i j o : ProcSlot} {cpu : Nat}

variable (t)

lemma processWakeWaiter_slice (i : ProcSlot) (s : Nat → Option ProcSlot) :
    processWakeWaiter { t with slice := s } i = { processWakeWaiter t i with slice := s } := by
  unfold processWakeWaiter
  dsimp only
  split_ifs
  · rfl
  · have hfind : processFindByPid { t with slice := s } (t.procs i).parentPid =
        processFindByPid t (t.procs i).parentPid := rfl
    rw [hfind]
    rcases processFindByPid t (t.procs i).parentPid with _ | j
    · rfl
    · dsimp only
      split_ifs <;> rfl

lemma slice_processWakeWaiter (i : ProcSlot) : (processWakeWaiter t i).slice = t.slice := by
  rcases wakeWaiter_cases t i with heq | ⟨j, -, heq⟩
  · rw [heq]
  · rw [heq]
    rfl

lemma endSlice_eq (cpu : Nat) (i : ProcSlot) :
    endSlice t cpu i = if (t.procs i).state = .exited then processWakeWaiter (leave t cpu i) i else leave t cpu i := by
  have hs : ((t.modify i fun p => { p with runningOnCpu := none }).procs i).state =
      (t.procs i).state := by rw [procs_modify_self]
  rw [endSlice, hs]
  split_ifs
  · rw [slice_processWakeWaiter]
    exact (processWakeWaiter_slice _ i _).symm
  · rfl

variable {t}

lemma moves_wakeWaiter (hx : (t.procs i).state = .exited) (h : WakeOk P c t i) :
    Moves P c t (processWakeWaiter t i) := by
  rcases wakeWaiter_cases t i with heq | ⟨j, hj, heq⟩
  · rw [heq]
  · rw [heq]
    exact .single (.answer hx hj (h j hj))

lemma moves_dropCurrent (t : ProcessTable) (cpu : Nat) (i : ProcSlot) : Moves P c t (dropCurrent t cpu i) := by
  rw [dropCurrent]
  split_ifs
  · exact .single (.drop cpu)
  · exact .refl

lemma moves_killSibling (h : Victim t o i → WakeOk P c (markExited t i (-1)) i) :
    Moves P c t (killSibling cpu o t i) := by
  rcases killSibling_cases cpu o t i with heq | ⟨hio, hl, ht, hs, htab, heq⟩
  · rw [heq]
  · rw [heq]
    have hmark : Move P c t (markExited t i (-1)) := .mark _ hs (.inl hl)
    have hwake := moves_wakeWaiter (by rw [procs_markExited_self]) (h ⟨hio, hl, ht, hs, htab⟩)
    exact (hwake.head hmark).trans (moves_dropCurrent _ cpu i)

lemma moves_along {A : Type*} {f : ProcessTable → A → ProcessTable} {Q : ProcessTable → A → Prop}
    (hf : ∀ t a, Q t a → Moves P c t (f t a)) (l : List A) (t : ProcessTable) (h : Along f Q t l) :
    Moves P c t (l.foldl f t) := by
  induction l generalizing t with
  | nil => exact .refl
  | cons a l ih => exact (hf t a h.1).trans (ih _ h.2)

lemma foldl_killSibling_exited (l : List ProcSlot) (ho : (t.procs o).state = .exited) :
    (l.foldl (killSibling cpu o) t).procs o = t.procs o := by
  induction l generalizing t with
  | nil => rfl
  | cons i l ih =>
    have hstep : (killSibling cpu o t i).procs o = t.procs o := by
      rcases killSibling_cases cpu o t i with heq | ⟨hio, -, -, -, -, heq⟩
      · rw [heq]
      · rw [heq, procs_dropCurrent]
        have hmark : (markExited t i (-1)).procs o = t.procs o := procs_markExited_of_ne hio.symm
        rcases wakeWaiter_cases (markExited t i (-1)) i with hw | ⟨j, hj, hw⟩
        · rw [hw, hmark]
        · have hoj : o ≠ j := by
            rintro rfl
            have := hj.state
            rw [hmark, ho] at this
            cases this
          rw [hw, procs_processReap_of_ne hio.symm, procs_answerWaiter_of_ne hoj, hmark]
    rw [List.foldl_cons, ih (by rw [hstep]; exact ho), hstep]

lemma killSiblingThreads_exited (h : (t.procs i).state = .exited) :
    (processKillSiblingThreads cpu t i).procs i = t.procs i := by
  rw [processKillSiblingThreads]
  split_ifs
  · rfl
  · exact foldl_killSibling_exited _ h

lemma moves_die {code : Int} (hs : (t.procs i).state ≠ .exited)
    (hi : (t.procs i).loaded = true ∨ ∃ cpu, Acts P t cpu i) (h : DieOk P c cpu t i code) :
    Moves P c t (processDie cpu t i code) := by
  have hmark : Move P c t (markExited t i code) := .mark code hs hi
  have hx : ((markExited t i code).procs i).state = .exited := by rw [procs_markExited_self]
  have hkill : Moves P c (markExited t i code)
      (processKillSiblingThreads cpu (markExited t i code) i) := by
    rw [processKillSiblingThreads]
    split_ifs with hno
    · exact .refl
    · refine moves_along (fun t k hk => moves_killSibling hk) _ _ (h.1 ?_)
      rw [procs_markExited_self] at hno
      simpa using fun h => hno (.inl h)
  have hwake := moves_wakeWaiter (P := P) (c := c) (by
    rw [killSiblingThreads_exited hx]
    exact hx) h.2
  exact (hkill.head hmark).trans hwake

lemma moves_canaryCheck {smashed : ProcSlot → Bool} (h : CanaryOk P c cpu smashed t) :
    Moves P c t (kstackCanaryCheck cpu smashed t) := by
  refine moves_along (fun t i hi => ?_) _ t h.2
  rcases canaryKill_cases cpu smashed t i with heq | ⟨hsm, hl, hs, heq⟩
  · rw [heq]
  · rw [heq]
    have hmark : Move P c t (markExited t i (-14)) := .mark _ hs (.inl hl)
    have hwake := moves_wakeWaiter (by rw [procs_markExited_self]) (hi hsm hl hs)
    exact (hwake.head hmark).trans (moves_dropCurrent _ cpu i)

section canary

variable {smashed : ProcSlot → Bool}

lemma canaryKill_slice (cpu : Nat) (smashed : ProcSlot → Bool) (t : ProcessTable) (i : ProcSlot) :
    (canaryKill cpu smashed t i).slice = t.slice := by
  rcases canaryKill_cases cpu smashed t i with heq | ⟨-, -, -, heq⟩
  · rw [heq]
  · have hsl := slice_processWakeWaiter (markExited t i (-14)) i
    rw [heq, dropCurrent]
    split_ifs <;> exact hsl

/-- A process whose own stack is intact stays, but for the status it may wait for. -/
lemma canaryKill_intact (hj : smashed j = false) :
    (t.current cpu = some j → (canaryKill cpu smashed t i).current = t.current) ∧
    (((canaryKill cpu smashed t i).procs j).state = .exited ↔ (t.procs j).state = .exited) ∧
    ((t.procs j).state ≠ .waiting → (canaryKill cpu smashed t i).procs j = t.procs j) := by
  rcases canaryKill_cases cpu smashed t i with heq | ⟨hsm, -, -, heq⟩
  · rw [heq]
    exact ⟨fun _ => rfl, Iff.rfl, fun _ => rfl⟩
  · have hji : j ≠ i := by
      rintro rfl
      rw [hj] at hsm
      cases hsm
    have hcur : (processWakeWaiter (markExited t i (-14)) i).current = t.current := by
      rcases wakeWaiter_cases (markExited t i (-14)) i with hw | ⟨k, -, hw⟩ <;> rw [hw] <;> rfl
    refine ⟨fun hc => ?_, (canaryKill_frame cpu smashed t hji).exited, fun hs => ?_⟩
    · rw [heq, dropCurrent, hcur, if_neg (by rw [hc]; exact fun h => hji (Option.some.inj h))]
      exact hcur
    · rw [heq, procs_dropCurrent]
      rcases wakeWaiter_cases (markExited t i (-14)) i with hw | ⟨k, hk, hw⟩
      · rw [hw, procs_markExited_of_ne hji]
      · have hjk : j ≠ k := by
          rintro rfl
          have := hk.state
          rw [procs_markExited_of_ne hji] at this
          exact hs this
        rw [hw, procs_processReap_of_ne hji, procs_answerWaiter_of_ne hjk, procs_markExited_of_ne hji]

lemma canaryCheck_slice : (kstackCanaryCheck cpu smashed t).slice = t.slice :=
  List.foldlRecOn (motive := fun u : ProcessTable => u.slice = t.slice) _ _ rfl
    fun u hu i _ => (canaryKill_slice cpu smashed u i).trans hu

lemma canaryCheck_current (hj : smashed j = false) (hc : t.current cpu = some j) :
    (kstackCanaryCheck cpu smashed t).current = t.current := by
  refine List.foldlRecOn (motive := fun u : ProcessTable => u.current = t.current) _ _ rfl fun u hu i _ => ?_
  exact ((canaryKill_intact hj).1 (by rw [hu]; exact hc)).trans hu

lemma canaryCheck_exited (hj : smashed j = false) :
    ((kstackCanaryCheck cpu smashed t).procs j).state = .exited ↔ (t.procs j).state = .exited :=
  List.foldlRecOn (motive := fun u : ProcessTable => (u.procs j).state = .exited ↔ (t.procs j).state = .exited) _ _
    Iff.rfl fun _ hu _ _ => (canaryKill_intact hj).2.1.trans hu

lemma canaryCheck_procs (hj : smashed j = false) (hs : (t.procs j).state ≠ .waiting) :
    (kstackCanaryCheck cpu smashed t).procs j = t.procs j := by
  refine List.foldlRecOn (motive := fun u : ProcessTable => u.procs j = t.procs j) _ _ rfl fun u hu i _ => ?_
  exact ((canaryKill_intact hj).2.2 (by rw [hu]; exact hs)).trans hu

lemma canaryCheck_runs (hj : smashed j = false) (hr : t.runs cpu = some j) :
    (kstackCanaryCheck cpu smashed t).runs cpu = some j := by
  have hc : t.current cpu = some j := by
    rw [ProcessTable.runs] at hr
    split at hr
    · cases hr
    · exact hr
  rw [ProcessTable.runs, canaryCheck_slice, canaryCheck_current hj hc]
  exact hr

lemma canaryOk_none (P : Policy) (c : Option Nat) (cpu : Nat) (t : ProcessTable) : CanaryOk P c cpu intact t :=
  ⟨fun _ hi => Bool.noConfusion hi, (along_true t _).mono fun _ _ _ hi => Bool.noConfusion hi⟩

end canary

lemma moves_kill {pid : Nat} (h : KillOk P c cpu t pid) : Moves P c t (processKill cpu t pid) := by
  rw [processKill]
  rcases hf : processFindByPid t pid with _ | i
  · exact .refl
  · dsimp only
    obtain ⟨-, hl, -⟩ := findByPid_spec hf
    split_ifs with hs
    · exact .refl
    · have hx : (t.procs i).state ≠ .exited := fun h => hs (.inr h)
      exact (moves_die hx (.inl hl) (h i hf hx)).trans (moves_dropCurrent _ cpu i)

lemma moves_interrupt {object : Nat} (h : InterruptOk P cpu t object) :
    Moves P none t (processInterruptTerminal cpu t object) := by
  rw [processInterruptTerminal]
  split_ifs
  · exact .refl
  · refine moves_along (fun t w hw => ?_) _ _ h
    rcases interruptWaiter_cases cpu object t w with heq | ⟨pid, hwait, heq⟩
    · rw [heq]
    · rw [heq, ← hwait.target]
      exact moves_kill (hw hwait.state)

lemma returnToScheduler_slice (t : ProcessTable) (cpu : Nat) : (returnToScheduler t cpu).slice cpu = none := by
  rw [returnToScheduler]
  split
  · assumption
  · exact update_self _ _ _

lemma moves_returnToScheduler (h : LeaveOk P cpu t) : Moves P (some cpu) t (returnToScheduler t cpu) := by
  have hdrop : Move P (some cpu) t (t.setCurrent cpu none) := .drop cpu
  rw [returnToScheduler]
  split
  · exact .single hdrop
  · rename_i i hi
    have hleave : Move P (some cpu) (t.setCurrent cpu none) (leave (t.setCurrent cpu none) cpu i) :=
      .leave hi
    rw [endSlice_eq]
    split_ifs with hx
    · refine ((moves_wakeWaiter ?_ (h i hi hx)).head hleave).head hdrop
      rw [leave]
      rw [procs_modify_self]
      exact hx
    · exact (Relation.ReflTransGen.single hleave).head hdrop

/-- A slice that ends with a process that has not exited hands nothing over. -/
lemma leaveOk_of_state (hs : ∀ k, t.slice cpu = some k → (t.procs k).state ≠ .exited) :
    LeaveOk P cpu t := fun i hi hx => absurd hx (hs i hi)

/-- The current process of a CPU in a slice is that of the slice. -/
def CurrentOk (t : ProcessTable) : Prop :=
  ∀ cpu i k, t.slice cpu = some i → t.current cpu = some k → k = i

/-- What holds between any two entries of a run. -/
structure Steady (t : ProcessTable) : Prop where
  space : SpaceInv t
  current : CurrentOk t

lemma Steady.nonempty (h : Steady t) (j : ProcSlot) (hl : (t.procs j).loaded = true) : (t.procs j).state ≠ .empty :=
  (h.space.slots j).nonempty hl

lemma CurrentOk.slice (h : CurrentOk t) (hr : t.runs cpu = some i) : t.slice cpu = some i := by
  rw [ProcessTable.runs] at hr
  split at hr
  · cases hr
  · rename_i k hk
    rw [h cpu k i hk hr]
    exact hk

lemma moves_findFreeSlot {slot : ProcSlot} (hsane : Steady t) (h : SearchOk P t)
    (hf : processFindFreeSlot t = some (slot, t')) :
    Moves P c t t' ∧ (t'.procs slot).loaded = false ∧ t'.nextPid = t.nextPid := by
  rcases findFreeSlot_cases hf with ⟨hl | he, rfl⟩ | ⟨hl, hx, rfl⟩
  · exact ⟨.refl, hl, rfl⟩
  · refine ⟨.refl, ?_, rfl⟩
    by_contra hl
    exact hsane.nonempty slot (by simpa using hl) he
  · refine ⟨.single (.reclaim hl hx (h.2 _ hf hl hx)), ?_, rfl⟩
    simp [processReap]

lemma acts_findFreeSlot {slot : ProcSlot} (h : Acts P t cpu i)
    (hf : processFindFreeSlot t = some (slot, t')) : Acts P t' cpu i := by
  rcases findFreeSlot_cases hf with ⟨-, rfl⟩ | ⟨-, hx, rfl⟩
  · exact h
  · have hne : i ≠ slot := by
      rintro rfl
      exact h.state hx
    refine ⟨h.runs, ?_, ?_⟩
    · rw [procs_processReap_of_ne hne]
      exact h.acts
    · rw [procs_processReap_of_ne hne]
      exact h.state

lemma moves_spawnNamed (hsane : Steady t) (h : Acts P t cpu i) (hs : SearchOk P t) (found : Bool)
    (out : LoadOutcome) : Moves P c t (processSpawnNamedFromParent t i found out).2 := by
  rw [processSpawnNamedFromParent]
  split
  · exact .refl
  · rename_i slot t' hf
    obtain ⟨hmoves, hl, hn⟩ := moves_findFreeSlot (c := c) hsane hs hf
    cases found with
    | false => exact hmoves
    | true =>
      cases out with
      | invalid => exact hmoves
      | noMemory => exact hmoves.tail (.noMemory hl (t'.procs i).fds (t'.procs i).pid)
      | ok => exact hmoves.tail (.spawn hl (hn ▸ hs.1) (acts_findFreeSlot h hf) _)

lemma moves_spawnPath (hsane : Steady t) (ops : FdOps) (object uid : Nat) (found : Bool)
    (hs : found → SearchOk P t) (out : LoadOutcome) :
    Moves P c t (processSpawnPath t (.device ops object) uid found out).2 ∧
    ∀ slot, (processSpawnPath t (.device ops object) uid found out).1 = some slot →
      let t' := (processSpawnPath t (.device ops object) uid found out).2
      (t'.procs slot).loaded = true ∧ (t'.procs slot).state = .ready ∧
        (t'.procs slot).pid = t'.nextPid ∧ (t'.procs slot).parentPid = 0 ∧ (∀ cpu, t'.runs cpu = t.runs cpu) ∧
        ∀ i, (t.procs i).loaded = true → (t.procs i).state ≠ .exited → t'.procs i = t.procs i := by
  unfold processSpawnPath
  cases found with
  | false => exact ⟨.refl, fun slot hslot => (by cases hslot)⟩
  | true =>
    rcases hf : processFindFreeSlot t with _ | ⟨slot, t'⟩
    · exact ⟨.refl, fun slot hslot => (by cases hslot)⟩
    · obtain ⟨hmoves, hl, hn⟩ := moves_findFreeSlot (c := c) hsane (hs rfl) hf
      cases out with
      | invalid => exact ⟨hmoves, fun slot hslot => (by cases hslot)⟩
      | noMemory =>
        exact ⟨hmoves.tail (.noMemory hl (stdioTable (.device ops object)) 0), fun slot hslot => (by cases hslot)⟩
      | ok =>
        refine ⟨hmoves.tail (.spawnPath hl (hn ▸ (hs rfl).1) ops object uid), fun k hk => ?_⟩
        cases hk
        change let t'' := fillImage t' slot (stdioTable (.device ops object)) 0 uid
          (t''.procs slot).loaded = true ∧ (t''.procs slot).state = .ready ∧
            (t''.procs slot).pid = t''.nextPid ∧ (t''.procs slot).parentPid = 0 ∧ (∀ cpu, t''.runs cpu = t.runs cpu) ∧
            ∀ i, (t.procs i).loaded = true → (t.procs i).state ≠ .exited → t''.procs i = t.procs i
        dsimp only
        rw [procs_fillImage_self]
        refine ⟨rfl, rfl, rfl, rfl, fun cpu => ?_, fun i hi hx => ?_⟩
        · rcases findFreeSlot_cases hf with ⟨-, rfl⟩ | ⟨-, -, rfl⟩ <;> rfl
        · have hne : i ≠ slot := by
            rintro rfl
            rcases findFreeSlot_cases hf with ⟨hl' | he, rfl⟩ | ⟨-, hx', rfl⟩
            · rw [hi] at hl'
              cases hl'
            · exact hsane.nonempty i hi he
            · exact hx hx'
          rw [procs_fillImage_of_ne _ _ _ _ hne]
          rcases findFreeSlot_cases hf with ⟨-, rfl⟩ | ⟨-, -, rfl⟩
          · rfl
          · exact procs_processReap_of_ne hne

lemma moves_spawnPty (hsane : Steady t) (h : Acts P t cpu i) (pty : Nat) (found : Bool)
    (hs : found → SearchOk P t) (out : LoadOutcome) :
    let r := processSpawnPath t (.device .ptySlave pty) (t.procs i).uid found out
    Moves P c t (match r.1 with
      | none => r.2
      | some slot =>
          match processFindByPid r.2 (r.2.procs slot).pid with
          | none => r.2
          | some j => r.2.modify j fun p => { p with parentPid := (r.2.procs i).pid }) := by
  intro r
  obtain ⟨hmoves, hnew⟩ := moves_spawnPath (c := c) hsane .ptySlave pty (t.procs i).uid found hs out
  rcases hr : r.1 with _ | slot
  · exact hmoves
  · obtain ⟨hl, hready, hpid, hz, hruns, hsame⟩ := hnew slot hr
    dsimp only
    rcases hj : processFindByPid r.2 (r.2.procs slot).pid with _ | j
    · exact hmoves
    · rw [hpid] at hj
      exact hmoves.tail (.adopt ⟨t, cpu, h, fun hi => hsame i hi h.state⟩ hl hready hpid hz hj)

lemma moves_createThread (hsane : Steady t) (h : Acts P t cpu i) (argsOk : Bool)
    (hs : argsOk → SearchOk P t) : Moves P c t (processCreateThread t i argsOk).2 := by
  rw [processCreateThread]
  cases argsOk with
  | false => exact .refl
  | true =>
    rw [if_neg (by decide)]
    split
    · exact .refl
    · rename_i slot t' hf
      obtain ⟨hmoves, hl, hn⟩ := moves_findFreeSlot (c := c) hsane (hs rfl) hf
      exact hmoves.tail (.thread hl (hn ▸ (hs rfl).1) (acts_findFreeSlot h hf))

lemma modify_modify (t : ProcessTable) (i : ProcSlot) (f g : Process → Process) :
    (t.modify i f).modify i g = t.modify i fun p => g (f p) := by
  simp [ProcessTable.modify]

lemma moves_descheduled {f : Process → Process} (hsane : Steady t) (h : Acts P t cpu i)
    (hmove : Move P (some cpu) t (t.modify i f)) (hs : (f (t.procs i)).state ≠ .exited) :
    Moves P (some cpu) t (returnToScheduler (t.modify i f) cpu) := by
  refine .head hmove (moves_returnToScheduler (leaveOk_of_state fun k hk => ?_))
  have hik : i = k := Option.some.inj ((hsane.current.slice h.runs).symm.trans hk)
  subst hik
  rw [procs_modify_self]
  exact hs

lemma moves_syscall (hsane : Steady t) (h : Acts P t cpu i) (frame : Context) (call : Syscall)
    (hc : call.Obeys P cpu t i) : ∃ c, Moves P c t (syscallHandleInterrupt t cpu i frame call) ∧
      ∀ k, c = some k → (syscallHandleInterrupt t cpu i frame call).slice k = none := by
  have hsingle : ∀ {t'}, Move P none t t' → ∃ c, Moves P c t t' ∧ ∀ k, c = some k → t'.slice k = none :=
    fun hm => ⟨none, .single hm, nofun⟩
  have hend : ∀ {t'}, Moves P (some cpu) t (returnToScheduler t' cpu) → ∃ c, Moves P c t (returnToScheduler t' cpu) ∧
        ∀ k, c = some k → (returnToScheduler t' cpu).slice k = none := fun hm =>
    ⟨some cpu, hm, fun k hk => by cases hk; exact returnToScheduler_slice _ cpu⟩
  have hrefl : ∃ c, Moves P c t t ∧ ∀ k, c = some k → t.slice k = none := ⟨none, .refl, nofun⟩
  unfold syscallHandleInterrupt
  rw [if_neg h.state]
  cases call with
  | yield => exact hend (moves_descheduled hsane h (.deschedule rfl h .ready _ (by simp)) (by simp))
  | exit code =>
    exact hend ((moves_die h.state (.inr ⟨cpu, h⟩) hc.1).trans (moves_returnToScheduler hc.2))
  | spawn found out => exact ⟨none, moves_spawnNamed hsane h hc found out, nofun⟩
  | ptyOpen pty =>
    dsimp only
    rcases hf : fdAlloc (t.procs i).fds (.device .ptyMaster pty) with _ | ⟨fd, fds⟩
    · exact hrefl
    · exact hsingle (.ptyOpen h hf)
  | spawnPty fd found out =>
    dsimp only
    rcases (t.procs i).fds fd with _ | ⟨_ | _ | _ | _, pty⟩ | ⟨o, k, f⟩
    case some.device.ptyMaster => exact ⟨none, moves_spawnPty hsane h pty found hc out, nofun⟩
    all_goals exact hrefl
  | ptyInterrupt fd =>
    dsimp only
    rcases hfd : (t.procs i).fds fd with _ | ⟨_ | _ | _ | _, pty⟩ | ⟨o, k, f⟩
    case some.device.ptyMaster => exact ⟨none, moves_interrupt (hc pty hfd), nofun⟩
    all_goals exact hrefl
  | threadCreate argsOk => exact ⟨none, moves_createThread hsane h argsOk hc, nofun⟩
  | waitpid pid =>
    unfold Syscall.Obeys at hc
    dsimp only at hc ⊢
    rcases hj : processFindExitedChild t (t.procs i).pid pid with _ | j
    · rw [hj] at hc
      rw [descheduled, modify_modify]
      exact hend (moves_descheduled hsane h (.wait rfl h _ hc) (by simp))
    · rw [hj] at hc
      exact hsingle (.collect h hj hc)
  | sleep => exact hend (moves_descheduled hsane h (.deschedule rfl h .sleeping _ (by simp)) (by simp))
  | ttyWait => exact hend (moves_descheduled hsane h (.deschedule rfl h .waitingIo _ (by simp)) (by simp))
  | block =>
    have hblock : Move P (some cpu) t
      (t.modify i fun p => { p with state := .waitingIo, kresume := true }) := .block rfl h
    refine ⟨some cpu, ?_, fun k hk => ?_⟩
    · rw [endSlice_eq, if_neg (by rw [procs_modify_self]; simp)]
      exact .head hblock (.single (.leave (hsane.current.slice h.runs)))
    · cases hk
      exact update_self _ _ _
  | windowmgrStart => exact hsingle (.desktopUid _)
  | kill pid =>
    unfold Syscall.Obeys at hc
    dsimp only at hc ⊢
    rcases processFindByPid t pid with _ | j
    · exact hrefl
    · dsimp only
      split_ifs with _ _ hcur
      · exact hrefl
      · exact hrefl
      · rw [if_pos hcur] at hc
        exact hend ((moves_kill hc.1).trans (moves_returnToScheduler hc.2))
      · rw [if_neg hcur] at hc
        exact ⟨none, moves_kill hc, nofun⟩
  | setuid uid =>
    dsimp only
    split_ifs
    · exact hrefl
    · exact hsingle (.setuid i uid)
  | sbrk chunks => exact hsingle (.sbrk h chunks)
  | «open» out => exact hsingle (.openFile h out)
  | close fd => exact hsingle (.closeFd h hc)
  | moveOffset fd offset => exact hsingle (.moveOffset h fd offset)

/-- Every kernel entry is a sequence of moves; on the CPU that it names, if any, the slice is over. -/
lemma step_moves (hsane : Steady t) (e : KernelEvent) (h : e.Obeys P t) :
    ∃ c, Moves P c t (t.step e) ∧ ∀ k, c = some k → (t.step e).slice k = none := by
  have hrefl : ∃ c, Moves P c t t ∧ ∀ k, c = some k → t.slice k = none := ⟨none, .refl, nofun⟩
  have hend : ∀ {cpu t'}, Moves P (some cpu) t (returnToScheduler t' cpu) →
      ∃ c, Moves P c t (returnToScheduler t' cpu) ∧
        ∀ k, c = some k → (returnToScheduler t' cpu).slice k = none := fun {cpu} _ hm =>
    ⟨some cpu, hm, fun k hk => by cases hk; exact returnToScheduler_slice _ cpu⟩
  cases e with
  | startSlice cpu smashed =>
    rw [step]
    split_ifs with hs
    · have hdispatch : Move P none (kstackCanaryCheck cpu smashed t) (processRunReadySlice t cpu smashed) :=
        .dispatch rfl (hsane.space.canaryCheck (h hs).1 cpu) (by rw [canaryCheck_slice]; exact hs)
      exact ⟨none, (moves_canaryCheck (h hs)).tail hdispatch, nofun⟩
    · exact hrefl
  | orphanCall cpu =>
    rw [step]
    split_ifs with hs
    · exact hend (moves_returnToScheduler (h hs))
    · exact hrefl
  | syscall cpu frame call =>
    rcases hr : t.runs cpu with _ | i
    · rw [step_syscall_idle frame call hr]
      exact hrefl
    · rw [step_syscall frame call hr]
      have hi := h i hr
      by_cases hx : (t.procs i).state = .exited
      · rw [if_pos hx] at hi
        rw [syscall_of_exited cpu frame call hx]
        exact hend (moves_returnToScheduler hi)
      · rw [if_neg hx] at hi
        exact moves_syscall hsane ⟨hr, hi.1, hx⟩ frame call hi.2
  | fault cpu smashed =>
    rw [step]
    split
    · rename_i i hr
      rw [processHandleUserFault]
      split_ifs with hs
      · exact hrefl
      · have hx : (t.procs i).state ≠ .exited := fun hx => hs (.inr hx)
        obtain ⟨hi, hacts, hcanary, hdie, hleave⟩ := h i hr hx
        have hx' : ((kstackCanaryCheck cpu smashed t).procs i).state ≠ .exited :=
          fun h => hx ((canaryCheck_exited hi).mp h)
        exact hend (((moves_canaryCheck hcanary).trans (moves_die hx' (.inr ⟨cpu, canaryCheck_runs hi hr, hacts, hx'⟩)
          hdie)).trans (moves_returnToScheduler hleave))
    · exact hrefl
  | preempt cpu frame =>
    rw [step]
    split
    · rename_i i hr
      obtain ⟨hacts, hleave⟩ := h i hr
      exact hend (.head (.preempt rfl hr hacts frame) (moves_returnToScheduler hleave))
    · exact hrefl
  | wakeReady due => exact ⟨none, .single (.wakeReady due), nofun⟩
  | wakeTty pid n =>
    rw [step, processWakeTtyReader]
    split
    · exact hrefl
    · split_ifs with hs
      · exact hrefl
      · exact ⟨none, .single (.wakeTty n (not_not.mp hs)), nofun⟩
  | spawnDesktop ops object uid found out =>
    exact ⟨none, (moves_spawnPath hsane ops object uid found h out).1, nofun⟩
  | killDesktop cpu pid => exact ⟨none, moves_kill h, nofun⟩

lemma searchOk_of_state (hn : P.creates t.nextPid) (h : ∀ r, (t.procs r).state ≠ .exited) : SearchOk P t :=
  ⟨hn, fun r _ _ hx => absurd hx (h r.1)⟩

end

/-! ### Calls that only write files, heap or user -/

/-- The process keeps everything but its files, its heap and its user. -/
structure SameRun (p q : Process) : Prop where
  loaded : q.loaded = p.loaded
  pid : q.pid = p.pid
  parentPid : q.parentPid = p.parentPid
  waitTargetPid : q.waitTargetPid = p.waitTargetPid
  exitCode : q.exitCode = p.exitCode
  state : q.state = p.state
  isThread : q.isThread = p.isThread
  userImage : q.userImage = p.userImage
  userPageTables : q.userPageTables = p.userPageTables
  runningOnCpu : q.runningOnCpu = p.runningOnCpu

lemma SameRun.refl (p : Process) : SameRun p p := ⟨rfl, rfl, rfl, rfl, rfl, rfl, rfl, rfl, rfl, rfl⟩

lemma SameRun.trans {p q r : Process} (h : SameRun p q) (h' : SameRun q r) : SameRun p r :=
  ⟨h'.loaded.trans h.loaded, h'.pid.trans h.pid, h'.parentPid.trans h.parentPid,
    h'.waitTargetPid.trans h.waitTargetPid, h'.exitCode.trans h.exitCode, h'.state.trans h.state,
    h'.isThread.trans h.isThread, h'.userImage.trans h.userImage, h'.userPageTables.trans h.userPageTables,
    h'.runningOnCpu.trans h.runningOnCpu⟩

/-- A change of the table that leaves every process, the ends, the answers and the CPUs as they are. -/
structure Housekeeping (t t' : ProcessTable) : Prop where
  procs : ∀ k, SameRun (t.procs k) (t'.procs k)
  nextPid : t'.nextPid = t.nextPid
  exits : t'.exits = t.exits
  waited : t'.waited = t.waited
  targets : t'.targets = t.targets
  slice : t'.slice = t.slice
  current : t'.current = t.current

section housekeeping

variable {t t' t'' : ProcessTable} (i : ProcSlot)

lemma Housekeeping.refl (t : ProcessTable) : Housekeeping t t := ⟨fun _ => .refl _, rfl, rfl, rfl, rfl, rfl, rfl⟩

lemma Housekeeping.trans (h : Housekeeping t t') (h' : Housekeeping t' t'') : Housekeeping t t'' :=
  ⟨fun k => (h.procs k).trans (h'.procs k), h'.nextPid.trans h.nextPid, h'.exits.trans h.exits,
    h'.waited.trans h.waited, h'.targets.trans h.targets, h'.slice.trans h.slice, h'.current.trans h.current⟩

lemma housekeeping_modify {f : Process → Process} (hf : ∀ p, SameRun p (f p)) : Housekeeping t (t.modify i f) := by
  exact ⟨rel_update SameRun.refl rfl (hf _), rfl, rfl, rfl, rfl, rfl, rfl⟩

lemma housekeeping_open (out : OpenOutcome) : Housekeeping t (processOpen t i out).2 := by
  unfold processOpen
  split_ifs
  · exact .refl t
  · split
    · exact .refl t
    · split
      · dsimp only
        exact housekeeping_modify i fun _ => by constructor <;> rfl
      · dsimp only
        exact housekeeping_modify i fun _ => by constructor <;> rfl

lemma housekeeping_closeFd (fd : Fin 16) : Housekeeping t (processCloseFd t i fd) := by
  unfold processCloseFd
  split
  · exact .refl t
  · exact housekeeping_modify i fun _ => by constructor <;> rfl
  · rename_i o k f hfd
    have hrelease : Housekeeping t (t.modify o fun p => { p with
        handles := update p.handles k (releaseVfsHandle (p.handles k)) }) :=
      housekeeping_modify o fun _ => by constructor <;> rfl
    exact hrelease.trans (housekeeping_modify i fun _ => by constructor <;> rfl)

lemma housekeeping_moveOffset (fd : Fin 16) (offset : Nat) : Housekeeping t (processMoveOffset t i fd offset) := by
  unfold processMoveOffset
  split
  · split_ifs
    · exact housekeeping_modify _ fun _ => by constructor <;> rfl
    · exact .refl t
  · exact .refl t

lemma housekeeping_sbrk (chunks : Nat) : Housekeeping t (processSbrk t i chunks) := by
  rw [processSbrk]
  split_ifs
  · exact .refl t
  · have h : Housekeeping t (t.modify (processAddressSpaceOwner t i) fun p => { p with
        heapChunks := p.heapChunks ++ List.range' t.nextAlloc chunks }) :=
      housekeeping_modify _ fun _ => by constructor <;> rfl
    exact ⟨h.procs, rfl, rfl, rfl, rfl, rfl, rfl⟩

lemma housekeeping_setuid (uid : Nat) : Housekeeping t (t.modify i fun p => { p with uid := uid }) :=
  housekeeping_modify i fun _ => by constructor <;> rfl

lemma housekeeping_desktopUid (uid : Nat) :
    Housekeeping t { t.modify 0 fun p => { p with uid := uid } with desktopUid := uid } :=
  ⟨(housekeeping_setuid 0 uid).procs, rfl, rfl, rfl, rfl, rfl, rfl⟩

lemma housekeeping_fds (fds : FdTable) : Housekeeping t (t.modify i fun p => { p with fds := fds }) :=
  housekeeping_modify i fun _ => by constructor <;> rfl

end housekeeping

/-! ### Invariants -/

section

variable {P : Policy} {c : Option Nat} {t t' : ProcessTable}

variable {I : ProcessTable → Prop}

lemma Moves.invariant (hmove : ∀ {t t'}, Move P c t t' → I t → I t')
    (h : Moves P c t t') (ht : I t) : I t' := by
  induction h with
  | refl => exact ht
  | tail _ hm ih => exact hmove hm ih

lemma Move.slices (h : Move P c t t') : (t'.slice = t.slice ∧ t'.current = t.current) ∨
    (∃ cpu, t'.slice = t.slice ∧ t'.current = update t.current cpu none) ∨
    (∃ cpu, t'.slice = update t.slice cpu none ∧ t'.current = t.current) ∨
    ∃ cpu i, t'.slice = update t.slice cpu (some i) ∧ t'.current = update t.current cpu (some i) := by
  cases h with
  | drop cpu => exact .inr (.inl ⟨cpu, rfl, rfl⟩)
  | leave h => exact .inr (.inr (.inl ⟨_, rfl, rfl⟩))
  | dispatch hc hs h =>
    rw [startSlice]
    split
    · exact .inl ⟨rfl, rfl⟩
    · exact .inr (.inr (.inr ⟨_, _, rfl, rfl⟩))
  | openFile h out => exact .inl ⟨(housekeeping_open _ out).slice, (housekeeping_open _ out).current⟩
  | closeFd h hp => exact .inl ⟨(housekeeping_closeFd _ _).slice, (housekeeping_closeFd _ _).current⟩
  | moveOffset h fd offset =>
    exact .inl ⟨(housekeeping_moveOffset _ fd offset).slice, (housekeeping_moveOffset _ fd offset).current⟩
  | sbrk h chunks => exact .inl ⟨(housekeeping_sbrk _ chunks).slice, (housekeeping_sbrk _ chunks).current⟩
  | _ => exact .inl ⟨rfl, rfl⟩

lemma CurrentOk.move (h : CurrentOk t) (hm : Move P c t t') : CurrentOk t' := by
  intro cpu i k hs hk
  rcases hm.slices with ⟨hs', hk'⟩ | ⟨l, hs', hk'⟩ | ⟨l, hs', hk'⟩ | ⟨l, m, hs', hk'⟩ <;>
    rw [hs'] at hs <;> rw [hk'] at hk
  · exact h cpu i k hs hk
  · by_cases hl : cpu = l
    · subst hl
      rw [update_self] at hk
      cases hk
    · rw [update_of_ne hl] at hk
      exact h cpu i k hs hk
  · by_cases hl : cpu = l
    · subst hl
      rw [update_self] at hs
      cases hs
    · rw [update_of_ne hl] at hs
      exact h cpu i k hs hk
  · by_cases hl : cpu = l
    · subst hl
      rw [update_self] at hs hk
      exact (Option.some.inj hk).symm.trans (Option.some.inj hs)
    · rw [update_of_ne hl] at hs hk
      exact h cpu i k hs hk

lemma KernelEvent.Obeys.sparesThreads {e : KernelEvent} (h : e.Obeys P t) : e.SparesThreads t := by
  cases e with
  | startSlice cpu smashed => exact fun hs => (h hs).1
  | fault cpu smashed => exact fun i hi hx => (h i hi hx).2.2.1.1
  | _ => trivial

lemma Steady.step (h : Steady t) (e : KernelEvent) (he : e.Obeys P t) : Steady (t.step e) := by
  obtain ⟨c, hmoves, -⟩ := step_moves h e he
  exact ⟨spaceInv_step h.space e he.sparesThreads, hmoves.invariant (fun hm ht => ht.move hm) h.current⟩

lemma steady_init (uids : ProcSlot → Nat) : Steady (processInit uids) :=
  ⟨spaceInv_init uids, fun _ _ _ hs => by cases hs⟩

lemma run_policy {uids : ProcSlot → Nat} {events : List KernelEvent}
    (hstep : ∀ t e, Steady t → I t → e.Obeys P t → I (t.step e)) (hinit : I (processInit uids))
    (h : Along step (fun t e => e.Obeys P t) (processInit uids) events) :
    Steady (run step (processInit uids) events) ∧ I (run step (processInit uids) events) :=
  run_invariant (I := fun t => Steady t ∧ I t)
    (fun t e ht he => ⟨ht.1.step e he, hstep t e ht.1 ht.2 he⟩) ⟨steady_init uids, hinit⟩ h

end

end VibeOS
