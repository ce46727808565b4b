import VibeOS.Lib.Run

/-!
# The process table

The slots of `process.c` and the kernel entries that change them: spawning, threads, exit, faults, kill,
`waitpid`, the scheduler slice and the timer. A kernel entry is atomic (the big kernel lock), and the
user code of the CPUs interleaves between them, so a run is a list of `KernelEvent`s. What the kernel
learns from outside (whether an ELF image is valid, whether memory is left, which sleepers are due, which
kernel stacks have overflown) is part of the event.

Registers are kept as far as the kernel writes them (`rax`, `rdx`); the rest of a saved frame is one
number. Names, working directories, statistics and the floating point state are left out.

Other names are those of `kernel/src/process.c`.
-/

namespace VibeOS

open Function

/-- Source: `kernel/include/process.h` -/
abbrev PROCESS_MAX_COUNT : Nat := 48

/-- A position in `g_processes`. -/
abbrev ProcSlot := Fin PROCESS_MAX_COUNT

/-- Source: `kernel/include/process.h` `enum process_state` -/
inductive ProcessState where
  | empty
  | ready
  | running
  | sleeping
  | waiting
  | exited
  | waitingIo
deriving DecidableEq

/-- The saved registers: those that carry results, and the others as one value. -/
structure Context where
  rax : Nat
  rdx : Int
  rest : Nat
deriving DecidableEq

/-- Source: `kernel/include/process.h` `struct process_vfs_handle` -/
structure VfsHandle where
  file : Option Nat
  offset : Nat
  used : Bool
  kind : Nat
  path : List UInt8
  cachedIno : Nat
deriving DecidableEq

/-- The driver of a descriptor that is no file. -/
inductive FdOps where
  | stdio
  | tty
  | ptyMaster
  | ptySlave
deriving DecidableEq

/-- What `open` finds under a resolved path. -/
inductive OpenOutcome where
  | missing
  | embedded (file : Nat)
  | found (path : List UInt8) (ino : Nat)
deriving DecidableEq

/-- The target of a used descriptor. A file descriptor points into the handle array of a slot; `opened` is
what was opened under it.
Source: `kernel/include/fd.h` `struct fd_entry` -/
inductive FdObject where
  | device (ops : FdOps) (object : Nat)
  | vfs (owner : ProcSlot) (handle : Fin 8) (opened : OpenOutcome)
deriving DecidableEq

lemma slot_pos : 0 < PROCESS_MAX_COUNT := by decide

lemma fd_lt : 3 < 16 := by decide

/-- Source: `kernel/include/fd.h` `struct fd_table` -/
abbrev FdTable := Fin 16 → Option FdObject

/-- Source: `kernel/include/process.h` `struct process` -/
structure Process where
  pid : Nat
  parentPid : Nat
  waitTargetPid : Nat
  state : ProcessState
  loaded : Bool
  isThread : Bool
  uid : Nat
  exitCode : Int
  -- `user_image_allocation`, `0` for the null pointer
  userImage : Nat
  -- whose row of `g_user_page_tables` and of `g_proc_pml4`
  userPageTables : Option ProcSlot
  cr3 : Option ProcSlot
  heapChunks : List Nat
  runningOnCpu : Option Nat
  -- `kresume_rsp != 0`
  kresume : Bool
  context : Context
  fds : FdTable
  handles : Fin 8 → VfsHandle

/-- The globals of `process.c`. `freed` lists what was given back to the heaps, `slice` is the local
variable of `process_run_ready_slice` on each CPU and `cursor` its place in the round; `exits` lists the
parent, the process and the status of every end of a process. For every answer of `waitpid`, `waited` lists the
process that waited, the child and the status, and `targets` the pid that was waited for. -/
structure ProcessTable where
  procs : ProcSlot → Process
  nextPid : Nat
  desktopUid : Nat
  nextAlloc : Nat
  freed : List Nat
  exits : List (Nat × Nat × Int)
  waited : List (Nat × Nat × Int)
  targets : List Nat
  current : Nat → Option ProcSlot
  slice : Nat → Option ProcSlot
  cursor : Nat → Nat

namespace ProcessTable

def modify (t : ProcessTable) (i : ProcSlot) (f : Process → Process) : ProcessTable :=
  { t with procs := update t.procs i (f (t.procs i)) }

def setCurrent (t : ProcessTable) (cpu : Nat) (v : Option ProcSlot) : ProcessTable :=
  { t with current := update t.current cpu v }

def first (p : ProcSlot → Bool) : Option ProcSlot := (List.finRange PROCESS_MAX_COUNT).find? p

lemma first_spec {p : ProcSlot → Bool} {i : ProcSlot} (h : first p = some i) : p i = true :=
  List.find?_some h

lemma first_eq_none {p : ProcSlot → Bool} (h : first p = none) (i : ProcSlot) : p i = false := by
  simpa using List.find?_eq_none.mp h i (List.mem_finRange i)

section modify

variable (t : ProcessTable) {i j : ProcSlot} (f : Process → Process)

@[simp] lemma procs_modify_self : (t.modify i f).procs i = f (t.procs i) := update_self _ _ _

lemma procs_modify_of_ne (h : j ≠ i) : (t.modify i f).procs j = t.procs j :=
  update_of_ne h _ _

end modify

/-- What one process is related by, if every other is the same. -/
lemma rel_update {R : Process → Process → Prop} (hR : ∀ p, R p p) {t t' : ProcessTable} {i : ProcSlot} {p : Process}
    (ht : t'.procs = update t.procs i p) (hp : R (t.procs i) p) (j : ProcSlot) : R (t.procs j) (t'.procs j) := by
  rw [ht]
  by_cases hj : j = i
  · subst hj
    rw [update_self]
    exact hp
  · rw [update_of_ne hj]
    exact hR _

end ProcessTable

open ProcessTable

def processInit (uids : ProcSlot → Nat) : ProcessTable where
  procs i :=
    { pid := 0, parentPid := 0, waitTargetPid := 0, state := .empty, loaded := false, isThread := false,
      uid := uids i, exitCode := 0, userImage := 0, userPageTables := none, cr3 := none,
      heapChunks := [], runningOnCpu := none, kresume := false, context := ⟨0, 0, 0⟩,
      fds := fun _ => none, handles := fun _ => ⟨none, 0, false, 0, [], 0⟩ }
  nextPid := 0
  desktopUid := 0
  nextAlloc := 1
  freed := []
  exits := []
  waited := []
  targets := []
  current := fun _ => none
  slice := fun _ => none
  cursor := fun _ => 0

/-! ### Slots -/

def processFindByPid (t : ProcessTable) (pid : Nat) : Option ProcSlot :=
  if pid = 0 then none else first fun i => (t.procs i).loaded && (t.procs i).pid == pid

def processFindExitedChild (t : ProcessTable) (parentPid target : Nat) : Option ProcSlot :=
  first fun i =>
    let p := t.procs i
    p.loaded && p.state == .exited && p.runningOnCpu == none && p.parentPid == parentPid &&
      (target == 0 || p.pid == target)

/-- Source: `process_reset_vfs_handles` -/
def resetVfsHandles (handles : Fin 8 → VfsHandle) : Fin 8 → VfsHandle := fun k =>
  { handles k with file := none, offset := 0, used := false }

/-- Give the image and the heap of a slot back, unless it borrows them.
Source: `process_reap`, `process_load_image_slot`, `process_free_heap_chunks` -/
def releaseImage (t : ProcessTable) (i : ProcSlot) : List Nat :=
  let p := t.procs i
  if !p.isThread ∧ p.userImage ≠ 0 then t.freed ++ p.heapChunks ++ [p.userImage] else t.freed

def processReap (t : ProcessTable) (i : ProcSlot) : ProcessTable :=
  { t.modify i fun p => { p with
      loaded := false, state := .empty, pid := 0, parentPid := 0, waitTargetPid := 0, exitCode := 0
      isThread := false, userImage := 0, userPageTables := none, cr3 := none, heapChunks := []
      handles := resetVfsHandles p.handles } with
    freed := releaseImage t i }

def processFindFreeSlot (t : ProcessTable) : Option (ProcSlot × ProcessTable) :=
  (first fun i => !(t.procs i).loaded || (t.procs i).state == .empty || (t.procs i).state == .exited).map fun i =>
    if !(t.procs i).loaded ∨ (t.procs i).state = .empty then (i, t) else (i, processReap t i)

/-! ### Creation -/

/-- How loading an image ends: the ELF file is refused, there is no memory for it, or it is loaded. -/
inductive LoadOutcome where
  | invalid
  | noMemory
  | ok
deriving DecidableEq

/-- The registers of a fresh process, and of one that runs nowhere. -/
def processSetupContext (p : Process) : Process :=
  { p with kresume := false, runningOnCpu := none, context := ⟨0, 0, 0⟩ }

def processLoadImageSlot (t : ProcessTable) (slot : ProcSlot) (fds : FdTable) (parentPid : Nat) :
    LoadOutcome → Bool × ProcessTable
  | .invalid => (false, t)
  | .noMemory =>
    (false, { t.modify slot fun p => { p with
        isThread := false, userImage := 0, heapChunks := if p.isThread ∨ p.userImage = 0 then
          p.heapChunks else [] } with
      freed := releaseImage t slot })
  | .ok =>
    (true, { t.modify slot fun p => processSetupContext { p with
        pid := (t.nextPid + 1) % 2 ^ 32, parentPid := parentPid, waitTargetPid := 0, state := .ready
        loaded := true, isThread := false, exitCode := 0, userImage := t.nextAlloc
        userPageTables := some slot, cr3 := some slot, heapChunks := []
        fds := fds, handles := resetVfsHandles p.handles } with
      nextPid := (t.nextPid + 1) % 2 ^ 32
      nextAlloc := t.nextAlloc + 1
      freed := releaseImage t slot })

/-- A table whose first three descriptors are one device. -/
def stdioTable (o : FdObject) : FdTable := fun k => if k.val < 3 then some o else none

/-- `found` says whether the program exists and could be read. -/
def processSpawnNamedFromParent (t : ProcessTable) (parent : ProcSlot) (found : Bool) (out : LoadOutcome) :
    Option ProcSlot × ProcessTable :=
  match processFindFreeSlot t with
  | none => (none, t)
  | some (slot, t) =>
    if !found then (none, t)
    else
      let r := processLoadImageSlot t slot (t.procs parent).fds (t.procs parent).pid out
      if !r.1 then (none, r.2)
      else
        let uid := if (r.2.procs parent).pid = 0 then r.2.desktopUid else (r.2.procs parent).uid
        (some slot, r.2.modify slot fun p => { p with uid := uid })

def processSpawnPath (t : ProcessTable) (stdio : FdObject) (uid : Nat) (found : Bool)
    (out : LoadOutcome) : Option ProcSlot × ProcessTable :=
  if !found then (none, t)
  else
    match processFindFreeSlot t with
    | none => (none, t)
    | some (slot, t) =>
      let r := processLoadImageSlot t slot (stdioTable stdio) 0 out
      if !r.1 then (none, r.2)
      else (some slot, r.2.modify slot fun p => { p with uid := uid })

/-- The new thread keeps the uid that the last tenant left in the slot. -/
def processCreateThread (t : ProcessTable) (parent : ProcSlot) (argsOk : Bool) : Option ProcSlot × ProcessTable :=
  if !argsOk then (none, t)
  else
    match processFindFreeSlot t with
    | none => (none, t)
    | some (slot, t) =>
      let q := t.procs parent
      (some slot, { t.modify slot fun p => processSetupContext { p with
          userPageTables := q.userPageTables, cr3 := q.cr3, userImage := q.userImage
          heapChunks := [], isThread := true, pid := (t.nextPid + 1) % 2 ^ 32
          parentPid := q.pid, waitTargetPid := 0, loaded := true, state := .ready, exitCode := 0
          fds := q.fds, handles := resetVfsHandles p.handles } with
        nextPid := (t.nextPid + 1) % 2 ^ 32 })

/-! ### The end of a process -/

/-- The wait of the process in `j` ends with the status of the one in `i`. -/
def answerWaiter (t : ProcessTable) (j i : ProcSlot) : ProcessTable :=
  let child := t.procs i
  { t with
    procs := update t.procs j { t.procs j with
      waitTargetPid := 0, state := .ready
      context := { (t.procs j).context with rax := child.pid, rdx := child.exitCode } }
    waited := t.waited ++ [((t.procs j).pid, child.pid, child.exitCode)]
    targets := t.targets ++ [(t.procs j).waitTargetPid] }

def processWakeWaiter (t : ProcessTable) (i : ProcSlot) : ProcessTable :=
  let child := t.procs i
  if child.parentPid = 0 then t
  else
    match processFindByPid t child.parentPid with
    | none => t
    | some j =>
      let parent := t.procs j
      if parent.state ≠ .waiting then t
      else if parent.waitTargetPid ≠ 0 ∧ parent.waitTargetPid ≠ child.pid then t
      else processReap (answerWaiter t j i) i

def markExited (t : ProcessTable) (i : ProcSlot) (code : Int) : ProcessTable :=
  { t.modify i fun p => { p with exitCode := code, state := .exited } with
    exits := t.exits ++ [((t.procs i).parentPid, (t.procs i).pid, code)] }

def dropCurrent (t : ProcessTable) (cpu : Nat) (i : ProcSlot) : ProcessTable :=
  if t.current cpu = some i then t.setCurrent cpu none else t

/-- One turn of the loop of `process_kill_sibling_threads`. -/
def killSibling (cpu : Nat) (owner : ProcSlot) (t : ProcessTable) (i : ProcSlot) : ProcessTable :=
  let p := t.procs i
  if i = owner ∨ !p.loaded ∨ !p.isThread then t
  else if p.state = .exited ∨ p.state = .empty then t
  else if p.userPageTables ≠ (t.procs owner).userPageTables then t
  else dropCurrent (processWakeWaiter (markExited t i (-1)) i) cpu i

def processKillSiblingThreads (cpu : Nat) (t : ProcessTable) (owner : ProcSlot) : ProcessTable :=
  if (t.procs owner).isThread ∨ (t.procs owner).userPageTables = none then t
  else (List.finRange PROCESS_MAX_COUNT).foldl (killSibling cpu owner) t

def processDie (cpu : Nat) (t : ProcessTable) (i : ProcSlot) (code : Int) : ProcessTable :=
  processWakeWaiter (processKillSiblingThreads cpu (markExited t i code) i) i

def processKill (cpu : Nat) (t : ProcessTable) (pid : Nat) : ProcessTable :=
  match processFindByPid t pid with
  | none => t
  | some i =>
    if (t.procs i).state = .empty ∨ (t.procs i).state = .exited then t
    else dropCurrent (processDie cpu t i (-1)) cpu i

/-- No kernel stack has overflown. -/
def intact : ProcSlot → Bool := fun _ => false

/-- One turn of the loop of `kstack_canary_check`; `smashed` has the slots whose stack has overflown. The process ends,
and its threads do not. -/
def canaryKill (cpu : Nat) (smashed : ProcSlot → Bool) (t : ProcessTable) (i : ProcSlot) : ProcessTable :=
  let p := t.procs i
  if !smashed i ∨ !p.loaded then t
  else if p.state = .exited ∨ p.state = .empty then t
  else dropCurrent (processWakeWaiter (markExited t i (-14)) i) cpu i

def kstackCanaryCheck (cpu : Nat) (smashed : ProcSlot → Bool) (t : ProcessTable) : ProcessTable :=
  (List.finRange PROCESS_MAX_COUNT).foldl (canaryKill cpu smashed) t

/-- One turn of the loop of `process_interrupt_terminal`. -/
def interruptWaiter (cpu : Nat) (object : Nat) (t : ProcessTable) (i : ProcSlot) : ProcessTable :=
  let p := t.procs i
  if !p.loaded ∨ p.isThread then t
  else if p.state ≠ .waiting ∨ p.waitTargetPid = 0 then t
  else
    match p.fds 0 with
    | some (.device _ o) => if o = object then processKill cpu t p.waitTargetPid else t
    | _ => t

def processInterruptTerminal (cpu : Nat) (t : ProcessTable) (object : Nat) : ProcessTable :=
  if object = 0 then t
  else (List.finRange PROCESS_MAX_COUNT).foldl (interruptWaiter cpu object) t

/-! ### Descriptors -/

/-- Source: `kernel/src/fd.c` `fd_alloc` with `start_fd` 3 -/
def fdAlloc (fds : FdTable) (o : FdObject) : Option (Fin 16 × FdTable) :=
  ((List.finRange 16).find? fun k => 3 ≤ k.val && (fds k).isNone).map fun k =>
    (k, update fds k (some o))

/-- Source: `process_release_vfs_handle` -/
def releaseVfsHandle (h : VfsHandle) : VfsHandle :=
  { h with file := none, offset := 0, used := false, kind := 0, path := [] }

/-- The handle of an opened file. Paths keep 63 bytes.
Source: `process_open_vfs_from_parent` -/
def openedHandle (h : VfsHandle) : OpenOutcome → VfsHandle
  | .missing => h
  | .embedded file => { h with file := some file, offset := 0, used := true, kind := 0, path := [] }
  | .found path ino =>
    { h with file := none, offset := 0, used := true, kind := 1, path := path.take 63, cachedIno := ino }

/-- Source: `process_open_vfs_from_parent` -/
def processOpen (t : ProcessTable) (i : ProcSlot) (out : OpenOutcome) : Option (Fin 16) × ProcessTable :=
  if out = .missing then (none, t)
  else
    match (List.finRange 8).find? fun k => !((t.procs i).handles k).used with
    | none => (none, t)
    | some k =>
      match fdAlloc (t.procs i).fds (.vfs i k out) with
      | none =>
        (none, t.modify i fun p => { p with
          handles := update p.handles k
            (releaseVfsHandle (openedHandle (p.handles k) out)) })
      | some (fd, fds) =>
        (some fd, t.modify i fun p => { p with
          fds := fds, handles := update p.handles k (openedHandle (p.handles k) out) })

def processCloseFd (t : ProcessTable) (i : ProcSlot) (fd : Fin 16) : ProcessTable :=
  match (t.procs i).fds fd with
  | none => t
  | some (.device _ _) => t.modify i fun p => { p with fds := update p.fds fd none }
  | some (.vfs o k _) =>
    (t.modify o fun p => { p with
      handles := update p.handles k (releaseVfsHandle (p.handles k)) }).modify i fun p =>
        { p with fds := update p.fds fd none }

/-- A read, a write or a seek moves the offset of the handle.
Source: `process_vfs_read`, `process_vfs_write`, `SYS_SEEK` -/
def processMoveOffset (t : ProcessTable) (i : ProcSlot) (fd : Fin 16) (offset : Nat) : ProcessTable :=
  match (t.procs i).fds fd with
  | some (.vfs o k _) =>
    if ((t.procs o).handles k).used then
      t.modify o fun p => { p with
        handles := update p.handles k { p.handles k with offset := offset } }
    else t
  | _ => t

def processAddressSpaceOwner (t : ProcessTable) (i : ProcSlot) : ProcSlot :=
  if !(t.procs i).isThread then i
  else (first fun j => (t.procs j).loaded && !(t.procs j).isThread &&
    (t.procs j).userPageTables == (t.procs i).userPageTables &&
    (t.procs j).cr3 == (t.procs i).cr3).getD i

/-- A growth of the heap that the kernel backs with `chunks` new allocations. -/
def processSbrk (t : ProcessTable) (i : ProcSlot) (chunks : Nat) : ProcessTable :=
  let o := processAddressSpaceOwner t i
  if (t.procs o).userPageTables = none ∨ (t.procs o).userImage = 0 then t
  else
    { t.modify o fun p => { p with
        heapChunks := p.heapChunks ++ List.range' t.nextAlloc chunks } with
      nextAlloc := t.nextAlloc + chunks }

/-! ### Kernel entries -/

/-- The system calls that touch the process table, with what they find outside it. -/
inductive Syscall where
  | yield
  | exit (code : Int)
  | spawn (found : Bool) (out : LoadOutcome)
  | ptyOpen (pty : Nat)
  | spawnPty (fd : Fin 16) (found : Bool) (out : LoadOutcome)
  | ptyInterrupt (fd : Fin 16)
  | threadCreate (argsOk : Bool)
  | waitpid (pid : Nat)
  | sleep
  | ttyWait
  | block
  | windowmgrStart
  | kill (pid : Nat)
  | setuid (uid : Nat)
  | sbrk (chunks : Nat)
  | open (out : OpenOutcome)
  | close (fd : Fin 16)
  | moveOffset (fd : Fin 16) (offset : Nat)

/-- The rest of `process_run_ready_slice` after the process came back. -/
def endSlice (t : ProcessTable) (cpu : Nat) (i : ProcSlot) : ProcessTable :=
  let t := t.modify i fun p => { p with runningOnCpu := none }
  let t := if (t.procs i).state = .exited then processWakeWaiter t i else t
  { t with slice := update t.slice cpu none }

/-- A kernel entry that does not return to user mode. The lock is held up to the end of the slice, so the
slice ends with it.
Source: `kernel/src/interrupt_stubs.S` `process_run_slice_return` -/
def returnToScheduler (t : ProcessTable) (cpu : Nat) : ProcessTable :=
  let t := t.setCurrent cpu none
  match t.slice cpu with
  | none => t
  | some i => endSlice t cpu i

/-- A system call that saves the registers and gives the CPU back in another state. -/
def descheduled (t : ProcessTable) (cpu : Nat) (i : ProcSlot) (state : ProcessState) (frame : Context) : ProcessTable :=
  returnToScheduler (t.modify i fun p => { p with state := state, context := frame }) cpu

/-- `i` is the current process of the CPU and `frame` its registers. -/
def syscallHandleInterrupt (t : ProcessTable) (cpu : Nat) (i : ProcSlot) (frame : Context)
    (call : Syscall) : ProcessTable :=
  if (t.procs i).state = .exited then returnToScheduler t cpu
  else
    match call with
    | .yield => descheduled t cpu i .ready { frame with rax := 0 }
    | .exit code => returnToScheduler (processDie cpu t i code) cpu
    | .spawn found out => (processSpawnNamedFromParent t i found out).2
    | .ptyOpen pty =>
      match fdAlloc (t.procs i).fds (.device .ptyMaster pty) with
      | none => t
      | some (_, fds) => t.modify i fun p => { p with fds := fds }
    | .spawnPty fd found out =>
      match (t.procs i).fds fd with
      | some (.device .ptyMaster pty) =>
        let r := processSpawnPath t (.device .ptySlave pty) (t.procs i).uid found out
        match r.1 with
        | none => r.2
        -- process_find_by_pid finds the child by its pid
        | some slot =>
          match processFindByPid r.2 (r.2.procs slot).pid with
          | none => r.2
          | some j => r.2.modify j fun p => { p with parentPid := (r.2.procs i).pid }
      | _ => t
    | .ptyInterrupt fd =>
      match (t.procs i).fds fd with
      | some (.device .ptyMaster pty) => processInterruptTerminal cpu t pty
      | _ => t
    | .threadCreate argsOk => (processCreateThread t i argsOk).2
    | .waitpid pid =>
      match processFindExitedChild t (t.procs i).pid pid with
      | some j =>
        processReap { t with
          waited := t.waited ++ [((t.procs i).pid, (t.procs j).pid, (t.procs j).exitCode)]
          targets := t.targets ++ [pid] } j
      | none =>
        descheduled (t.modify i fun p => { p with waitTargetPid := pid }) cpu i .waiting
          { frame with rax := 0, rdx := 0 }
    | .sleep => descheduled t cpu i .sleeping { frame with rax := 0 }
    | .ttyWait => descheduled t cpu i .waitingIo frame
    | .block => endSlice (t.modify i fun p => { p with state := .waitingIo, kresume := true }) cpu i
    | .windowmgrStart =>
      { t.modify 0 fun p => { p with uid := (t.procs i).uid } with desktopUid := (t.procs i).uid }
    | .kill pid =>
      match processFindByPid t pid with
      | none => t
      | some j =>
        if (t.procs j).state = .empty then t
        else if (t.procs i).uid ≠ 0 ∧ (t.procs i).uid ≠ (t.procs j).uid then t
        else
          let t := processKill cpu t pid
          if t.current cpu = none then returnToScheduler t cpu else t
    | .setuid uid =>
      if (t.procs i).uid ≠ 0 ∧ uid ≠ (t.procs i).uid then t
      else t.modify i fun p => { p with uid := uid }
    | .sbrk chunks => processSbrk t i chunks
    | .open out => (processOpen t i out).2
    | .close fd => processCloseFd t i fd
    | .moveOffset fd offset => processMoveOffset t i fd offset

def processPickNextReady (t : ProcessTable) (cpu : Nat) : Option ProcSlot :=
  ((List.range PROCESS_MAX_COUNT).map fun k =>
    (⟨(t.cursor cpu + k) % PROCESS_MAX_COUNT, Nat.mod_lt _ (by decide)⟩ : ProcSlot)).find? fun i =>
      (t.procs i).runningOnCpu == none &&
        ((t.procs i).state == .ready || (t.procs i).state == .waitingIo && (t.procs i).kresume)

/-- The choice of a process and the switch into it. -/
def startSlice (t : ProcessTable) (cpu : Nat) : ProcessTable :=
  match processPickNextReady t cpu with
  | none => t
  | some i =>
    { (t.modify i fun p => { p with
        state := .running, runningOnCpu := some cpu, kresume := false }).setCurrent cpu (some i) with
      cursor := update t.cursor cpu ((i.val + 1) % PROCESS_MAX_COUNT)
      slice := update t.slice cpu (some i) }

/-- `process_run_ready_slice` up to the switch into the process. -/
def processRunReadySlice (t : ProcessTable) (cpu : Nat) (smashed : ProcSlot → Bool) : ProcessTable :=
  startSlice (kstackCanaryCheck cpu smashed t) cpu

def processHandleUserFault (t : ProcessTable) (cpu : Nat) (i : ProcSlot) (smashed : ProcSlot → Bool) : ProcessTable :=
  if (t.procs i).state = .empty ∨ (t.procs i).state = .exited then t
  else returnToScheduler (processDie cpu (kstackCanaryCheck cpu smashed t) i (-14)) cpu

def processWakeReady (t : ProcessTable) (due : ProcSlot → Bool) : ProcessTable :=
  { t with procs := fun i =>
      if (t.procs i).state = .sleeping ∧ due i then { t.procs i with state := .ready } else t.procs i }

/-- A timer tick that interrupts user code.
Source: `timer_handle_interrupt`, `process_ap_timer` -/
def timerPreempt (t : ProcessTable) (cpu : Nat) (i : ProcSlot) (frame : Context) : ProcessTable :=
  returnToScheduler (t.modify i fun p => { p with
    context := frame, state := if p.state = .exited then .exited else .ready }) cpu

def processWakeTtyReader (t : ProcessTable) (pid n : Nat) : ProcessTable :=
  match processFindByPid t pid with
  | none => t
  | some i =>
    if (t.procs i).state ≠ .waitingIo then t
    else t.modify i fun p => { p with state := .ready, context := { p.context with rax := n } }

/-- One kernel entry; `smashed` has the slots whose kernel stack has overflown. `orphanCall` is a call of a process that
interrupted its own terminal and so runs on without being `g_current_process`; `spawnDesktop` and `killDesktop` are
calls of the desktop and of the boot code. -/
inductive KernelEvent where
  | startSlice (cpu : Nat) (smashed : ProcSlot → Bool)
  | orphanCall (cpu : Nat)
  | syscall (cpu : Nat) (frame : Context) (call : Syscall)
  | fault (cpu : Nat) (smashed : ProcSlot → Bool)
  | preempt (cpu : Nat) (frame : Context)
  | wakeReady (due : ProcSlot → Bool)
  | wakeTty (pid n : Nat)
  | spawnDesktop (ops : FdOps) (object uid : Nat) (found : Bool) (out : LoadOutcome)
  | killDesktop (cpu pid : Nat)

/-- The process whose user code a CPU executes: it has been dispatched and not yet come back. -/
def ProcessTable.runs (t : ProcessTable) (cpu : Nat) : Option ProcSlot :=
  match t.slice cpu with
  | none => none
  | some _ => t.current cpu

def ProcessTable.step (t : ProcessTable) : KernelEvent → ProcessTable
  | .startSlice cpu smashed => if t.slice cpu = none then processRunReadySlice t cpu smashed else t
  | .orphanCall cpu => if t.current cpu = none then returnToScheduler t cpu else t
  | .syscall cpu frame call =>
    match t.runs cpu with
    | some i => syscallHandleInterrupt t cpu i frame call
    | none => t
  | .fault cpu smashed =>
    match t.runs cpu with
    | some i => processHandleUserFault t cpu i smashed
    | none => t
  | .preempt cpu frame =>
    match t.runs cpu with
    | some i => timerPreempt t cpu i frame
    | none => t
  | .wakeReady due => processWakeReady t due
  | .wakeTty pid n => processWakeTtyReader t pid n
  | .spawnDesktop ops object uid found out =>
    (processSpawnPath t (.device ops object) uid found out).2
  | .killDesktop cpu pid => processKill cpu t pid

/-! ### What the searches and the hand-over do -/

section

variable {t t' : ProcessTable} {i j : ProcSlot} {pid : Nat}

lemma findByPid_spec (h : processFindByPid t pid = some i) :
    pid ≠ 0 ∧ (t.procs i).loaded = true ∧ (t.procs i).pid = pid := by
  rw [processFindByPid] at h
  split_ifs at h with h0
  have hspec := first_spec h
  simp only [Bool.and_eq_true, beq_iff_eq] at hspec
  exact ⟨h0, hspec⟩

lemma procs_processReap_of_ne (hj : j ≠ i) : (processReap t i).procs j = t.procs j :=
  update_of_ne hj _ _

/-- The slot search: a slot that is unused, or one that has exited and is reaped. -/
lemma findFreeSlot_cases (h : processFindFreeSlot t = some (i, t')) :
    (((t.procs i).loaded = false ∨ (t.procs i).state = .empty) ∧ t' = t) ∨
    ((t.procs i).loaded = true ∧ (t.procs i).state = .exited ∧ t' = processReap t i) := by
  obtain ⟨j, hj, heq⟩ := Option.map_eq_some_iff.mp h
  have hspec := first_spec hj
  by_cases hfree : !(t.procs j).loaded ∨ (t.procs j).state = .empty
  · rw [if_pos hfree] at heq
    cases heq
    exact .inl ⟨by simpa using hfree, rfl⟩
  · rw [if_neg hfree] at heq
    cases heq
    simp only [not_or, Bool.not_eq_true, Bool.not_eq_false'] at hfree
    refine .inr ⟨hfree.1, ?_, rfl⟩
    simpa [hfree.1, hfree.2] using hspec

/-- The parent `j` waits for the process in `i`. -/
structure Waits (t : ProcessTable) (j i : ProcSlot) : Prop where
  loaded : (t.procs j).loaded = true
  pid : (t.procs j).pid = (t.procs i).parentPid
  pos : (t.procs i).parentPid ≠ 0
  state : (t.procs j).state = .waiting
  target : (t.procs j).waitTargetPid = 0 ∨ (t.procs j).waitTargetPid = (t.procs i).pid

/-- A process that ends is left alone, or handed to the parent that waits for it. -/
lemma wakeWaiter_cases (t : ProcessTable) (i : ProcSlot) : processWakeWaiter t i = t ∨
    ∃ j, Waits t j i ∧ processWakeWaiter t i = processReap (answerWaiter t j i) i := by
  rw [processWakeWaiter]
  by_cases h0 : (t.procs i).parentPid = 0
  · exact .inl (if_pos h0)
  · rw [if_neg h0]
    rcases hj : processFindByPid t (t.procs i).parentPid with _ | j
    · exact .inl rfl
    · dsimp only
      obtain ⟨-, hl, hpid⟩ := findByPid_spec hj
      by_cases hw : (t.procs j).state ≠ .waiting
      · exact .inl (if_pos hw)
      · rw [if_neg hw]
        by_cases ht : (t.procs j).waitTargetPid ≠ 0 ∧ (t.procs j).waitTargetPid ≠ (t.procs i).pid
        · exact .inl (if_pos ht)
        · rw [if_neg ht]
          exact .inr ⟨j, ⟨hl, hpid, h0, not_not.mp hw, by tauto⟩, rfl⟩

lemma Waits.ne (h : Waits t j i) (hi : (t.procs i).state ≠ .waiting) : i ≠ j := fun heq => by
  subst heq
  exact hi h.state

lemma procs_answerWaiter_of_ne {k : ProcSlot} (hk : k ≠ j) : (answerWaiter t j i).procs k = t.procs k :=
  update_of_ne hk _ _

lemma procs_answerWaiter_self : (answerWaiter t j i).procs j = { t.procs j with
      waitTargetPid := 0, state := .ready
      context := { (t.procs j).context with
        rax := (t.procs i).pid, rdx := (t.procs i).exitCode } } := update_self _ _ _

lemma procs_markExited_self (code : Int) :
    (markExited t i code).procs i = { t.procs i with exitCode := code, state := .exited } :=
  update_self _ _ _

lemma procs_markExited_of_ne {code : Int} (hj : j ≠ i) : (markExited t i code).procs j = t.procs j :=
  update_of_ne hj _ _

lemma step_syscall {cpu : Nat} (frame : Context) (call : Syscall) (hr : t.runs cpu = some i) :
    t.step (.syscall cpu frame call) = syscallHandleInterrupt t cpu i frame call := by
  rw [ProcessTable.step, hr]

lemma step_syscall_idle {cpu : Nat} (frame : Context) (call : Syscall) (hr : t.runs cpu = none) :
    t.step (.syscall cpu frame call) = t := by
  rw [ProcessTable.step, hr]

/-- A call of a process that has been killed meanwhile only gives the CPU back. -/
lemma syscall_of_exited (cpu : Nat) (frame : Context) (call : Syscall) (hx : (t.procs i).state = .exited) :
    syscallHandleInterrupt t cpu i frame call = returnToScheduler t cpu := by
  exact if_pos hx

end

end VibeOS
