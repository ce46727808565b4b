import VibeOS.Kernel.Kill

/-!
# Who holds a slot

Which slot a kernel entry fills (`KernelEvent.created`), and that the tenant of every other slot keeps its
identity: its pid, its `cr3`, its uid unless `SYS_SETUID` or `SYS_WINDOWMGR_START` writes it, and its
descriptors unless it opens or closes one itself (`step_stays`).
-/

namespace VibeOS

open ProcessTable Function

/-- A slot that is loaded was loaded before, with the same tenant, uid and descriptors. -/
def Stays (p q : Process) : Prop :=
  q.loaded = true → p.loaded = true ∧ q.pid = p.pid ∧ q.cr3 = p.cr3 ∧ q.uid = p.uid ∧ q.fds = p.fds

/-- The same, but for the uid if `u`, and but for the descriptors if `d`. -/
def StaysBut (u d : Prop) (p q : Process) : Prop :=
  q.loaded = true → p.loaded = true ∧ q.pid = p.pid ∧ q.cr3 = p.cr3 ∧ (¬ u → q.uid = p.uid) ∧ (¬ d → q.fds = p.fds)

section stays

variable {t t' : ProcessTable} {i j slot parent : ProcSlot} {cpu : Nat}

lemma Stays.refl (p : Process) : Stays p p := fun h => ⟨h, rfl, rfl, rfl, rfl⟩

lemma Stays.trans {p q r : Process} (h1 : Stays p q) (h2 : Stays q r) : Stays p r := fun h => by
  obtain ⟨hq, hpid, hcr3, hu, hf⟩ := h2 h
  obtain ⟨hp, hpid', hcr3', hu', hf'⟩ := h1 hq
  exact ⟨hp, hpid.trans hpid', hcr3.trans hcr3', hu.trans hu', hf.trans hf'⟩

lemma Stays.but {p q : Process} (h : Stays p q) (u d : Prop) : StaysBut u d p q := fun hl => by
  obtain ⟨hp, hpid, hcr3, hu, hf⟩ := h hl
  exact ⟨hp, hpid, hcr3, fun _ => hu, fun _ => hf⟩

lemma StaysBut.refl {u d : Prop} {p : Process} : StaysBut u d p p := (Stays.refl p).but u d

lemma Fades.stays (h : Fades t t') (j : ProcSlot) : Stays (t.procs j) (t'.procs j) := fun hl =>
  have hk := h j hl
  ⟨hk.loaded, hk.pid, hk.cr3, hk.uid, hk.fds⟩

lemma stays_update {p : Process} (j : ProcSlot) (h : t'.procs = update t.procs i p)
    (hp : Stays (t.procs i) p) : Stays (t.procs j) (t'.procs j) := rel_update Stays.refl h hp j

/-- A slot is written, but none of what says who holds it. -/
lemma stays_keep {p : Process} (i j : ProcSlot) (h : t'.procs = update t.procs i p)
    (hp : (p.loaded, p.pid, p.cr3, p.uid, p.fds) = ((t.procs i).loaded, (t.procs i).pid, (t.procs i).cr3,
      (t.procs i).uid, (t.procs i).fds)) : Stays (t.procs j) (t'.procs j) := by
  simp only [Prod.mk.injEq] at hp
  exact stays_update j h fun hl => ⟨hp.1 ▸ hl, hp.2⟩

lemma stays_endSlice : Stays (t.procs j) ((endSlice t cpu i).procs j) := by
  rw [endSlice]
  have hfirst : Stays (t.procs j) ((t.modify i fun p => { p with runningOnCpu := none }).procs j) :=
    stays_keep i j rfl (by rfl)
  split_ifs
  · exact hfirst.trans ((fades_wakeWaiter _ i).stays j)
  · exact hfirst

lemma stays_returnToScheduler : Stays (t.procs j) ((returnToScheduler t cpu).procs j) := by
  rw [returnToScheduler]
  split
  · exact Stays.refl _
  · exact stays_endSlice (t := t.setCurrent cpu none)

lemma stays_descheduled (state : ProcessState) (frame : Context) :
    Stays (t.procs j) ((descheduled t cpu i state frame).procs j) :=
  (stays_keep i j rfl (by rfl)).trans stays_returnToScheduler

lemma stays_startSlice : Stays (t.procs j) ((startSlice t cpu).procs j) := by
  rw [startSlice]
  rcases processPickNextReady t cpu with _ | i
  · exact Stays.refl _
  · exact stays_keep i j rfl (by rfl)

lemma stays_findFreeSlot (h : processFindFreeSlot t = some (slot, t')) : Stays (t.procs j) (t'.procs j) := by
  rcases findFreeSlot_cases h with ⟨-, rfl⟩ | ⟨-, -, rfl⟩
  · exact Stays.refl _
  · exact (fades_processReap t slot).stays j

lemma stays_loadImageSlot {fds : FdTable} {parentPid : Nat} {out : LoadOutcome}
    (h : j ≠ slot ∨ (processLoadImageSlot t slot fds parentPid out).1 = false) :
    Stays (t.procs j) ((processLoadImageSlot t slot fds parentPid out).2.procs j) := by
  cases out with
  | invalid => exact Stays.refl _
  | noMemory =>
    exact stays_keep slot j rfl (by rfl)
  | ok =>
    have heq : (processLoadImageSlot t slot fds parentPid .ok).2.procs j = t.procs j :=
      update_of_ne (h.resolve_right nofun) _ _
    rw [heq]
    exact Stays.refl _

/-- The end of both spawns: the image is loaded, and where that works the slot is completed by `f`. -/
lemma stays_loaded {fds : FdTable} {parentPid : Nat} {out : LoadOutcome} {f : Process → Process}
    {r : Option ProcSlot × ProcessTable} (hf : processFindFreeSlot t = some (slot, t'))
    (hr : r = if !(processLoadImageSlot t' slot fds parentPid out).1 then
        (none, (processLoadImageSlot t' slot fds parentPid out).2)
      else (some slot, (processLoadImageSlot t' slot fds parentPid out).2.modify slot f)) (hj : r.1 ≠ some j) :
    Stays (t.procs j) (r.2.procs j) := by
  subst hr
  by_cases hl : (processLoadImageSlot t' slot fds parentPid out).1
  · rw [if_neg (by simp [hl])] at hj ⊢
    have hne : j ≠ slot := fun h => hj (by rw [h])
    rw [procs_modify_of_ne _ _ hne]
    exact (stays_findFreeSlot hf).trans (stays_loadImageSlot (.inl hne))
  · rw [if_pos (by simp [hl])]
    exact (stays_findFreeSlot hf).trans (stays_loadImageSlot (.inr (by simpa using hl)))

lemma stays_spawnPath (stdio : FdObject) (uid : Nat) (found : Bool) (out : LoadOutcome)
    (hj : (processSpawnPath t stdio uid found out).1 ≠ some j) :
    Stays (t.procs j) ((processSpawnPath t stdio uid found out).2.procs j) := by
  unfold processSpawnPath at hj ⊢
  cases found with
  | false => exact Stays.refl _
  | true =>
    rcases hf : processFindFreeSlot t with _ | ⟨slot, t'⟩
    · exact Stays.refl _
    · rw [hf] at hj
      exact stays_loaded hf rfl hj

lemma stays_spawnNamed (found : Bool) (out : LoadOutcome)
    (hj : (processSpawnNamedFromParent t parent found out).1 ≠ some j) :
    Stays (t.procs j) ((processSpawnNamedFromParent t parent found out).2.procs j) := by
  unfold processSpawnNamedFromParent at hj ⊢
  rcases hf : processFindFreeSlot t with _ | ⟨slot, t'⟩
  · exact Stays.refl _
  · rw [hf] at hj
    cases found with
    | false => exact stays_findFreeSlot hf
    | true =>
      exact stays_loaded hf rfl hj

lemma stays_createThread (argsOk : Bool) (hj : (processCreateThread t parent argsOk).1 ≠ some j) :
    Stays (t.procs j) ((processCreateThread t parent argsOk).2.procs j) := by
  unfold processCreateThread at hj ⊢
  cases argsOk with
  | false => exact Stays.refl _
  | true =>
    rw [if_neg (by decide)] at hj ⊢
    rcases hf : processFindFreeSlot t with _ | ⟨slot, t'⟩
    · exact Stays.refl _
    · rw [hf] at hj
      have hne : j ≠ slot := fun h => hj (by rw [h])
      have heq : ∀ q : Process, update t'.procs slot q j = t'.procs j :=
        fun q => update_of_ne hne _ _
      dsimp only [ProcessTable.modify]
      rw [heq]
      exact stays_findFreeSlot hf

lemma spawnPath_created {stdio : FdObject} {uid : Nat} {found : Bool} {out : LoadOutcome}
    (h : (processSpawnPath t stdio uid found out).1 = some j) :
    found ∧ (∃ t', processFindFreeSlot t = some (j, t')) ∧
      ((processSpawnPath t stdio uid found out).2.procs j).uid = uid := by
  unfold processSpawnPath at h ⊢
  cases found with
  | false => cases h
  | true =>
    rcases hf : processFindFreeSlot t with _ | ⟨slot, t'⟩
    · rw [hf] at h
      cases h
    · rw [hf] at h
      dsimp only at h ⊢
      split_ifs at h ⊢
      cases h
      refine ⟨rfl, ⟨t', rfl⟩, ?_⟩
      rw [procs_modify_self]

/-- A thread keeps the uid that its slot has. -/
lemma createThread_created {argsOk : Bool} (h : (processCreateThread t i argsOk).1 = some j) :
    argsOk ∧ (∃ t', processFindFreeSlot t = some (j, t')) ∧
      ((processCreateThread t i argsOk).2.procs j).uid = (t.procs j).uid := by
  unfold processCreateThread at h ⊢
  cases argsOk with
  | false => cases h
  | true =>
    rcases hf : processFindFreeSlot t with _ | ⟨slot, t'⟩
    · rw [hf] at h
      cases h
    · rw [hf] at h
      cases h
      refine ⟨rfl, ⟨t', rfl⟩, ?_⟩
      have huid : (t'.procs j).uid = (t.procs j).uid := by
        rcases findFreeSlot_cases hf with ⟨-, rfl⟩ | ⟨-, -, rfl⟩
        · rfl
        · simp [processReap]
      rw [← huid]
      simp [processSetupContext]

end stays

/-! ### One kernel entry -/

def Syscall.created (t : ProcessTable) (i : ProcSlot) : Syscall → Option ProcSlot
  | .spawn found out => (processSpawnNamedFromParent t i found out).1
  | .spawnPty fd found out =>
    match (t.procs i).fds fd with
    | some (.device .ptyMaster pty) =>
      (processSpawnPath t (.device .ptySlave pty) (t.procs i).uid found out).1
    | _ => none
  | .threadCreate argsOk => (processCreateThread t i argsOk).1
  | _ => none

/-- The creator, unless it is the desktop, and the slot that is filled. -/
def KernelEvent.created (t : ProcessTable) : KernelEvent → Option (Option ProcSlot × ProcSlot)
  | .syscall cpu _ call =>
    match t.runs cpu with
    | some i =>
      if (t.procs i).state = .exited then none else (call.created t i).map fun j => (some i, j)
    | none => none
  | .spawnDesktop ops object uid found out =>
    (processSpawnPath t (.device ops object) uid found out).1.map fun j => (none, j)
  | _ => none

/-- The call writes the uid of slot `j`. -/
def Syscall.WritesUid (i j : ProcSlot) : Syscall → Prop
  | .setuid _ => j = i
  | .windowmgrStart => j = ⟨0, slot_pos⟩
  | _ => False

/-- The call changes the descriptors of slot `j`. -/
def Syscall.WritesFds (i j : ProcSlot) : Syscall → Prop
  | .open _ => j = i
  | .close _ => j = i
  | .ptyOpen _ => j = i
  | _ => False

section step

variable {t : ProcessTable} {i j : ProcSlot}

lemma staysBut_update {t' : ProcessTable} {u d : Prop} {p : Process}
    (h : t'.procs = update t.procs i p) (hp : j = i → StaysBut u d (t.procs i) p) :
    StaysBut u d (t.procs j) (t'.procs j) := by
  rw [h]
  by_cases hj : j = i
  · rw [hj, update_self]
    exact hp hj
  · rw [update_of_ne hj]
    exact (Stays.refl _).but u d

open StaysBut

lemma staysBut_open (out : OpenOutcome) : StaysBut False (j = i) (t.procs j) ((processOpen t i out).2.procs j) := by
  unfold processOpen
  split_ifs
  · exact refl
  · rcases (List.finRange 8).find? fun k => !((t.procs i).handles k).used with _ | k
    · exact refl
    · dsimp only
      rcases fdAlloc (t.procs i).fds (.vfs i k out) with _ | ⟨fd, fds⟩
      · exact (stays_keep i j rfl (by rfl)).but _ _
      · exact staysBut_update rfl fun hj hl => ⟨hl, rfl, rfl, fun _ => rfl, fun hn => absurd hj hn⟩

lemma staysBut_closeFd (fd : Fin 16) : StaysBut False (j = i) (t.procs j) ((processCloseFd t i fd).procs j) := by
  unfold processCloseFd
  rcases (t.procs i).fds fd with _ | ⟨ops, o⟩ | ⟨o, k, f⟩
  · exact refl
  · exact staysBut_update rfl fun hj hl => ⟨hl, rfl, rfl, fun _ => rfl, fun hn => absurd hj hn⟩
  · intro hl
    have hrelease : Stays (t.procs j) ((t.modify o fun p => { p with
        handles := update p.handles k (releaseVfsHandle (p.handles k)) }).procs j) :=
      stays_keep o j rfl (by rfl)
    have hclose : StaysBut False (j = i) ((t.modify o fun p => { p with
        handles := update p.handles k (releaseVfsHandle (p.handles k)) }).procs j)
        (((t.modify o fun p => { p with
          handles := update p.handles k (releaseVfsHandle (p.handles k)) }).modify i fun p =>
            { p with fds := update p.fds fd none }).procs j) :=
      staysBut_update rfl fun hj hl => ⟨hl, rfl, rfl, fun _ => rfl, fun hn => absurd hj hn⟩
    obtain ⟨hl', hpid, hcr3, hu, hf⟩ := hclose hl
    obtain ⟨hl0, hpid0, hcr30, hu0, hf0⟩ := hrelease hl'
    exact ⟨hl0, hpid.trans hpid0, hcr3.trans hcr30, fun hn => (hu hn).trans hu0, fun hn => (hf hn).trans hf0⟩

lemma stays_spawnPty (cpu : Nat) (frame : Context) (fd : Fin 16) (found : Bool) (out : LoadOutcome)
    (hx : (t.procs i).state ≠ .exited) (hj : (Syscall.spawnPty fd found out).created t i ≠ some j) :
    Stays (t.procs j) ((syscallHandleInterrupt t cpu i frame (.spawnPty fd found out)).procs j) := by
  unfold syscallHandleInterrupt
  unfold Syscall.created at hj
  rw [if_neg hx]
  dsimp only at hj ⊢
  rcases hfd : (t.procs i).fds fd with _ | ⟨_ | _ | _ | _, pty⟩ | ⟨o, k, f⟩
  case some.device.ptyMaster =>
    rw [hfd] at hj
    have hspawn := stays_spawnPath (.device .ptySlave pty) (t.procs i).uid found out hj
    dsimp only
    generalize processSpawnPath t (.device .ptySlave pty) (t.procs i).uid found out = r at hspawn ⊢
    obtain ⟨r1, t'⟩ := r
    rcases r1 with _ | slot
    · exact hspawn
    · dsimp only
      rcases processFindByPid t' (t'.procs slot).pid with _ | k
      · exact hspawn
      · exact hspawn.trans (stays_keep k j rfl (by rfl))
  all_goals exact Stays.refl _

lemma syscall_stays (cpu : Nat) (frame : Context) (call : Syscall)
    (hx : (t.procs i).state ≠ .exited) (hj : call.created t i ≠ some j) :
    StaysBut (call.WritesUid i j) (call.WritesFds i j) (t.procs j)
      ((syscallHandleInterrupt t cpu i frame call).procs j) := by
  have hpty := stays_spawnPty (t := t) (i := i) (j := j) cpu frame
  unfold syscallHandleInterrupt at hpty ⊢
  simp only [if_neg hx] at hpty ⊢
  cases call with
  | spawn found out => exact (stays_spawnNamed found out hj).but _ _
  | spawnPty fd found out => exact (hpty fd found out hx hj).but _ _
  | threadCreate argsOk => exact (stays_createThread argsOk hj).but _ _
  | setuid uid =>
    dsimp only
    split_ifs
    · exact refl
    · exact staysBut_update rfl fun hj hl => ⟨hl, rfl, rfl, fun hn => absurd hj hn, fun _ => rfl⟩
  | windowmgrStart =>
    exact staysBut_update rfl fun hj hl => ⟨hl, rfl, rfl, fun hn => absurd hj hn, fun _ => rfl⟩
  | kill pid =>
    dsimp only
    rcases processFindByPid t pid with _ | k
    · exact refl
    · dsimp only
      split_ifs
      · exact refl
      · exact refl
      · exact (((fades_kill cpu t pid).stays j).trans stays_returnToScheduler).but _ _
      · exact ((fades_kill cpu t pid).stays j).but _ _
  | ptyInterrupt fd =>
    dsimp only
    rcases (t.procs i).fds fd with _ | ⟨_ | _ | _ | _, pty⟩ | ⟨o, k, f⟩
    case some.device.ptyMaster => exact ((fades_interruptTerminal cpu t pty).stays j).but _ _
    all_goals exact refl
  | waitpid pid =>
    dsimp only
    rcases processFindExitedChild t (t.procs i).pid pid with _ | k
    · exact ((stays_keep i j rfl (by rfl)).trans (stays_descheduled _ _)).but _ _
    · exact ((fades_processReap _ k).stays j).but _ _
  | exit code => exact (((fades_die cpu t i code).stays j).trans stays_returnToScheduler).but _ _
  | ptyOpen pty =>
    dsimp only
    rcases fdAlloc (t.procs i).fds (.device .ptyMaster pty) with _ | ⟨fd, fds⟩
    · exact refl
    · exact staysBut_update rfl fun hj hl => ⟨hl, rfl, rfl, fun _ => rfl, fun hn => absurd hj hn⟩
  | «open» out => exact staysBut_open out
  | close fd => exact staysBut_closeFd fd
  | moveOffset fd offset =>
    dsimp only
    rw [processMoveOffset]
    rcases (t.procs i).fds fd with _ | ⟨_, _⟩ | ⟨o, k, f⟩
    · exact refl
    · exact refl
    · dsimp only
      split_ifs
      · exact (stays_keep o j rfl (by rfl)).but _ _
      · exact refl
  | sbrk chunks =>
    dsimp only
    rw [processSbrk]
    split_ifs
    · exact refl
    · exact (stays_keep _ j rfl (by rfl)).but _ _
  | block => exact ((stays_keep i j rfl (by rfl)).trans stays_endSlice).but _ _
  | yield | sleep | ttyWait => exact (stays_descheduled _ _).but _ _

/-- The entry is a call of the process in `i`. -/
def KernelEvent.CallOf (t : ProcessTable) (e : KernelEvent) (i : ProcSlot) (call : Syscall) : Prop :=
  ∃ cpu frame, e = .syscall cpu frame call ∧ t.runs cpu = some i

/-- A kernel entry keeps the tenant of every slot that it does not fill; a uid and the descriptors of a
slot change only in calls that write them. -/
lemma step_stays (e : KernelEvent) (hj : ∀ c, e.created t ≠ some (c, j)) :
    StaysBut (∃ i call, e.CallOf t i call ∧ call.WritesUid i j)
      (∃ i call, e.CallOf t i call ∧ call.WritesFds i j) (t.procs j) ((t.step e).procs j) := by
  cases e with
  | syscall cpu frame call =>
    rcases hr : t.runs cpu with _ | i
    · rw [step_syscall_idle frame call hr]
      exact refl
    · rw [step_syscall frame call hr]
      by_cases hx : (t.procs i).state = .exited
      · rw [syscall_of_exited cpu frame call hx]
        exact stays_returnToScheduler.but _ _
      · have hne : call.created t i ≠ some j := by
          intro hc
          refine hj (some i) ?_
          rw [KernelEvent.created, hr]
          dsimp only
          rw [if_neg hx, hc]
          rfl
        intro hl
        obtain ⟨hl0, hpid, hcr3, hu, hf⟩ := syscall_stays cpu frame call hx hne hl
        exact ⟨hl0, hpid, hcr3, fun hn => hu fun hw => hn ⟨i, call, ⟨cpu, frame, rfl, hr⟩, hw⟩,
          fun hn => hf fun hw => hn ⟨i, call, ⟨cpu, frame, rfl, hr⟩, hw⟩⟩
  | spawnDesktop ops object uid found out =>
    refine (stays_spawnPath (.device ops object) uid found out fun hc => hj none ?_).but _ _
    rw [KernelEvent.created, hc]
    rfl
  | startSlice cpu smashed =>
    rw [step]
    split_ifs
    · exact (((fades_canaryCheck cpu smashed t).stays j).trans stays_startSlice).but _ _
    · exact refl
  | orphanCall cpu =>
    rw [step]
    split_ifs
    · exact stays_returnToScheduler.but _ _
    · exact refl
  | fault cpu smashed =>
    rw [step]
    split
    · rw [processHandleUserFault]
      split_ifs
      · exact refl
      · exact (((fades_canaryCheck cpu smashed t).stays j).trans
          (((fades_die cpu _ _ (-14)).stays j).trans stays_returnToScheduler)).but _ _
    · exact refl
  | preempt cpu frame =>
    rw [step]
    split
    · exact ((stays_keep _ j rfl (by rfl)).trans stays_returnToScheduler).but _ _
    · exact refl
  | wakeReady due =>
    change StaysBut _ _ _ (if _ then _ else _)
    split_ifs
    · exact fun hl => ⟨hl, rfl, rfl, fun _ => rfl, fun _ => rfl⟩
    · exact refl
  | wakeTty pid n =>
    rw [step, processWakeTtyReader]
    split
    · exact refl
    · split_ifs
      · exact refl
      · exact (stays_keep _ j rfl (by rfl)).but _ _
  | killDesktop cpu pid => exact ((fades_kill cpu t pid).stays j).but _ _

end step

end VibeOS
