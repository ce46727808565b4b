import VibeOS.Kernel.Tenancy

/-!
# User ids

The uid that a new process or thread gets, and from it and `step_stays` the result `run_uid`: as long as
threads find their creator's uid in their slot, creators have not been reaped and `SYS_WINDOWMGR_START`
writes no foreign uid, every child has the uid of its creator, a uid changes only by `SYS_SETUID`, and root
never descends from another user.
-/

namespace VibeOS

open ProcessTable Function

section child

variable {t t' : ProcessTable} {i j slot parent : ProcSlot}

/-- The slot holds a process with a pid. -/
structure Alive (p : Process) : Prop where
  loaded : p.loaded = true
  pid : p.pid ≠ 0
  state : p.state ≠ .empty

lemma findFreeSlot_ne (hp : Alive (t.procs parent)) (hx : (t.procs parent).state ≠ .exited)
    (h : processFindFreeSlot t = some (slot, t')) : parent ≠ slot ∧ t'.procs parent = t.procs parent := by
  have hne : parent ≠ slot := by
    rintro rfl
    rcases findFreeSlot_cases h with ⟨hl | hs, -⟩ | ⟨-, hs, -⟩
    · rw [hp.loaded] at hl
      cases hl
    · exact hp.state hs
    · exact hx hs
  refine ⟨hne, ?_⟩
  rcases findFreeSlot_cases h with ⟨-, rfl⟩ | ⟨-, -, rfl⟩
  · rfl
  · exact procs_processReap_of_ne hne

lemma spawnNamed_uid (found : Bool) (out : LoadOutcome) (hp : Alive (t.procs parent))
    (hx : (t.procs parent).state ≠ .exited) (hj : (processSpawnNamedFromParent t parent found out).1 = some j) :
    ((processSpawnNamedFromParent t parent found out).2.procs j).uid = (t.procs parent).uid := by
  unfold processSpawnNamedFromParent at hj ⊢
  rcases hf : processFindFreeSlot t with _ | ⟨slot, t'⟩
  · rw [hf] at hj
    cases hj
  · obtain ⟨hne, hsame⟩ := findFreeSlot_ne hp hx hf
    rw [hf] at hj
    dsimp only at hj ⊢
    cases found with
    | false => cases hj
    | true =>
      rw [if_neg (by decide)] at hj ⊢
      cases out with
      | invalid => cases hj
      | noMemory => cases hj
      | ok =>
        cases hj
        have hkeep : (processLoadImageSlot t' j (t'.procs parent).fds (t'.procs parent).pid
            .ok).2.procs parent = t.procs parent := (update_of_ne hne _ _).trans hsame
        rw [if_neg (by simp [processLoadImageSlot])]
        rw [procs_modify_self]
        rw [hkeep, if_neg hp.pid]

lemma spawnPty_uid (cpu : Nat) (frame : Context) (fd : Fin 16) (found : Bool) (out : LoadOutcome)
    (hx : (t.procs i).state ≠ .exited) (hj : (Syscall.spawnPty fd found out).created t i = some j) :
    ((syscallHandleInterrupt t cpu i frame (.spawnPty fd found out)).procs j).uid = (t.procs i).uid := by
  unfold syscallHandleInterrupt
  unfold Syscall.created at hj
  rw [if_neg hx]
  dsimp only at hj ⊢
  rcases hfd : (t.procs i).fds fd with _ | ⟨_ | _ | _ | _, pty⟩ | ⟨o, k, f⟩ <;> rw [hfd] at hj
  case some.device.ptyMaster =>
    have hchild := (spawnPath_created hj).2.2
    dsimp only at hj ⊢
    generalize processSpawnPath t (.device .ptySlave pty) (t.procs i).uid found out = r at hj hchild ⊢
    obtain ⟨r1, t'⟩ := r
    subst hj
    dsimp only
    rcases processFindByPid t' (t'.procs j).pid with _ | k
    · exact hchild
    · by_cases hjk : j = k
      · subst hjk
        rw [procs_modify_self]
        exact hchild
      · rw [procs_modify_of_ne _ _ hjk]
        exact hchild
  all_goals cases hj

end child

/-! ### One kernel entry -/

/-- A creator holds its slot, a thread finds its creator's uid in its slot, and the uid that
`SYS_WINDOWMGR_START` writes into the first slot is that of its tenant. -/
def Syscall.KeepsUids (t : ProcessTable) (i : ProcSlot) : Syscall → Prop
  | .spawn _ _ => Alive (t.procs i)
  | .spawnPty _ _ _ => Alive (t.procs i)
  | .threadCreate _ =>
    Alive (t.procs i) ∧ ∀ r ∈ processFindFreeSlot t, (t.procs r.1).uid = (t.procs i).uid
  | .windowmgrStart => (t.procs ⟨0, slot_pos⟩).loaded = true → (t.procs ⟨0, slot_pos⟩).uid = (t.procs i).uid
  | _ => True

def KernelEvent.KeepsUids (t : ProcessTable) : KernelEvent → Prop
  | .syscall cpu _ call => ∀ i ∈ t.runs cpu, (t.procs i).state ≠ .exited → call.KeepsUids t i
  | _ => True

/-- The entry is a `SYS_SETUID` of the process in `j`. -/
def KernelEvent.SetsUid (t : ProcessTable) (e : KernelEvent) (j : ProcSlot) : Prop :=
  ∃ uid, e.CallOf t j (.setuid uid)

/-- A child has the uid of its creator, and any other uid changes only by the process's own
`SYS_SETUID`. -/
def KernelEvent.UidLaw (t : ProcessTable) (e : KernelEvent) : Prop :=
  (∀ i j, e.created t = some (some i, j) → ((t.step e).procs j).uid = (t.procs i).uid) ∧
  ∀ j, (t.procs j).loaded = true → ((t.step e).procs j).loaded = true →
    (∀ c, e.created t ≠ some (c, j)) → ((t.step e).procs j).uid ≠ (t.procs j).uid → e.SetsUid t j

section step

variable {t : ProcessTable} {i j : ProcSlot}

lemma syscall_child_uid (cpu : Nat) (frame : Context) (call : Syscall)
    (hx : (t.procs i).state ≠ .exited) (h : call.KeepsUids t i) (hj : call.created t i = some j) :
    (t.procs i).loaded = true ∧ ((syscallHandleInterrupt t cpu i frame call).procs j).uid = (t.procs i).uid := by
  cases call with
  | spawn found out =>
    have hchild := spawnNamed_uid found out h hx hj
    unfold syscallHandleInterrupt
    rw [if_neg hx]
    exact ⟨Alive.loaded h, hchild⟩
  | spawnPty fd found out => exact ⟨Alive.loaded h, spawnPty_uid cpu frame fd found out hx hj⟩
  | threadCreate argsOk =>
    obtain ⟨-, ⟨t', hf⟩, hu⟩ := createThread_created hj
    unfold syscallHandleInterrupt
    rw [if_neg hx]
    exact ⟨h.1.loaded, hu.trans (h.2 _ hf)⟩
  | _ => cases hj

lemma step_child_uid (e : KernelEvent) (h : e.KeepsUids t) (hc : e.created t = some (some i, j)) :
    (t.procs i).loaded = true ∧ ((t.step e).procs j).uid = (t.procs i).uid := by
  cases e with
  | syscall cpu frame call =>
    rw [KernelEvent.created] at hc
    rcases hr : t.runs cpu with _ | k
    · rw [hr] at hc
      cases hc
    · rw [hr] at hc
      dsimp only at hc
      split_ifs at hc with hx
      obtain ⟨l, hl, heq⟩ := Option.map_eq_some_iff.mp hc
      cases heq
      rw [step_syscall frame call hr]
      exact syscall_child_uid cpu frame call hx (h i hr hx) hl
  | spawnDesktop ops object uid found out =>
    obtain ⟨l, -, heq⟩ := Option.map_eq_some_iff.mp hc
    cases heq
  | _ => cases hc

lemma step_uid_eq (e : KernelEvent) (h : e.KeepsUids t) (hj : ∀ c, e.created t ≠ some (c, j))
    (hl : ((t.step e).procs j).loaded = true) :
    (t.procs j).loaded = true ∧ (((t.step e).procs j).uid = (t.procs j).uid ∨ e.SetsUid t j ∧ (t.procs j).uid = 0) := by
  obtain ⟨hl0, -, -, hu, -⟩ := step_stays e hj hl
  refine ⟨hl0, ?_⟩
  by_cases hw : ∃ i call, e.CallOf t i call ∧ call.WritesUid i j
  · obtain ⟨i, call, ⟨cpu, frame, rfl, hr⟩, hwrite⟩ := hw
    rw [step_syscall frame call hr]
    by_cases hx : (t.procs i).state = .exited
    · rw [syscall_of_exited cpu frame call hx]
      rw [step_syscall frame call hr, syscall_of_exited cpu frame call hx] at hl
      exact .inl (stays_returnToScheduler hl).2.2.2.1
    · have hk := h i hr hx
      unfold syscallHandleInterrupt
      rw [if_neg hx]
      cases call with
      | setuid uid =>
        cases hwrite
        dsimp only
        split_ifs with hdeny
        · exact .inl rfl
        · by_cases h0 : (t.procs j).uid = 0
          · exact .inr ⟨⟨uid, cpu, frame, rfl, hr⟩, h0⟩
          · refine .inl ?_
            rw [procs_modify_self]
            exact not_not.mp fun hne => hdeny ⟨h0, hne⟩
      | windowmgrStart =>
        cases hwrite
        refine .inl ?_
        exact (hk hl0).symm
      | _ => cases hwrite
  · exact .inl (hu hw)

lemma uidLaw_of_keepsUids (t : ProcessTable) (e : KernelEvent) (h : e.KeepsUids t) : e.UidLaw t := by
  refine ⟨fun i j hj => (step_child_uid e h hj).2, fun j _ hl hne hu => ?_⟩
  rcases (step_uid_eq e h hne hl).2 with heq | ⟨hset, -⟩
  · exact absurd heq hu
  · exact hset

end step

/-! ### Whole runs -/

/-- The table, and for each slot whether its tenant descends from a creator that was not root when it
created. -/
structure Lineage where
  table : ProcessTable
  lowly : ProcSlot → Bool

def Lineage.step (s : Lineage) (e : KernelEvent) : Lineage where
  table := s.table.step e
  lowly :=
    match e.created s.table with
    | none => s.lowly
    | some (none, j) => update s.lowly j false
    | some (some i, j) => update s.lowly j ((s.table.procs i).uid != 0 || s.lowly i)

def Lineage.init (uids : ProcSlot → Nat) : Lineage := ⟨processInit uids, fun _ => false⟩

/-- No root process descends from another user. -/
def Lineage.Unprivileged (s : Lineage) : Prop :=
  ∀ j, (s.table.procs j).loaded = true → s.lowly j = true → (s.table.procs j).uid ≠ 0

lemma unprivileged_step (s : Lineage) (e : KernelEvent) (h : s.Unprivileged)
    (he : e.KeepsUids s.table) : (s.step e).Unprivileged := by
  intro j hl hlow
  -- a slot that the entry does not fill keeps its mark
  have hold : (∀ c, e.created s.table ≠ some (c, j)) → s.lowly j = true → ((s.table.step e).procs j).uid ≠ 0 := by
    intro hne hlow
    obtain ⟨hl0, hu | ⟨-, h0⟩⟩ := step_uid_eq e he hne hl
    · rw [hu]
      exact h j hl0 hlow
    · exact absurd h0 (h j hl0 hlow)
  unfold Lineage.step at hlow
  rcases hc : e.created s.table with _ | ⟨_ | i, k⟩
  · rw [hc] at hlow
    exact hold (by simp [hc]) hlow
  · rw [hc] at hlow
    dsimp only at hlow
    by_cases hj : j = k
    · subst hj
      rw [update_self] at hlow
      cases hlow
    · rw [update_of_ne hj] at hlow
      exact hold (fun c hc' => hj (by rw [hc] at hc'; cases hc'; rfl)) hlow
  · rw [hc] at hlow
    dsimp only at hlow
    by_cases hj : j = k
    · subst hj
      obtain ⟨hli, hu⟩ := step_child_uid e he hc
      rw [update_self, Bool.or_eq_true] at hlow
      show ((s.table.step e).procs j).uid ≠ 0
      rw [hu]
      rcases hlow with hne | hlow
      · exact bne_iff_ne.mp hne
      · exact h i hli hlow
    · rw [update_of_ne hj] at hlow
      exact hold (fun c hc' => hj (by rw [hc] at hc'; cases hc'; rfl)) hlow

/-- In every run in which creators hold their slots, threads find their creator's uid and
`SYS_WINDOWMGR_START` writes no foreign uid, every entry obeys the law of uids, and in the state reached
no root process descends from another user. -/
theorem run_uid (uids : ProcSlot → Nat) (events : List KernelEvent)
    (h : Along Lineage.step (fun s e => e.KeepsUids s.table) (Lineage.init uids) events) :
    Along Lineage.step (fun s e => e.UidLaw s.table) (Lineage.init uids) events ∧
      (run Lineage.step (Lineage.init uids) events).Unprivileged :=
  ⟨h.mono fun (s : Lineage) e => uidLaw_of_keepsUids s.table e,
    run_invariant unprivileged_step (by intro j hl; cases hl) h⟩

/-- A process of user 5 starts a child and a thread in a slot that user 5 left. -/
def inheritRun : List KernelEvent :=
  [.spawnDesktop .tty 1 5 true .ok, .startSlice 0 intact,
    .syscall 0 ⟨0, 0, 0⟩ (.spawn true .ok), .syscall 0 ⟨0, 0, 0⟩ (.kill 2), .syscall 0 ⟨0, 0, 0⟩ (.threadCreate true)]

instance Alive.instDecidable (p : Process) : Decidable (Alive p) :=
  decidable_of_iff (p.loaded = true ∧ p.pid ≠ 0 ∧ p.state ≠ .empty)
    ⟨fun h => ⟨h.1, h.2.1, h.2.2⟩, fun h => ⟨h.1, h.2, h.3⟩⟩

instance Syscall.KeepsUids.instDecidable (t : ProcessTable) (i : ProcSlot) (call : Syscall) :
    Decidable (call.KeepsUids t i) := by
  unfold Syscall.KeepsUids
  cases call <;> infer_instance

instance KernelEvent.KeepsUids.instDecidable (t : ProcessTable) (e : KernelEvent) : Decidable (e.KeepsUids t) := by
  unfold KernelEvent.KeepsUids
  cases e <;> infer_instance

set_option maxRecDepth 8192 in
theorem run_uid_thread : Along Lineage.step (fun s e => e.KeepsUids s.table) (Lineage.init fun _ => 0) inheritRun ∧
      ((run Lineage.step (Lineage.init fun _ => 0) inheritRun).table.procs 1).isThread = true ∧
      Along Lineage.step (fun s e => e.UidLaw s.table) (Lineage.init fun _ => 0) inheritRun := by
  have h : Along Lineage.step (fun s e => e.KeepsUids s.table) (Lineage.init fun _ => 0)
      inheritRun := by
    decide
  exact ⟨h, by decide, (run_uid _ _ h).1⟩

/-- A process of user 5 starts a thread in a slot that has not been used since boot. -/
def threadRun : List KernelEvent :=
  [.spawnDesktop .tty 1 5 true .ok, .startSlice 0 intact, .syscall 0 ⟨0, 0, 0⟩ (.threadCreate true)]

/-- A thread of a process without privileges has uid 0. -/
theorem uid_fails : ¬ (run Lineage.step (Lineage.init fun _ => 0) threadRun).Unprivileged := by
  intro h
  exact h 1 (by decide) (by decide) (by decide)

end VibeOS
