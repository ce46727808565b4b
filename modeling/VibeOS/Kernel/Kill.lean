import VibeOS.Kernel.AddressSpace

/-!
# Who can end whose process

`SYS_PROCESS_KILL` compares uids, but a kill also takes the threads of its target along, and Ctrl+C on a
terminal kills whatever pid a process that waits on it has named. `kill_ended` says which slots a kill
ends; `run_kill_own` is the result: where the named processes and their threads belong to the caller,
nothing else ends.
-/

namespace VibeOS

open ProcessTable SameSpace

/-- The slot held a process that had not exited, and holds one that has, or none. -/
def Ended (t t' : ProcessTable) (j : ProcSlot) : Prop :=
  (t.procs j).loaded = true ∧ (t.procs j).state ≠ .exited ∧ ((t'.procs j).loaded = false ∨ (t'.procs j).state = .exited)

/-- A slot that is still loaded keeps its identity, and a wait that is still on is the same. -/
structure Keeps (p q : Process) : Prop where
  loaded : p.loaded = true
  pid : q.pid = p.pid
  parentPid : q.parentPid = p.parentPid
  isThread : q.isThread = p.isThread
  tables : q.userPageTables = p.userPageTables
  cr3 : q.cr3 = p.cr3
  uid : q.uid = p.uid
  fds : q.fds = p.fds
  waiting : q.state = .waiting → p.state = .waiting ∧ q.waitTargetPid = p.waitTargetPid

def Fades (t t' : ProcessTable) : Prop :=
  ∀ j, (t'.procs j).loaded = true → Keeps (t.procs j) (t'.procs j)

section fades

variable {t t' t'' : ProcessTable} {i j k o : ProcSlot} {cpu pid : Nat}

lemma Fades.refl (t : ProcessTable) : Fades t t := fun _ hl =>
  ⟨hl, rfl, rfl, rfl, rfl, rfl, rfl, rfl, fun h => ⟨h, rfl⟩⟩

lemma Fades.trans (h1 : Fades t t') (h2 : Fades t' t'') : Fades t t'' := fun j hl => by
  have h := h2 j hl
  have h' := h1 j h.loaded
  refine ⟨h'.loaded, h.pid.trans h'.pid, h.parentPid.trans h'.parentPid, h.isThread.trans h'.isThread, h.tables.trans
    h'.tables, h.cr3.trans h'.cr3, h.uid.trans h'.uid, h.fds.trans h'.fds, fun hw => ?_⟩
  obtain ⟨hw1, ht1⟩ := h.waiting hw
  obtain ⟨hw2, ht2⟩ := h'.waiting hw1
  exact ⟨hw2, ht1.trans ht2⟩

lemma fades_of_procs (h : t'.procs = t.procs) : Fades t t' := by
  intro j hl
  rw [h] at hl ⊢
  exact Fades.refl t j hl

variable (t)

lemma fades_markExited (i : ProcSlot) (code : Int) : Fades t (markExited t i code) := by
  intro j hl
  by_cases hj : j = i
  · subst hj
    rw [procs_markExited_self] at hl ⊢
    exact ⟨hl, rfl, rfl, rfl, rfl, rfl, rfl, rfl, nofun⟩
  · rw [procs_markExited_of_ne hj] at hl ⊢
    exact Fades.refl t j hl

lemma fades_processReap (i : ProcSlot) : Fades t (processReap t i) := by
  intro j hl
  by_cases hj : j = i
  · subst hj
    simp [processReap] at hl
  · rw [procs_processReap_of_ne hj] at hl ⊢
    exact Fades.refl t j hl

lemma fades_wakeWaiter (i : ProcSlot) : Fades t (processWakeWaiter t i) := by
  rcases wakeWaiter_cases t i with heq | ⟨j, hj, heq⟩
  · rw [heq]
    exact Fades.refl t
  · rw [heq]
    refine Fades.trans (fun k hl => ?_) (fades_processReap _ i)
    by_cases hk : k = j
    · subst hk
      rw [procs_answerWaiter_self] at hl ⊢
      exact ⟨hl, rfl, rfl, rfl, rfl, rfl, rfl, rfl, nofun⟩
    · rw [procs_answerWaiter_of_ne hk] at hl ⊢
      exact Fades.refl t k hl

variable {t}

/-- The thread in `j` goes with the owner in `o`. -/
structure Sibling (t : ProcessTable) (o j : ProcSlot) : Prop where
  loaded : (t.procs j).loaded = true
  isThread : (t.procs j).isThread = true
  owner : (t.procs o).isThread = false
  tables : (t.procs j).userPageTables = (t.procs o).userPageTables

variable (cpu)

/-- One turn of the loop over the threads: nothing, or a thread of the owner is ended. -/
lemma killSibling_cases (o : ProcSlot) (t : ProcessTable) (i : ProcSlot) : killSibling cpu o t i = t ∨
    (i ≠ o ∧ (t.procs i).loaded = true ∧ (t.procs i).isThread = true ∧ (t.procs i).state ≠ .exited ∧
      (t.procs i).userPageTables = (t.procs o).userPageTables ∧
      killSibling cpu o t i = dropCurrent (processWakeWaiter (markExited t i (-1)) i) cpu i) := by
  rw [killSibling]
  by_cases h1 : i = o ∨ !(t.procs i).loaded ∨ !(t.procs i).isThread
  · exact .inl (if_pos h1)
  · rw [if_neg h1]
    simp only [not_or, Bool.not_eq_true, Bool.not_eq_false'] at h1
    by_cases h2 : (t.procs i).state = .exited ∨ (t.procs i).state = .empty
    · exact .inl (if_pos h2)
    · rw [if_neg h2]
      by_cases h3 : (t.procs i).userPageTables ≠ (t.procs o).userPageTables
      · exact .inl (if_pos h3)
      · rw [if_neg h3]
        exact .inr ⟨h1.1, h1.2.1, h1.2.2, fun h => h2 (.inl h), not_not.mp h3, rfl⟩

lemma fades_killSibling (o : ProcSlot) (t : ProcessTable) (i : ProcSlot) : Fades t (killSibling cpu o t i) := by
  rcases killSibling_cases cpu o t i with heq | ⟨-, -, -, -, -, heq⟩
  · rw [heq]
    exact Fades.refl t
  · rw [heq]
    exact ((fades_markExited t i (-1)).trans (fades_wakeWaiter _ i)).trans (fades_of_procs (procs_dropCurrent _ cpu i))

lemma fades_foldl {f : ProcessTable → ProcSlot → ProcessTable} (hf : ∀ t i, Fades t (f t i))
    (l : List ProcSlot) (t : ProcessTable) : Fades t (l.foldl f t) := by
  induction l generalizing t with
  | nil => exact Fades.refl t
  | cons i l ih => exact (hf t i).trans (ih (f t i))

lemma fades_killSiblingThreads (t : ProcessTable) (i : ProcSlot) : Fades t (processKillSiblingThreads cpu t i) := by
  rw [processKillSiblingThreads]
  split_ifs
  · exact Fades.refl t
  · exact fades_foldl (fades_killSibling cpu i) _ t

lemma fades_die (t : ProcessTable) (i : ProcSlot) (code : Int) : Fades t (processDie cpu t i code) :=
  ((fades_markExited t i code).trans (fades_killSiblingThreads cpu _ i)).trans (fades_wakeWaiter _ i)

lemma fades_kill (t : ProcessTable) (pid : Nat) : Fades t (processKill cpu t pid) := by
  rw [processKill]
  rcases processFindByPid t pid with _ | i
  · exact Fades.refl t
  · dsimp only
    split_ifs
    · exact Fades.refl t
    · exact (fades_die cpu t i (-1)).trans (fades_of_procs (procs_dropCurrent _ cpu i))

lemma fades_canaryCheck (smashed : ProcSlot → Bool) (t : ProcessTable) :
    Fades t (kstackCanaryCheck cpu smashed t) := by
  refine fades_foldl (fun t i => ?_) _ t
  rcases canaryKill_cases cpu smashed t i with heq | ⟨-, -, -, heq⟩
  · rw [heq]
    exact Fades.refl t
  · rw [heq]
    exact ((fades_markExited t i (-14)).trans (fades_wakeWaiter _ i)).trans (fades_of_procs (procs_dropCurrent _ cpu i))

lemma fades_interruptTerminal (t : ProcessTable) (object : Nat) : Fades t (processInterruptTerminal cpu t object) := by
  rw [processInterruptTerminal]
  split_ifs
  · exact Fades.refl t
  · refine fades_foldl (fun t i => ?_) _ t
    rw [interruptWaiter]
    split_ifs
    · exact Fades.refl t
    · exact Fades.refl t
    · rcases (t.procs i).fds 0 with _ | ⟨ops, o⟩ | ⟨o, k, f⟩
      · exact Fades.refl t
      · dsimp only
        split_ifs
        · exact fades_kill cpu t _
        · exact Fades.refl t
      · exact Fades.refl t

variable {cpu}

end fades

/-! ### Which slots end -/

section

variable {t t' t'' : ProcessTable} {i j k o : ProcSlot} {cpu pid : Nat}

instance Ended.instDecidable : Decidable (Ended t t' j) :=
  inferInstanceAs (Decidable (_ ∧ _ ∧ (_ ∨ _)))

lemma not_ended_of_sameSpace (h : SameSpace (t.procs j) (t'.procs j)) : ¬ Ended t t' j := by
  rintro ⟨hl, hs, hl' | hs'⟩
  · rw [h.loaded, hl] at hl'
    cases hl'
  · exact hs (h.exited.mp hs')

lemma Ended.split (t' : ProcessTable) (h : Ended t t'' j) : Ended t t' j ∨ Ended t' t'' j := by
  obtain ⟨hl, hs, hend⟩ := h
  by_cases h' : (t'.procs j).loaded = false ∨ (t'.procs j).state = .exited
  · exact .inl ⟨hl, hs, h'⟩
  · simp only [not_or, Bool.not_eq_false] at h'
    exact .inr ⟨h'.1, h'.2, hend⟩

lemma foldl_killSibling_frame (cpu : Nat) (l : List ProcSlot) (hj : j = o ∨ ¬ Sibling t o j)
    (ho : (t.procs o).isThread = false) : SameSpace (t.procs j) ((l.foldl (killSibling cpu o) t).procs j) := by
  induction l generalizing t with
  | nil => exact refl _
  | cons i l ih =>
    have hstep : ∀ k, (k = o ∨ ¬ Sibling t o k) → SameSpace (t.procs k) ((killSibling cpu o t i).procs k) := by
      intro k hk
      rcases killSibling_cases cpu o t i with heq | ⟨hio, hl, ht, -, htab, heq⟩
      · rw [heq]
        exact refl _
      · have hki : k ≠ i := fun hki => by
          subst hki
          exact hk.elim hio fun hn => hn ⟨hl, ht, ho, htab⟩
        rw [heq, procs_dropCurrent]
        have := wakeWaiter_frame (t := markExited t i (-1)) hki
        rw [procs_markExited_of_ne hki] at this
        exact this
    have hjs := hstep j hj
    have hos := hstep o (.inl rfl)
    have hrest := ih (t := killSibling cpu o t i) ?_ (hos.isThread.trans ho)
    · exact ⟨⟨hrest.loaded.trans hjs.loaded, hrest.isThread.trans hjs.isThread, hrest.image.trans hjs.image,
        hrest.tables.trans hjs.tables, hrest.cr3.trans hjs.cr3, hrest.exited.trans hjs.exited, fun h1 h2 =>
        hrest.nonempty (hjs.loaded.trans h1) (hjs.nonempty h1 h2)⟩, hrest.chunks.trans hjs.chunks⟩
    · refine hj.imp_right fun hn hs => hn ?_
      exact ⟨hjs.loaded ▸ hs.loaded, hjs.isThread ▸ hs.isThread, ho, by
        have := hs.tables
        rw [hjs.tables, hos.tables] at this
        exact this⟩

lemma die_ended {code : Int} (h : Ended t (processDie cpu t i code) j) : j = i ∨ Sibling t i j := by
  by_contra hno
  simp only [not_or] at hno
  obtain ⟨hji, hns⟩ := hno
  refine not_ended_of_sameSpace ?_ h
  rw [processDie]
  have hwake := wakeWaiter_frame (t := processKillSiblingThreads cpu (markExited t i code) i) hji
  suffices hkill : SameSpace (t.procs j)
      ((processKillSiblingThreads cpu (markExited t i code) i).procs j) by
    exact ⟨⟨hwake.loaded.trans hkill.loaded, hwake.isThread.trans hkill.isThread, hwake.image.trans hkill.image,
      hwake.tables.trans hkill.tables, hwake.cr3.trans hkill.cr3, hwake.exited.trans hkill.exited, fun h1 h2 =>
      hwake.nonempty (hkill.loaded.trans h1) (hkill.nonempty h1 h2)⟩, hwake.chunks.trans hkill.chunks⟩
  rw [processKillSiblingThreads]
  split_ifs with hno
  · rw [procs_markExited_of_ne hji]
    exact refl _
  · have ho : (t.procs i).isThread = false := by
      rw [procs_markExited_self] at hno
      simpa using fun h => hno (.inl h)
    have hframe := foldl_killSibling_frame (t := markExited t i code) (j := j) (o := i) cpu
      (List.finRange PROCESS_MAX_COUNT) (.inr fun hs => hns ?_) (by rw [procs_markExited_self]; exact ho)
    · rw [procs_markExited_of_ne hji] at hframe
      exact hframe
    · obtain ⟨h1, h2, h3, h4⟩ := hs
      rw [procs_markExited_of_ne hji] at h1 h2 h4
      rw [procs_markExited_self] at h3 h4
      exact ⟨h1, h2, h3, h4⟩

lemma kill_ended (h : Ended t (processKill cpu t pid) j) :
    ∃ k, processFindByPid t pid = some k ∧ (j = k ∨ Sibling t k j) := by
  rw [processKill] at h
  rcases hf : processFindByPid t pid with _ | k
  · rw [hf] at h
    exact absurd h (not_ended_of_sameSpace (refl _))
  · rw [hf] at h
    dsimp only at h
    split_ifs at h
    · exact absurd h (not_ended_of_sameSpace (refl _))
    · rw [Ended, procs_dropCurrent] at h
      exact ⟨k, rfl, die_ended h⟩

/-- The threads that share the address space of a process go with it, seen from an earlier state. -/
lemma Sibling.of_fades (hf : Fades t t') (hk : (t'.procs k).loaded = true) (h : Sibling t' k j) : Sibling t k j := by
  have hj := hf j h.loaded
  have hk' := hf k hk
  refine ⟨hj.loaded, hj.isThread.symm.trans h.isThread, hk'.isThread.symm.trans h.owner, ?_⟩
  exact (hj.tables.symm.trans h.tables).trans hk'.tables

/-- Slot `w` waits on the terminal for the process `pid`. -/
structure WaitsOn (t : ProcessTable) (object : Nat) (w : ProcSlot) (pid : Nat) : Prop where
  loaded : (t.procs w).loaded = true
  isThread : (t.procs w).isThread = false
  state : (t.procs w).state = .waiting
  target : (t.procs w).waitTargetPid = pid
  stdin : ∃ ops, (t.procs w).fds 0 = some (.device ops object)

lemma WaitsOn.of_fades {object : Nat} (hf : Fades t t') (h : WaitsOn t' object i pid) : WaitsOn t object i pid := by
  have hi := hf i h.loaded
  obtain ⟨hw, ht⟩ := hi.waiting h.state
  obtain ⟨ops, hs⟩ := h.stdin
  exact ⟨hi.loaded, hi.isThread.symm.trans h.isThread, hw, ht.symm.trans h.target, ops, hi.fds ▸ hs⟩

/-- One turn of the loop over the waiters: nothing, or a kill of what a waiter names. -/
lemma interruptWaiter_cases (cpu object : Nat) (t : ProcessTable) (i : ProcSlot) : interruptWaiter cpu object t i = t ∨
    ∃ pid, WaitsOn t object i pid ∧ interruptWaiter cpu object t i = processKill cpu t pid := by
  rw [interruptWaiter]
  by_cases h1 : !(t.procs i).loaded ∨ (t.procs i).isThread
  · exact .inl (if_pos h1)
  · rw [if_neg h1]
    simp only [not_or, Bool.not_eq_true, Bool.not_eq_false'] at h1
    by_cases h2 : (t.procs i).state ≠ .waiting ∨ (t.procs i).waitTargetPid = 0
    · exact .inl (if_pos h2)
    · rw [if_neg h2]
      simp only [not_or, not_not] at h2
      rcases hfd : (t.procs i).fds 0 with _ | ⟨ops, o⟩ | ⟨o, k, f⟩
      · exact .inl rfl
      · by_cases ho : o = object
        · subst ho
          exact .inr ⟨_, ⟨h1.1, h1.2, h2.1, rfl, ops, hfd⟩, if_pos rfl⟩
        · exact .inl (if_neg ho)
      · exact .inl rfl

/-- Ctrl+C ends the processes that waiters on the terminal name, and their threads. -/
lemma interruptTerminal_ended {object : Nat} (h : Ended t (processInterruptTerminal cpu t object) j) :
    ∃ w k, WaitsOn t object w (t.procs k).pid ∧ (t.procs k).loaded = true ∧ (j = k ∨ Sibling t k j) := by
  rw [processInterruptTerminal] at h
  split_ifs at h
  · exact absurd h (not_ended_of_sameSpace (refl _))
  · -- a later turn sees what is left of the first state
    suffices hloop : ∀ (l : List ProcSlot) (t' : ProcessTable), Fades t t' → Ended t' (l.foldl
        (interruptWaiter cpu object) t') j → ∃ w k, WaitsOn t object w (t.procs k).pid ∧ (t.procs k).loaded = true ∧ (j
        = k ∨ Sibling t k j) from hloop _ t (Fades.refl t) h
    intro l
    induction l with
    | nil =>
      intro t' _ hend
      exact absurd hend (not_ended_of_sameSpace (refl _))
    | cons i l ih =>
      intro t' hf hend
      rcases interruptWaiter_cases cpu object t' i with heq | ⟨pid, hw, heq⟩
      · rw [List.foldl_cons, heq] at hend
        exact ih t' hf hend
      · rw [List.foldl_cons, heq] at hend
        rcases hend.split (processKill cpu t' pid) with hfirst | hrest
        · obtain ⟨k, hfind, hjk⟩ := kill_ended hfirst
          obtain ⟨-, hl, hpid⟩ := findByPid_spec hfind
          have hk := hf k hl
          refine ⟨i, k, ?_, hk.loaded, hjk.imp_right (Sibling.of_fades hf hl)⟩
          rw [← hk.pid, hpid]
          exact hw.of_fades hf
        · exact ih _ (hf.trans (fades_kill cpu t' pid)) hrest

end

/-! ### Whole runs -/

/-- What the call of the process in `i` names belongs to the user of `i`: the threads of a process that it
kills, and the processes that waiters on a terminal name when it interrupts the terminal. -/
def Syscall.NamesOwn (t : ProcessTable) (i : ProcSlot) : Syscall → Prop
  | .kill pid =>
    ∀ k, (t.procs k).loaded = true → (t.procs k).pid = pid → ∀ j, Sibling t k j → (t.procs j).uid = (t.procs i).uid
  | .ptyInterrupt fd =>
    ∀ k, (t.procs k).loaded = true →
      (∃ w pty, (t.procs i).fds fd = some (.device .ptyMaster pty) ∧ WaitsOn t pty w (t.procs k).pid) →
      (t.procs k).uid = (t.procs i).uid ∧ ∀ j, Sibling t k j → (t.procs j).uid = (t.procs i).uid
  | _ => True

def KernelEvent.NamesOwn (t : ProcessTable) : KernelEvent → Prop
  | .syscall cpu _ call => ∀ i, t.runs cpu = some i → (t.procs i).uid ≠ 0 → call.NamesOwn t i
  | _ => True

/-- The calls that reach `process_kill`. -/
def Syscall.kills : Syscall → Bool
  | .kill _ => true
  | .ptyInterrupt _ => true
  | _ => false

/-- If the entry is a call of a user other than root that reaches `process_kill`, then only processes of
that user end. -/
def KernelEvent.EndsOwn (t : ProcessTable) : KernelEvent → Prop
  | .syscall cpu frame call =>
    ∀ i, t.runs cpu = some i → (t.procs i).uid ≠ 0 → call.kills = true →
      ∀ j, Ended t (t.step (.syscall cpu frame call)) j → (t.procs j).uid = (t.procs i).uid
  | _ => True

lemma not_ended_self (t : ProcessTable) (j : ProcSlot) : ¬ Ended t t j :=
  not_ended_of_sameSpace (refl _)

lemma not_ended_returnToScheduler (t : ProcessTable) (cpu : Nat) (j : ProcSlot) :
    ¬ Ended t (returnToScheduler t cpu) j := by
  rintro ⟨hl, hs, hend⟩
  rw [returnToScheduler] at hend
  split at hend
  · exact not_ended_self t j ⟨hl, hs, hend⟩
  · rename_i i _
    have hleave : SameSpace (t.procs j)
        (((t.setCurrent cpu none).modify i fun p => { p with runningOnCpu := none }).procs j) :=
      rel_update (p := { t.procs i with runningOnCpu := none }) refl rfl (of_eq rfl) j
    rw [endSlice] at hend
    split_ifs at hend with hx
    · have hji : j ≠ i := by
        rintro rfl
        exact hs (hleave.exited.mp hx)
      have hwake := wakeWaiter_frame (t := (t.setCurrent cpu none).modify i fun p =>
        { p with runningOnCpu := none }) hji
      rw [procs_modify_of_ne _ _ hji] at hwake
      exact not_ended_of_sameSpace hwake ⟨hl, hs, hend⟩
    · exact not_ended_of_sameSpace hleave ⟨hl, hs, hend⟩

/-- One entry. The uid test of `SYS_PROCESS_KILL` covers the target itself. -/
lemma endsOwn_of_namesOwn (t : ProcessTable) (e : KernelEvent) (h : e.NamesOwn t) : e.EndsOwn t := by
  rcases e with _ | _ | ⟨cpu, frame, call⟩ | _ | _ | _ | _ | _ | _ <;> try trivial
  intro i hi hu hk j hend
  have hown := h i hi hu
  rw [step_syscall frame call hi] at hend
  unfold syscallHandleInterrupt at hend
  split_ifs at hend with hx
  · exact absurd hend (not_ended_returnToScheduler t cpu j)
  · cases call with
    | kill pid =>
      dsimp only at hend
      rcases hf : processFindByPid t pid with _ | k
      · rw [hf] at hend
        exact absurd hend (not_ended_self t j)
      · rw [hf] at hend
        dsimp only at hend
        have hkill : Ended t (processKill cpu t pid) j → ¬ ((t.procs i).uid ≠ 0 ∧ (t.procs i).uid ≠ (t.procs k).uid) →
            (t.procs j).uid = (t.procs i).uid := by
          intro hend hp
          have hku : (t.procs i).uid = (t.procs k).uid := not_not.mp fun hne => hp ⟨hu, hne⟩
          obtain ⟨-, hl, hpid⟩ := findByPid_spec hf
          obtain ⟨k', hk', hj⟩ := kill_ended hend
          obtain rfl : k = k' := Option.some.inj (hf.symm.trans hk')
          rcases hj with rfl | hs
          · exact hku.symm
          · exact hown k hl hpid j hs
        split_ifs at hend with he hp hc
        · exact absurd hend (not_ended_self t j)
        · exact absurd hend (not_ended_self t j)
        · rcases hend.split (processKill cpu t pid) with hfirst | hrest
          · exact hkill hfirst hp
          · exact absurd hrest (not_ended_returnToScheduler _ cpu j)
        · exact hkill hend hp
    | ptyInterrupt fd =>
      dsimp only at hend
      rcases hfd : (t.procs i).fds fd with _ | ⟨_ | _ | _ | _, pty⟩ | ⟨o, k, f⟩ <;> rw [hfd] at hend
      case some.device.ptyMaster =>
        obtain ⟨w, k, hw, hl, hj⟩ := interruptTerminal_ended hend
        obtain ⟨hku, hsib⟩ := hown k hl ⟨w, pty, hfd, hw⟩
        rcases hj with rfl | hs
        · exact hku
        · exact hsib j hs
      all_goals exact absurd hend (not_ended_self t j)
    | _ => cases hk

/-- In every run whose calls of users other than root name only their own processes, no `process_kill`
that such a call reaches ends the process of another user. -/
theorem run_kill_own (uids : ProcSlot → Nat) (events : List KernelEvent)
    (h : Along step (fun t e => e.NamesOwn t) (processInit uids) events) :
    Along step (fun t e => e.EndsOwn t) (processInit uids) events :=
  h.mono endsOwn_of_namesOwn

instance Sibling.instDecidable (t : ProcessTable) (o j : ProcSlot) : Decidable (Sibling t o j) :=
  decidable_of_iff ((t.procs j).loaded = true ∧ (t.procs j).isThread = true ∧
    (t.procs o).isThread = false ∧ (t.procs j).userPageTables = (t.procs o).userPageTables)
    ⟨fun h => ⟨h.1, h.2.1, h.2.2.1, h.2.2.2⟩, fun h => ⟨h.1, h.2, h.3, h.4⟩⟩

/-- A process of user 5 starts a child on a terminal of its own and kills it. -/
def ownKillRun : List KernelEvent :=
  [.spawnDesktop .tty 1 5 true .ok, .startSlice 0 intact, .syscall 0 ⟨0, 0, 0⟩ (.ptyOpen 7),
    .syscall 0 ⟨0, 0, 0⟩ (.spawnPty ⟨3, fd_lt⟩ true .ok), .syscall 0 ⟨0, 0, 0⟩ (.kill 2)]

set_option maxRecDepth 8192 in
theorem run_kill_own_child : Along step (fun t e => e.NamesOwn t) (processInit fun _ => 0) ownKillRun ∧
      Along step (fun t e => e.EndsOwn t) (processInit fun _ => 0) ownKillRun ∧
      ((run step (processInit fun _ => 0) ownKillRun).procs 1).state = .exited := by
  have h : Along step (fun t e => e.NamesOwn t) (processInit fun _ => 0) ownKillRun := by
    refine ⟨trivial, trivial, fun i _ _ => trivial, fun i _ _ => trivial, fun i hi hu k hl hp j hs => ?_, trivial⟩
    revert i k j
    decide
  exact ⟨h, run_kill_own _ _ h, by decide⟩

/-- Root's shell is process 1. A process of user 5 opens a terminal and starts a child on it, the child
waits for process 1, and its parent interrupts the terminal. -/
def interruptRun : List KernelEvent :=
  [.spawnDesktop .tty 1 0 true .ok, .spawnDesktop .tty 1 5 true .ok,
    .startSlice 0 intact, .startSlice 1 intact, .syscall 1 ⟨0, 0, 0⟩ (.ptyOpen 7),
    .syscall 1 ⟨0, 0, 0⟩ (.spawnPty ⟨3, fd_lt⟩ true .ok), .startSlice 2 intact, .syscall 2 ⟨0, 0, 0⟩ (.waitpid 1)]

set_option maxRecDepth 8192 in
/-- The interrupt of a terminal ends a process that its caller does not own. -/
theorem kill_own_fails : ¬ Along step (fun t e => e.EndsOwn t) (processInit fun _ => 0)
      (interruptRun ++ [.syscall 1 ⟨0, 0, 0⟩ (.ptyInterrupt 3)]) := by
  intro h
  have hlast := h.2.2.2.2.2.2.2.2.1 1 (by decide) (by decide) rfl 0 (by decide)
  revert hlast
  decide

end VibeOS
