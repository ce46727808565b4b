import VibeOS.Kernel.Moves
import VibeOS.Kernel.Tenancy

/-!
# Descriptors of different processes

A file descriptor is a pointer into the handle array of a slot, and a child copies the pointers of its
parent. `DescInv` says that the descriptors of live processes still hold what was opened under them, and
`run_descriptors` that this is so in every run in which no handle is released while another live process
has a descriptor on it.
-/

namespace VibeOS

open ProcessTable
open Function (update_of_ne update_self)

def Process.Live (p : Process) : Prop := p.loaded = true ∧ p.state ≠ .exited

instance Process.Live.instDecidable (p : Process) : Decidable p.Live :=
  inferInstanceAs (Decidable (_ ∧ _))

/-- The handle is in use, for the file that was opened. -/
def VfsHandle.Holds (h : VfsHandle) : OpenOutcome → Prop
  | .missing => False
  | .embedded file => h.used = true ∧ h.kind = 0 ∧ h.file = some file
  | .found path ino => h.used = true ∧ h.kind = 1 ∧ h.path = path.take 63 ∧ h.cachedIno = ino

lemma VfsHandle.Holds.used {h : VfsHandle} {out : OpenOutcome} (hh : h.Holds out) : h.used = true := by
  cases out with
  | missing => cases hh
  | embedded file => exact hh.1
  | found path ino => exact hh.1

def vfsTarget : Option FdObject → Option (ProcSlot × Fin 8)
  | some (.vfs o k _) => some (o, k)
  | _ => none

/-- A live process has a descriptor on a handle of slot `r`. -/
def Shared (t : ProcessTable) (r : ProcSlot) : Prop :=
  ∃ j, (t.procs j).Live ∧ ∃ fd k, vfsTarget ((t.procs j).fds fd) = some (r, k)

/-- The handle under the descriptor `fd` of `i` has no other descriptor of a live process on it. -/
def Sole (t : ProcessTable) (i : ProcSlot) (fd : Fin 16) : Prop :=
  ∀ o k, vfsTarget ((t.procs i).fds fd) = some (o, k) →
    ∀ j fd', (t.procs j).Live → vfsTarget ((t.procs j).fds fd') = some (o, k) → j = i ∧ fd' = fd

/-- Callers hold their slots, and a handle is released only when no other live process has a descriptor on
it. -/
def independent : Policy where
  acts p := p.loaded = true
  handOver _ t r := ¬ Shared t r
  reclaim t r := ¬ Shared t r
  waits _ _ _ := True
  closes := Sole
  creates _ := True

instance independent.instDecidableActs (p : Process) : Decidable (independent.acts p) :=
  inferInstanceAs (Decidable (p.loaded = true))

/-- Every file descriptor of a live process is on a handle for the file opened under it. -/
def DescOk (t : ProcessTable) : Prop :=
  ∀ j, (t.procs j).Live → ∀ fd o k out, (t.procs j).fds fd = some (.vfs o k out) → ((t.procs o).handles k).Holds out

/-- Besides, the handles of an unused slot are free. -/
structure DescInv (t : ProcessTable) : Prop where
  desc : DescOk t
  free : ∀ o, (t.procs o).loaded = false → ∀ k, ((t.procs o).handles k).used = false

/-- The slot keeps its descriptors and handles, and is not brought to life. -/
structure SameFiles (p q : Process) : Prop where
  loaded : q.loaded = p.loaded
  live : q.Live → p.Live
  fds : q.fds = p.fds
  handles : q.handles = p.handles

section files

variable {t t' : ProcessTable} {c : Option Nat} {i j slot : ProcSlot} {cpu : Nat} {out : OpenOutcome}

lemma SameFiles.refl (p : Process) : SameFiles p p := ⟨rfl, id, rfl, rfl⟩

lemma DescInv.congr (h : DescInv t) (hp : ∀ j, SameFiles (t.procs j) (t'.procs j)) : DescInv t' where
  desc j hl fd o k out hfd := by
    rw [(hp j).fds] at hfd
    rw [(hp o).handles]
    exact h.desc j ((hp j).live hl) fd o k out hfd
  free o hl k := by
    rw [(hp o).handles]
    exact h.free o ((hp o).loaded.symm.trans hl) k

lemma Shared.of_sameFiles (hp : ∀ j, SameFiles (t.procs j) (t'.procs j)) {r : ProcSlot}
    (h : Shared t' r) : Shared t r := by
  obtain ⟨j, hlive, fd, k, hfd⟩ := h
  exact ⟨j, (hp j).live hlive, fd, k, (hp j).fds ▸ hfd⟩

lemma sameFiles_update {p : Process} (ht : t'.procs = Function.update t.procs i p)
    (hp : SameFiles (t.procs i) p) (j : ProcSlot) : SameFiles (t.procs j) (t'.procs j) :=
  rel_update .refl ht hp j

lemma DescInv.update {p : Process} (h : DescInv t) (ht : t'.procs = Function.update t.procs i p)
    (hp : SameFiles (t.procs i) p) : DescInv t' :=
  h.congr (sameFiles_update ht hp)

lemma DescInv.modify_state (h : DescInv t) {f : Process → Process}
    (hl : (f (t.procs i)).loaded = (t.procs i).loaded) (hf : (f (t.procs i)).fds = (t.procs i).fds)
    (hh : (f (t.procs i)).handles = (t.procs i).handles)
    (hs : (t.procs i).state = .exited → (f (t.procs i)).state = .exited) : DescInv (t.modify i f) :=
  h.update rfl ⟨hl, fun hlive => ⟨hl.symm.trans hlive.1, fun hx => hlive.2 (hs hx)⟩, hf, hh⟩

lemma DescInv.reap (h : DescInv t) {r : ProcSlot} (hr : ¬ Shared t r) : DescInv (processReap t r) where
  desc j hl fd o k out hfd := by
    have hj : j ≠ r := by
      rintro rfl
      simp [processReap, Process.Live] at hl
    rw [procs_processReap_of_ne hj] at hl hfd
    have ho : o ≠ r := by
      rintro rfl
      exact hr ⟨j, hl, fd, k, by rw [hfd]; rfl⟩
    rw [procs_processReap_of_ne ho]
    exact h.desc j hl fd o k out hfd
  free o hl k := by
    by_cases ho : o = r
    · subst ho
      simp [processReap, resetVfsHandles]
    · rw [procs_processReap_of_ne ho] at hl ⊢
      exact h.free o hl k

lemma DescInv.fill (h : DescInv t) (hfree : (t.procs slot).loaded = false) {q : Process}
    (ht : t'.procs = Function.update t.procs slot q) (hl : q.loaded)
    (hh : q.handles = resetVfsHandles (t.procs slot).handles)
    (hq : ∀ fd o k out, q.fds fd = some (.vfs o k out) → ((t.procs o).handles k).Holds out) : DescInv t' := by
  -- nothing points into the slot, since its handles are free
  have hother : ∀ o k out, ((t.procs o).handles k).Holds out → ((t'.procs o).handles k).Holds out := by
    intro o k out hholds
    have ho : o ≠ slot := by
      rintro rfl
      have := hholds.used
      rw [h.free o hfree k] at this
      cases this
    rw [ht, update_of_ne ho]
    exact hholds
  refine ⟨fun j hlive fd o k out hfd => ?_, fun o hlo k => ?_⟩
  · rw [ht] at hlive hfd
    by_cases hj : j = slot
    · subst hj
      rw [update_self] at hfd
      exact hother o k out (hq fd o k out hfd)
    · rw [update_of_ne hj] at hlive hfd
      exact hother o k out (h.desc j hlive fd o k out hfd)
  · rw [ht] at hlo ⊢
    by_cases ho : o = slot
    · subst ho
      rw [update_self, hl] at hlo
      cases hlo
    · rw [update_of_ne ho] at hlo ⊢
      exact h.free o hlo k

lemma holds_openedHandle (h : VfsHandle) (hout : out ≠ .missing) : (openedHandle h out).Holds out := by
  cases out with
  | missing => exact absurd rfl hout
  | embedded file => exact ⟨rfl, rfl, rfl⟩
  | found path ino => exact ⟨rfl, rfl, rfl, rfl⟩

lemma VfsHandle.Holds.update_free {k : Fin 8} (hfree : ((t.procs i).handles k).used = false)
    {q : Process} {h : VfsHandle} (ht : t'.procs = Function.update t.procs i q)
    (hq : q.handles = Function.update (t.procs i).handles k h) {o : ProcSlot} {l : Fin 8}
    (hh : ((t.procs o).handles l).Holds out) : ((t'.procs o).handles l).Holds out := by
  rw [ht]
  by_cases ho : o = i
  · subst ho
    have hl : l ≠ k := by
      rintro rfl
      have := hh.used
      rw [hfree] at this
      cases this
    rw [update_self, hq, update_of_ne hl]
    exact hh
  · rw [update_of_ne ho]
    exact hh

lemma DescInv.free_update (h : DescInv t) (hi : (t.procs i).loaded = true) {q : Process}
    (ht : t'.procs = Function.update t.procs i q) (hl : q.loaded = (t.procs i).loaded) (o : ProcSlot)
    (ho : (t'.procs o).loaded = false) (k : Fin 8) : ((t'.procs o).handles k).used = false := by
  rw [ht] at ho ⊢
  by_cases hoi : o = i
  · subst hoi
    rw [update_self, hl, hi] at ho
    cases ho
  · rw [update_of_ne hoi] at ho ⊢
    exact h.free o ho k

lemma fdAlloc_spec {fds fds' : FdTable} {o : FdObject} {fd : Fin 16}
    (h : fdAlloc fds o = some (fd, fds')) : fds' = Function.update fds fd (some o) := by
  obtain ⟨k, -, heq⟩ := Option.map_eq_some_iff.mp h
  cases heq
  rfl

lemma DescInv.open (h : DescInv t) (hi : (t.procs i).loaded = true) (out : OpenOutcome) :
    DescInv (processOpen t i out).2 := by
  unfold processOpen
  split_ifs with hout
  · exact h
  · rcases hk : (List.finRange 8).find? fun k => !((t.procs i).handles k).used with _ | k
    · exact h
    · have hfree : ((t.procs i).handles k).used = false := by simpa using List.find?_some hk
      dsimp only
      rcases hfd : fdAlloc (t.procs i).fds (.vfs i k out) with _ | ⟨fd, fds⟩
      · refine ⟨fun j hlive fd o l out' hj => ?_, h.free_update hi rfl rfl⟩
        refine VfsHandle.Holds.update_free hfree rfl rfl ?_
        by_cases hji : j = i
        · subst hji
          rw [procs_modify_self] at hlive hj
          exact h.desc j hlive fd o l out' hj
        · rw [procs_modify_of_ne _ _ hji] at hlive hj
          exact h.desc j hlive fd o l out' hj
      · refine ⟨fun j hlive fd' o l out' hj => ?_, h.free_update hi rfl rfl⟩
        by_cases hji : j = i
        · subst hji
          rw [procs_modify_self] at hlive hj
          dsimp only at hj
          rw [fdAlloc_spec hfd] at hj
          by_cases hfd' : fd' = fd
          · subst hfd'
            rw [update_self] at hj
            cases hj
            rw [procs_modify_self]
            dsimp only
            rw [update_self]
            exact holds_openedHandle _ hout
          · rw [update_of_ne hfd'] at hj
            exact VfsHandle.Holds.update_free hfree rfl rfl (h.desc j hlive fd' o l out' hj)
        · rw [procs_modify_of_ne _ _ hji] at hlive hj
          exact VfsHandle.Holds.update_free hfree rfl rfl (h.desc j hlive fd' o l out' hj)

lemma procs_writeHandle (t : ProcessTable) (o : ProcSlot) (k : Fin 8) (f : VfsHandle → VfsHandle) (j : ProcSlot) :
    let q := (t.modify o fun p => { p with
      handles := Function.update p.handles k (f (p.handles k)) }).procs j
    q.loaded = (t.procs j).loaded ∧ q.state = (t.procs j).state ∧ q.fds = (t.procs j).fds ∧
      ∀ l, q.handles l = if j = o ∧ l = k then f ((t.procs j).handles l) else (t.procs j).handles l := by
  by_cases hj : j = o
  · subst hj
    rw [procs_modify_self]
    refine ⟨rfl, rfl, rfl, fun l => ?_⟩
    by_cases hl : l = k
    · subst hl
      simp
    · simp [hl]
  · rw [procs_modify_of_ne _ _ hj]
    simp [hj]

lemma procs_writeFds (t : ProcessTable) (i : ProcSlot) (fds : FdTable) (j : ProcSlot) :
    let q := (t.modify i fun p => { p with fds := fds }).procs j
    q.loaded = (t.procs j).loaded ∧ q.state = (t.procs j).state ∧ q.handles = (t.procs j).handles ∧
      q.fds = if j = i then fds else (t.procs j).fds := by
  by_cases hj : j = i
  · subst hj
    simp
  · rw [procs_modify_of_ne _ _ hj]
    simp [hj]

lemma DescInv.writeFds (h : DescInv t) (fds : FdTable)
    (hfds : ∀ fd o k out, fds fd = some (.vfs o k out) → (t.procs i).fds fd = some (.vfs o k out)) :
    DescInv (t.modify i fun p => { p with fds := fds }) where
  desc j hlive fd o k out hj := by
    obtain ⟨hl, hs, -, hf⟩ := procs_writeFds t i fds j
    obtain ⟨-, -, hh, -⟩ := procs_writeFds t i fds o
    rw [hh]
    rw [hf] at hj
    have hlive' : (t.procs j).Live := ⟨hl.symm.trans hlive.1, hs ▸ hlive.2⟩
    split_ifs at hj with hji
    · subst hji
      exact h.desc j hlive' fd o k out (hfds fd o k out hj)
    · exact h.desc j hlive' fd o k out hj
  free o hl k := by
    obtain ⟨hl', -, hh, -⟩ := procs_writeFds t i fds o
    rw [hh]
    exact h.free o (hl'.symm.trans hl) k

lemma DescInv.close (h : DescInv t) {fd : Fin 16} (hsole : Sole t i fd) : DescInv (processCloseFd t i fd) := by
  have hdrop : ∀ fd' o k out, Function.update (t.procs i).fds fd none fd' = some (.vfs o k out) →
      (t.procs i).fds fd' = some (.vfs o k out) ∧ fd' ≠ fd := by
    intro fd' o k out hfd'
    by_cases hne : fd' = fd
    · subst hne
      rw [update_self] at hfd'
      cases hfd'
    · rw [update_of_ne hne] at hfd'
      exact ⟨hfd', hne⟩
  unfold processCloseFd
  rcases hfd : (t.procs i).fds fd with _ | ⟨ops, object⟩ | ⟨o, k, f⟩
  · exact h
  · exact h.writeFds _ fun fd' o k out hfd' => (hdrop fd' o k out hfd').1
  · dsimp only
    have hrelease := procs_writeHandle t o k releaseVfsHandle
    generalize (t.modify o fun p => { p with
      handles := Function.update p.handles k (releaseVfsHandle (p.handles k)) }) = t1 at hrelease ⊢
    have hfds : (t1.modify i fun p => { p with fds := Function.update p.fds fd none }) =
        t1.modify i fun p => { p with fds := Function.update (t.procs i).fds fd none } := by
      rw [ProcessTable.modify, ProcessTable.modify, (hrelease i).2.2.1]
    rw [hfds]
    refine ⟨fun j hlive fd' o' k' out hj => ?_, fun o' hl k' => ?_⟩
    · obtain ⟨hl, hs, -, hf⟩ := procs_writeFds t1 i (Function.update (t.procs i).fds fd none) j
      obtain ⟨-, -, hh, -⟩ := procs_writeFds t1 i (Function.update (t.procs i).fds fd none) o'
      obtain ⟨hl1, hs1, hf1, -⟩ := hrelease j
      rw [hf] at hj
      have hlive' : (t.procs j).Live :=
        ⟨(hl1.symm.trans hl.symm).trans hlive.1, hs1 ▸ hs ▸ hlive.2⟩
      -- the descriptor was there before, and is not the one that is closed
      have hold : (t.procs j).fds fd' = some (.vfs o' k' out) ∧ ¬ (j = i ∧ fd' = fd) := by
        split_ifs at hj with hji
        · subst hji
          obtain ⟨hold, hne⟩ := hdrop fd' o' k' out hj
          exact ⟨hold, fun hc => hne hc.2⟩
        · rw [hf1] at hj
          exact ⟨hj, fun hc => hji hc.1⟩
      have hne : ¬ (o' = o ∧ k' = k) := by
        rintro ⟨rfl, rfl⟩
        exact hold.2 (hsole o' k' (by rw [hfd]; rfl) j fd' hlive' (by rw [hold.1]; rfl))
      rw [hh, (hrelease o').2.2.2 k', if_neg hne]
      exact h.desc j hlive' fd' o' k' out hold.1
    · obtain ⟨hl', -, hh, -⟩ := procs_writeFds t1 i (Function.update (t.procs i).fds fd none) o'
      obtain ⟨hl1, -, -, hh1⟩ := hrelease o'
      rw [hh, hh1]
      split_ifs
      · rfl
      · exact h.free o' ((hl1.symm.trans hl'.symm).trans hl) k'

lemma DescInv.moveOffset (h : DescInv t) (fd : Fin 16) (offset : Nat) : DescInv (processMoveOffset t i fd offset) := by
  unfold processMoveOffset
  split
  · rename_i o k f hfd
    split_ifs
    · have hwrite := procs_writeHandle t o k fun h => { h with offset := offset }
      refine ⟨fun j hlive fd' o' k' out hj => ?_, fun o' hl k' => ?_⟩
      · obtain ⟨hl, hs, hf, -⟩ := hwrite j
        have hholds := h.desc j ⟨hl.symm.trans hlive.1, hs ▸ hlive.2⟩ fd' o' k' out (hf ▸ hj)
        rw [(hwrite o').2.2.2 k']
        split_ifs
        · cases out <;> exact hholds
        · exact hholds
      · obtain ⟨hl', -, -, hh⟩ := hwrite o'
        rw [hh k']
        have hfree := h.free o' (hl'.symm.trans hl) k'
        split_ifs <;> exact hfree
    · exact h
  · exact h

lemma DescInv.move (hm : Move independent c t t') (h : DescInv t) : DescInv t' := by
  cases hm with
  | mark code hs hi => exact h.update rfl ⟨rfl, fun hl => absurd rfl hl.2, rfl, rfl⟩
  | @answer j i hx hw hp =>
    have hsame : ∀ k, SameFiles (t.procs k) ((answerWaiter t j i).procs k) :=
      sameFiles_update rfl ⟨rfl, fun hl => ⟨hl.1, by rw [hw.state]; simp⟩, rfl, rfl⟩
    exact (h.congr hsame).reap fun hs => hp (hs.of_sameFiles hsame)
  | @collect cpu i j pid ha hj hp =>
    have hsame : ∀ k, SameFiles (t.procs k) (({ t with
      waited := t.waited ++ [((t.procs i).pid, (t.procs j).pid, (t.procs j).exitCode)]
      targets := t.targets ++ [pid] } : ProcessTable).procs k) := fun k => SameFiles.refl _
    exact (h.congr hsame).reap fun hs => hp (hs.of_sameFiles hsame)
  | reclaim hl hx hp => exact h.reap hp
  | drop cpu => exact h.congr fun j => SameFiles.refl _
  | leave hs => exact h.update rfl ⟨rfl, id, rfl, rfl⟩
  | block hc ha => exact h.modify_state rfl rfl rfl fun hx => absurd hx ha.state
  | dispatch hc hsp hs =>
    rw [startSlice]
    split
    · exact h
    · rename_i i hi
      refine h.update (i := i) rfl ⟨rfl, fun hl => ⟨hl.1, ?_⟩, rfl, rfl⟩
      rcases (pickNextReady_spec hi).2 with hr | hr
      · rw [hr]
        simp
      · rw [hr.1]
        simp
  | deschedule hc ha state frame hs => exact h.modify_state rfl rfl rfl fun hx => absurd hx ha.state
  | wait hc ha frame hp => exact h.modify_state rfl rfl rfl fun hx => absurd hx ha.state
  | preempt hc hr hp frame =>
    refine h.modify_state rfl rfl rfl fun hx => ?_
    exact if_pos hx
  | wakeReady due =>
    refine h.congr fun j => ?_
    change SameFiles _ (if _ then _ else _)
    split_ifs with hs
    · exact ⟨rfl, fun hl => ⟨hl.1, by rw [hs.1]; simp⟩, rfl, rfl⟩
    · exact SameFiles.refl _
  | wakeTty n hs => exact h.modify_state rfl rfl rfl fun hx => by rw [hs] at hx; cases hx
  | noMemory hfree fds parentPid => exact h.update rfl ⟨rfl, id, rfl, rfl⟩
  | spawn hfree hn ha uid =>
    refine h.fill hfree (procs_fillImage _ _ _ _) ?_ ?_ ?_
    · rw [procs_fillImage_self]
    · rw [procs_fillImage_self]
    · rw [procs_fillImage_self]
      exact h.desc _ ⟨ha.acts, ha.state⟩
  | spawnPath hfree hn ops object uid =>
    refine h.fill hfree (procs_fillImage _ _ _ _) ?_ ?_ ?_
    · rw [procs_fillImage_self]
    · rw [procs_fillImage_self]
    · rw [procs_fillImage_self]
      intro fd o k out hfd
      dsimp only at hfd
      rw [stdioTable] at hfd
      split_ifs at hfd
      cases hfd
  | adopt hi hl hr hp hz hj => exact h.update rfl ⟨rfl, id, rfl, rfl⟩
  | thread hfree hn ha =>
    refine h.fill hfree (procs_fillThread _ _) ?_ ?_ ?_
    · rw [procs_fillThread_self]
    · rw [procs_fillThread_self]
    · rw [procs_fillThread_self]
      exact h.desc _ ⟨ha.acts, ha.state⟩
  | @ptyOpen cpu i fd fds pty ha hf =>
    refine h.writeFds fds fun fd' o k out hfd' => ?_
    rw [fdAlloc_spec hf] at hfd'
    by_cases hne : fd' = fd
    · subst hne
      rw [update_self] at hfd'
      cases hfd'
    · rw [update_of_ne hne] at hfd'
      exact hfd'
  | openFile ha out => exact h.open ha.acts out
  | closeFd ha hp => exact h.close hp
  | moveOffset ha fd offset => exact h.moveOffset fd offset
  | sbrk ha chunks =>
    rw [processSbrk]
    split_ifs
    · exact h
    · exact h.update rfl ⟨rfl, id, rfl, rfl⟩
  | setuid i uid => exact h.update rfl ⟨rfl, id, rfl, rfl⟩
  | desktopUid uid => exact h.update rfl ⟨rfl, id, rfl, rfl⟩

end files

/-! ### Whole runs -/

end VibeOS
