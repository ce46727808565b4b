import VibeOS.Kernel.Process

/-!
# Address spaces

Every image and every heap chunk is held by one slot or was freed once, and a thread that has not exited
borrows the page tables of a living owner. `SpaceInv` says so; `spaceInv_step` shows that every kernel
entry keeps it, in any interleaving, as long as the check of the kernel stacks ends no owner that has living
threads (`SparesThreads`), and `run_address_space` is the result. The delicate entries are those that end a
process: its slot is marked first and its threads after that, so between the two the invariant only holds with an
exception (`Orphans`). The check of the stacks leaves the threads out, and `address_space_fails` is what follows.
-/

namespace VibeOS

open ProcessTable List Option Function

def Process.held (p : Process) : List Nat :=
  if !p.isThread ∧ p.userImage ≠ 0 then p.heapChunks ++ [p.userImage] else []

/-- A loaded process that owns its address space. -/
structure Process.Owner (p : Process) (i : ProcSlot) : Prop where
  loaded : p.loaded = true
  owns : p.isThread = false
  tables : p.userPageTables = some i
  cr3 : p.cr3 = some i
  image : p.userImage ≠ 0

/-- What holds of one slot: an unused slot has no address space; an owner has its own; a thread that has
not exited has that of an owner of the same image, which has not exited unless it is `dying`. -/
structure SlotOk (t : ProcessTable) (dying : Option ProcSlot) (i : ProcSlot) : Prop where
  unused : (t.procs i).loaded = false → (t.procs i).userImage = 0 ∧ (t.procs i).userPageTables = none ∧
    (t.procs i).cr3 = none
  nonempty : (t.procs i).loaded = true → (t.procs i).state ≠ .empty
  owner : (t.procs i).loaded = true → (t.procs i).isThread = false → (t.procs i).Owner i
  thread : (t.procs i).loaded = true → (t.procs i).isThread = true → (t.procs i).state ≠ .exited →
    ((t.procs i).userPageTables = none ∧ (t.procs i).cr3 = none) ∨
    ∃ o, (t.procs i).userPageTables = some o ∧ (t.procs i).cr3 = some o ∧
      (t.procs o).Owner o ∧ (t.procs o).userImage = (t.procs i).userImage ∧
      ((t.procs o).state ≠ .exited ∨ dying = some o)

/-- Every allocation is held by one slot, or was freed once. -/
def AllocOk (t : ProcessTable) : Prop :=
  ∀ a, t.freed.count a + ∑ i, (t.procs i).held.count a = if 0 < a ∧ a < t.nextAlloc then 1 else 0

/-- The invariant; `dying` is an owner whose threads are still to be killed. -/
structure Orphans (dying : Option ProcSlot) (t : ProcessTable) : Prop where
  slots : ∀ i, SlotOk t dying i
  allocs : AllocOk t
  pos : 0 < t.nextAlloc

abbrev SpaceInv (t : ProcessTable) : Prop := Orphans none t

variable {p q : Process}

section frame

variable {t t' : ProcessTable} {dying : Option ProcSlot} {i j : ProcSlot}

/-- The address space of a slot is the same, and so is whether it has exited. -/
structure SameTables (p q : Process) : Prop where
  loaded : q.loaded = p.loaded
  isThread : q.isThread = p.isThread
  image : q.userImage = p.userImage
  tables : q.userPageTables = p.userPageTables
  cr3 : q.cr3 = p.cr3
  exited : q.state = .exited ↔ p.state = .exited
  nonempty : p.loaded = true → p.state ≠ .empty → q.state ≠ .empty

/-- Besides, the heap is the same. -/
structure SameSpace (p q : Process) : Prop extends SameTables p q where
  chunks : q.heapChunks = p.heapChunks

lemma SameSpace.refl (p : Process) : SameSpace p p :=
  ⟨⟨rfl, rfl, rfl, rfl, rfl, Iff.rfl, fun _ h => h⟩, rfl⟩

lemma SameTables.owner (h : SameTables p q) (hp : p.Owner i) : q.Owner i :=
  ⟨h.loaded.trans hp.loaded, h.isThread.trans hp.owns, h.tables.trans hp.tables, h.cr3.trans hp.cr3,
    by rw [h.image]; exact hp.image⟩

lemma SameSpace.held (h : SameSpace p q) : q.held = p.held := by
  rw [Process.held, Process.held, h.isThread, h.image, h.chunks]

lemma SlotOk.congr (h : SlotOk t dying i) (hp : ∀ i, SameTables (t.procs i) (t'.procs i)) : SlotOk t' dying i := by
  obtain ⟨h1, h2, h3, h4⟩ := h
  have hi := hp i
  refine ⟨?_, ?_, ?_, ?_⟩
  · rw [hi.loaded, hi.image, hi.tables, hi.cr3]
    exact h1
  · rw [hi.loaded]
    exact fun hl => hi.nonempty hl (h2 hl)
  · rw [hi.loaded, hi.isThread]
    exact fun hl ht => hi.owner (h3 hl ht)
  · rw [hi.loaded, hi.isThread, hi.tables, hi.cr3, hi.image, Ne, hi.exited]
    intro hl ht hs
    rcases h4 hl ht hs with hnone | ⟨o, ho1, ho2, ho3, ho4, ho5⟩
    · exact .inl hnone
    · have ho := hp o
      refine .inr ⟨o, ho1, ho2, ho.owner ho3, by rw [ho.image]; exact ho4, ?_⟩
      rw [Ne, ho.exited]
      exact ho5

lemma Orphans.congr (h : Orphans dying t) (hp : ∀ i, SameSpace (t.procs i) (t'.procs i))
    (hf : t'.freed = t.freed) (hn : t'.nextAlloc = t.nextAlloc) : Orphans dying t' where
  slots i := (h.slots i).congr fun j => (hp j).toSameTables
  allocs a := by
    rw [hf, hn, Finset.sum_congr rfl fun i _ => by rw [(hp i).held]]
    exact h.allocs a
  pos := by
    rw [hn]
    exact h.pos

lemma Orphans.modify (h : Orphans dying t) (f : Process → Process)
    (hf : SameSpace (t.procs i) (f (t.procs i))) : Orphans dying (t.modify i f) :=
  h.congr (fun j => by
    by_cases hj : j = i
    · subst hj
      rw [procs_modify_self]
      exact hf
    · rw [procs_modify_of_ne t f hj]
      exact SameSpace.refl _) rfl rfl

/-- The fields of a slot that have to do with its address space and its life. -/
def Process.space (p : Process) :=
  (p.loaded, p.isThread, p.userImage, p.userPageTables, p.cr3, p.heapChunks, p.state)

lemma SameSpace.of_eq (h : q.space = p.space) : SameSpace p q := by
  simp only [Process.space, Prod.mk.injEq] at h
  obtain ⟨h1, h2, h3, h4, h5, h6, h7⟩ := h
  exact ⟨⟨h1, h2, h3, h4, h5, by rw [h7], fun _ h => by rw [h7]; exact h⟩, h6⟩

lemma Orphans.quiet (h : Orphans dying t) (i : ProcSlot) (f : Process → Process) (hf : ∀ p, (f p).space = p.space) :
    Orphans dying (t.modify i f) :=
  h.modify f (.of_eq (hf _))

lemma Orphans.setCurrent (h : Orphans dying t) (cpu : Nat) (v : Option ProcSlot) : Orphans dying (t.setCurrent cpu v) :=
  h.congr (fun _ => SameSpace.refl _) rfl rfl

lemma sum_held_update (f : ProcSlot → Process) (i : ProcSlot) (p : Process) (a : Nat) :
    (∑ j, (update f i p j).held.count a) + (f i).held.count a = (∑ j, (f j).held.count a) + p.held.count a := by
  rw [← Finset.add_sum_erase _ _ (Finset.mem_univ i), ← Finset.add_sum_erase (Finset.univ) (fun j =>
    (f j).held.count a) (Finset.mem_univ i), update_self,
    Finset.sum_congr rfl fun j hj => by rw [update_of_ne (Finset.ne_of_mem_erase hj)]]
  omega

lemma releaseImage_eq (t : ProcessTable) (i : ProcSlot) : releaseImage t i = t.freed ++ (t.procs i).held := by
  rw [releaseImage, Process.held]
  split_ifs <;> simp

lemma allocOk_update (chunks : List Nat) (h : AllocOk t)
    (hp : t'.procs = update t.procs i p) (hf : t'.freed = t.freed ++ (t.procs i).held)
    (hheld : p.held = chunks) (hc : ∀ a, chunks.count a = if t.nextAlloc ≤ a ∧ a < t'.nextAlloc then 1
      else 0) (hpos : 0 < t.nextAlloc) (hn : t.nextAlloc ≤ t'.nextAlloc) : AllocOk t' := by
  intro a
  have h0 := h a
  have hsum := sum_held_update t.procs i p a
  rw [hheld, hc a] at hsum
  rw [hp, hf, count_append]
  split_ifs at h0 hsum ⊢ <;> omega

end frame

/-! ### Slots that come and go -/

section

variable {t t' : ProcessTable} {dying : Option ProcSlot} {i c : ProcSlot}

/-- Slots other than `i` keep what the invariant says, if `i` was no living owner. -/
lemma SlotOk.of_other {j : ProcSlot} (h : SlotOk t dying j) (hj : j ≠ i) (hp : ∀ k, k ≠ i → t'.procs k = t.procs k)
    (hi : (t.procs i).loaded = true → (t.procs i).state = .exited ∧ dying ≠ some i) : SlotOk t' dying j := by
  obtain ⟨h1, h2, h3, h4⟩ := h
  rw [← hp j hj] at h1 h2 h3 h4
  refine ⟨h1, h2, h3, fun hl ht hs => ?_⟩
  rcases h4 hl ht hs with hnone | ⟨o, ho1, ho2, ho3, ho4, ho5⟩
  · exact .inl hnone
  · have hoi : o ≠ i := fun heq => by
      subst heq
      obtain ⟨hex, hd⟩ := hi ho3.loaded
      exact ho5.elim (fun hne => hne hex) hd
    refine .inr ⟨o, ho1, ho2, ?_⟩
    rw [hp o hoi]
    exact ⟨ho3, ho4, ho5⟩

lemma Orphans.reap (h : Orphans dying t)
    (hi : (t.procs i).loaded = true → (t.procs i).state = .exited ∧ dying ≠ some i) :
    Orphans dying (processReap t i) where
  slots j := by
    by_cases hj : j = i
    · subst hj
      refine ⟨fun _ => ?_, ?_, ?_, ?_⟩ <;> simp [processReap]
    · exact (h.slots j).of_other hj (fun k hk => procs_processReap_of_ne hk) hi
  allocs := allocOk_update [] h.allocs rfl (releaseImage_eq t i) (by simp [Process.held])
    (fun a => by
      change _ = if t.nextAlloc ≤ a ∧ a < t.nextAlloc then 1 else 0
      rw [if_neg (by omega)]
      rfl) h.pos le_rfl
  pos := h.pos

lemma SpaceInv.findFreeSlot (h : SpaceInv t) (hs : processFindFreeSlot t = some (i, t')) :
    SpaceInv t' ∧ (t'.procs i).loaded = false ∧ ∀ k, k ≠ i → t'.procs k = t.procs k := by
  rcases findFreeSlot_cases hs with ⟨hfree, rfl⟩ | ⟨hl, hex, rfl⟩
  · refine ⟨h, ?_, fun _ _ => rfl⟩
    by_contra hl
    have hl : (t'.procs i).loaded = true := by simpa using hl
    rcases hfree with hfree | hfree
    · rw [hl] at hfree
      cases hfree
    · exact (h.slots i).nonempty hl hfree
  · exact ⟨Orphans.reap h fun _ => ⟨hex, by simp⟩, by simp [processReap], fun k hk =>
      procs_processReap_of_ne hk⟩

lemma SlotOk.held_of_unused (h : SlotOk t dying i) (hl : (t.procs i).loaded = false) : (t.procs i).held = [] := by
  rw [Process.held, if_neg]
  simp [(h.unused hl).1]

lemma SpaceInv.load (h : SpaceInv t) (hl : (t.procs i).loaded = false) (fds : FdTable) (pid : Nat)
    (out : LoadOutcome) : SpaceInv (processLoadImageSlot t i fds pid out).2 := by
  have hun := (h.slots i).unused hl
  have hno : (t.procs i).loaded = true → (t.procs i).state = .exited ∧ (none : Option ProcSlot) ≠ some i :=
    fun hl' => by
      rw [hl] at hl'
      cases hl'
  cases out with
  | invalid => exact h
  | noMemory =>
    refine ⟨fun j => ?_, ?_, h.pos⟩
    · by_cases hj : j = i
      · subst hj
        refine ⟨fun _ => ?_, ?_, ?_, ?_⟩ <;> simp [processLoadImageSlot, hl, hun]
      · exact (h.slots j).of_other hj (fun k hk => update_of_ne hk _ _) hno
    · refine allocOk_update [] h.allocs rfl (releaseImage_eq t i) (by simp [Process.held])
        (fun a => ?_) h.pos le_rfl
      change _ = if t.nextAlloc ≤ a ∧ a < t.nextAlloc then 1 else 0
      rw [if_neg (by omega)]
      rfl
  | ok =>
    refine ⟨fun j => ?_, ?_, Nat.succ_pos _⟩
    · by_cases hj : j = i
      · subst hj
        have hpos := h.pos
        refine ⟨?_, ?_, fun _ _ => ⟨?_, ?_, ?_, ?_, ?_⟩, ?_⟩ <;> simp [processLoadImageSlot, processSetupContext]
        omega
      · exact (h.slots j).of_other hj (fun k hk => update_of_ne hk _ _) hno
    · refine allocOk_update [t.nextAlloc] h.allocs rfl (releaseImage_eq t i) ?_ (fun a => ?_) h.pos (Nat.le_succ _)
      · have hpos : t.nextAlloc ≠ 0 := Nat.pos_iff_ne_zero.mp h.pos
        exact if_pos ⟨rfl, hpos⟩
      · change _ = if t.nextAlloc ≤ a ∧ a < t.nextAlloc + 1 then 1 else 0
        rw [count_singleton]
        by_cases ha : t.nextAlloc = a
        · simp [ha]
        · rw [if_neg (by simpa using ha), if_neg (by omega)]

/-- A thread takes over the address space of its creator, which has not exited. -/
lemma SpaceInv.createThread (h : SpaceInv t) (hc : (t.procs c).state ≠ .exited) (argsOk : Bool) :
    SpaceInv (processCreateThread t c argsOk).2 := by
  rw [processCreateThread]
  split_ifs
  · exact h
  · rcases hs : processFindFreeSlot t with _ | ⟨i, t1⟩
    · exact h
    · obtain ⟨h1, hl, hother⟩ := h.findFreeSlot hs
      have hun := (h1.slots i).unused hl
      -- what the thread gets: nothing, or the tables of a living owner
      have hq : ((t1.procs c).userPageTables = none ∧ (t1.procs c).cr3 = none) ∨
          ∃ o, o ≠ i ∧ (t1.procs c).userPageTables = some o ∧ (t1.procs c).cr3 = some o ∧
            (t1.procs o).Owner o ∧ (t1.procs o).userImage = (t1.procs c).userImage ∧
            (t1.procs o).state ≠ .exited := by
        by_cases hci : c = i
        · rw [hci]
          exact .inl hun.2
        · have hne : ∀ o, (t1.procs o).Owner o → o ≠ i := fun o ho heq => by
            rw [heq] at ho
            rw [ho.loaded] at hl
            cases hl
          have hc1 : (t1.procs c).state ≠ .exited := by
            rw [hother c hci]
            exact hc
          by_cases hlc : (t1.procs c).loaded = true
          · by_cases htc : (t1.procs c).isThread = true
            · rcases (h1.slots c).thread hlc htc hc1 with hnone | ⟨o, ho1, ho2, ho3, ho4, ho5⟩
              · exact .inl hnone
              · exact .inr ⟨o, hne o ho3, ho1, ho2, ho3, ho4, ho5.resolve_right (by simp)⟩
            · have ho := (h1.slots c).owner hlc (by simpa using htc)
              exact .inr ⟨c, hci, ho.tables, ho.cr3, ho, rfl, hc1⟩
          · exact .inl ((h1.slots c).unused (by simpa using hlc)).2
      refine ⟨fun j => ?_, ?_, h1.pos⟩
      · by_cases hj : j = i
        · subst hj
          refine ⟨?_, ?_, ?_, fun _ _ _ => ?_⟩
          rotate_right
          · rcases hq with hnone | ⟨o, hoi, ho1, ho2, ho3, ho4, ho5⟩
            · refine .inl ?_
              simpa [processSetupContext] using hnone
            · refine .inr ⟨o, ?_⟩
              rw [show ({ t1.modify j _ with nextPid := _ } : ProcessTable).procs o = t1.procs o from
                update_of_ne hoi _ _]
              refine ⟨?_, ?_, ho3, ?_, .inl ho5⟩
              · simpa [processSetupContext] using ho1
              · simpa [processSetupContext] using ho2
              · simpa [processSetupContext] using ho4
          all_goals simp [processSetupContext]
        · exact (h1.slots j).of_other hj (fun k hk => update_of_ne hk _ _) fun hl' => by
            rw [hl] at hl'
            cases hl'
      · refine allocOk_update (i := i) [] h1.allocs rfl ?_ (by
          simp [Process.held, processSetupContext]) (fun a => ?_) h1.pos le_rfl
        · rw [(h1.slots i).held_of_unused hl, append_nil]
          rfl
        · change _ = if t1.nextAlloc ≤ a ∧ a < t1.nextAlloc then 1 else 0
          rw [if_neg (by omega)]
          rfl

end

/-! ### The end of a process -/

section

variable {t t' : ProcessTable} {dying : Option ProcSlot} {i j o : ProcSlot}

lemma procs_dropCurrent (t : ProcessTable) (cpu : Nat) (i : ProcSlot) : (dropCurrent t cpu i).procs = t.procs := by
  rw [dropCurrent]
  split_ifs <;> rfl

lemma answerWaiter_frame (hj : Waits t j i) (k : ProcSlot) : SameSpace (t.procs k) ((answerWaiter t j i).procs k) := by
  by_cases hkj : k = j
  · subst hkj
    rw [procs_answerWaiter_self]
    refine ⟨⟨rfl, rfl, rfl, rfl, rfl, ?_, fun _ _ => by simp⟩, rfl⟩
    rw [hj.state]
    simp
  · rw [procs_answerWaiter_of_ne hkj]
    exact SameSpace.refl _

lemma wakeWaiter_frame (hj : j ≠ i) : SameSpace (t.procs j) ((processWakeWaiter t i).procs j) := by
  rcases wakeWaiter_cases t i with heq | ⟨k, hk, heq⟩
  · rw [heq]
    exact SameSpace.refl _
  · rw [heq, procs_processReap_of_ne hj]
    exact answerWaiter_frame hk j

lemma Orphans.wakeWaiter (h : Orphans dying t) (hs : (t.procs i).state = .exited)
    (hd : dying ≠ some i) : Orphans dying (processWakeWaiter t i) := by
  rcases wakeWaiter_cases t i with heq | ⟨j, hj, heq⟩
  · rw [heq]
    exact h
  · rw [heq]
    refine Orphans.reap (h.congr (answerWaiter_frame hj) rfl rfl) fun _ => ⟨?_, hd⟩
    rw [procs_answerWaiter_of_ne (hj.ne (by rw [hs]; simp))]
    exact hs

lemma markExited_held (t : ProcessTable) (i : ProcSlot) (code : Int) (a : Nat) :
    ∑ j, ((markExited t i code).procs j).held.count a = ∑ j, (t.procs j).held.count a := by
  refine Finset.sum_congr rfl fun j _ => ?_
  by_cases hj : j = i
  · subst hj
    rw [procs_markExited_self]
    rfl
  · rw [procs_markExited_of_ne hj]

lemma owner_markExited (code : Int) (h : (t.procs o).Owner o) : ((markExited t i code).procs o).Owner o := by
  by_cases ho : o = i
  · subst ho
    rw [procs_markExited_self]
    exact ⟨h.1, h.2, h.3, h.4, h.5⟩
  · rw [procs_markExited_of_ne ho]
    exact h

/-- A process is marked; if it owns an address space, its threads are orphans until they are killed. -/
lemma Orphans.markExited (h : Orphans dying t) (code : Int) {dying' : Option ProcSlot}
    (hd : dying ≠ none → dying' = dying) (hi : (t.procs i).Owner i → dying' = some i) :
    Orphans dying' (markExited t i code) := by
  refine ⟨fun j => ?_, fun a => ?_, h.pos⟩
  · obtain ⟨h1, h2, h3, h4⟩ := h.slots j
    by_cases hj : j = i
    · subst hj
      refine ⟨?_, ?_, ?_, ?_⟩ <;> rw [procs_markExited_self]
      · exact h1
      · simp
      · intro hl ht
        have ho := h3 hl ht
        exact ⟨ho.1, ho.2, ho.3, ho.4, ho.5⟩
      · simp
    · refine ⟨?_, ?_, ?_, ?_⟩ <;> rw [procs_markExited_of_ne hj]
      · exact h1
      · exact h2
      · exact h3
      · intro hl ht hs
        rcases h4 hl ht hs with hnone | ⟨o, ho1, ho2, ho3, ho4, ho5⟩
        · exact .inl hnone
        · refine .inr ⟨o, ho1, ho2, owner_markExited _ ho3, ?_, ?_⟩
          · by_cases hoi : o = i
            · subst hoi
              rw [procs_markExited_self]
              exact ho4
            · rw [procs_markExited_of_ne hoi]
              exact ho4
          · by_cases hoi : o = i
            · subst hoi
              exact .inr (hi ho3)
            · rw [procs_markExited_of_ne hoi]
              refine ho5.imp_right fun heq => ?_
              rw [hd (by rw [heq]; simp), heq]
  · rw [markExited_held]
    exact h.allocs a

/-- ProcSlot `j` is no thread of `o` that still lives. -/
def Gone (t : ProcessTable) (o j : ProcSlot) : Prop :=
  (t.procs j).loaded = true → (t.procs j).isThread = true → (t.procs j).state ≠ .exited →
    (t.procs j).userPageTables ≠ some o

lemma Orphans.close (h : Orphans (some o) t) (hgone : ∀ j, Gone t o j) : SpaceInv t where
  slots j := by
    obtain ⟨h1, h2, h3, h4⟩ := h.slots j
    refine ⟨h1, h2, h3, fun hl ht hs => ?_⟩
    rcases h4 hl ht hs with hnone | ⟨q, hq1, hq2, hq3, hq4, hq5⟩
    · exact .inl hnone
    · refine .inr ⟨q, hq1, hq2, hq3, hq4, .inl ?_⟩
      rcases hq5 with hne | heq
      · exact hne
      · cases heq
        exact absurd hq1 (hgone j hl ht hs)
  allocs := h.allocs
  pos := h.pos

lemma Gone.congr (h : Gone t o j) (hp : SameSpace (t.procs j) (t'.procs j)) : Gone t' o j := by
  rw [Gone, hp.loaded, hp.isThread, hp.tables, Ne, hp.exited]
  exact h

/-- The invariant of the loop over the threads of an owner that was marked. -/
structure Dying (o : ProcSlot) (t : ProcessTable) : Prop where
  orphans : Orphans (some o) t
  owner : (t.procs o).Owner o
  state : (t.procs o).state = .exited

/-- One turn of the loop: the slot is no living thread of the owner afterwards, and other slots stay as
they are. -/
lemma Dying.killSibling (h : Dying o t) (cpu : Nat) (i : ProcSlot) :
    Dying o (killSibling cpu o t i) ∧ Gone (killSibling cpu o t i) o i ∧
      ∀ j, j ≠ i → SameSpace (t.procs j) ((VibeOS.killSibling cpu o t i).procs j) := by
  rw [VibeOS.killSibling]
  have hskip : Gone t o i → Dying o t ∧ Gone t o i ∧ ∀ j, j ≠ i → SameSpace (t.procs j) (t.procs j) :=
    fun hg => ⟨h, hg, fun _ _ => SameSpace.refl _⟩
  by_cases h1 : i = o ∨ !(t.procs i).loaded ∨ !(t.procs i).isThread
  · rw [if_pos h1]
    refine hskip fun hl ht => ?_
    rcases h1 with rfl | h1 | h1
    · rw [h.owner.owns] at ht
      cases ht
    · rw [hl] at h1
      cases h1
    · rw [ht] at h1
      cases h1
  · rw [if_neg h1]
    simp only [not_or, Bool.not_eq_true, Bool.not_eq_false'] at h1
    obtain ⟨hio, hl, ht⟩ := h1
    by_cases h2 : (t.procs i).state = .exited ∨ (t.procs i).state = .empty
    · rw [if_pos h2]
      refine hskip fun _ _ hs => ?_
      exact absurd (h2.resolve_left hs) ((h.orphans.slots i).nonempty hl)
    · rw [if_neg h2]
      by_cases h3 : (t.procs i).userPageTables ≠ (t.procs o).userPageTables
      · rw [if_pos h3]
        rw [h.owner.tables] at h3
        exact hskip fun _ _ _ => h3
      · rw [if_neg h3]
        -- the thread is marked and handed over
        have hmark : Orphans (some o) (VibeOS.markExited t i (-1)) :=
          h.orphans.markExited (-1) (fun _ => rfl) fun ho => by
            rw [ho.owns] at ht
            cases ht
        have hex : ((VibeOS.markExited t i (-1)).procs i).state = .exited := by
          rw [procs_markExited_self]
        have hwake := hmark.wakeWaiter hex (by simpa using Ne.symm hio)
        have hframe : ∀ j, j ≠ i → SameSpace (t.procs j) ((processWakeWaiter (VibeOS.markExited t i (-1)) i).procs j) :=
          fun j hj => by
            have := wakeWaiter_frame (t := VibeOS.markExited t i (-1)) hj
            rw [procs_markExited_of_ne hj] at this
            exact this
        have hdrop : ∀ u : ProcessTable, (dropCurrent u cpu i).procs = u.procs := fun u => procs_dropCurrent u cpu i
        have hgone : Gone (processWakeWaiter (VibeOS.markExited t i (-1)) i) o i := by
          intro hl' _ hs'
          rcases wakeWaiter_cases (VibeOS.markExited t i (-1)) i with heq | ⟨j, -, heq⟩
          · rw [heq] at hs'
            exact absurd hex hs'
          · rw [heq] at hl'
            simp [processReap] at hl'
        refine ⟨⟨hwake.congr (fun j => ?_) ?_ ?_, ?_, ?_⟩, ?_, fun j hj => ?_⟩
        · rw [hdrop]
          exact SameSpace.refl _
        · rw [dropCurrent]
          split_ifs <;> rfl
        · rw [dropCurrent]
          split_ifs <;> rfl
        · rw [hdrop]
          exact (hframe o (Ne.symm hio)).owner h.owner
        · rw [hdrop]
          exact (hframe o (Ne.symm hio)).exited.mpr h.state
        · rw [Gone, hdrop]
          exact hgone
        · rw [hdrop]
          exact hframe j hj

lemma Dying.foldl (cpu : Nat) (l : List ProcSlot) (h : Dying o t) (p : ProcSlot → Prop) (hp : ∀ j, p j → Gone t o j) :
    Dying o (l.foldl (VibeOS.killSibling cpu o) t) ∧
      ∀ j, p j ∨ j ∈ l → Gone (l.foldl (VibeOS.killSibling cpu o) t) o j := by
  induction l generalizing t p with
  | nil => exact ⟨h, fun j hj => hp j (hj.resolve_right (by simp))⟩
  | cons i l ih =>
    obtain ⟨hd, hg, hframe⟩ := h.killSibling cpu i
    have hrest := ih hd (fun j => p j ∨ j = i) fun j hj => by
      by_cases hji : j = i
      · rw [hji]
        exact hg
      · exact (hp j (hj.resolve_right hji)).congr (hframe j hji)
    refine ⟨hrest.1, fun j hj => hrest.2 j ?_⟩
    rcases hj with hj | hj
    · exact .inl (.inl hj)
    · rcases mem_cons.mp hj with hj | hj
      · exact .inl (.inr hj)
      · exact .inr hj

lemma SpaceInv.die (h : SpaceInv t) (cpu : Nat) (i : ProcSlot) (code : Int) : SpaceInv (processDie cpu t i code) := by
  rw [processDie, processKillSiblingThreads]
  have hex : ((markExited t i code).procs i).state = .exited := by rw [procs_markExited_self]
  by_cases ho : (t.procs i).Owner i
  · have ho' := owner_markExited (i := i) code ho
    have hd : Dying i (markExited t i code) :=
      ⟨Orphans.markExited h code (fun h0 => absurd rfl h0) fun _ => rfl, ho', hex⟩
    rw [if_neg (by rw [ho'.owns, ho'.tables]; simp)]
    obtain ⟨hd', hg⟩ := hd.foldl cpu (List.finRange PROCESS_MAX_COUNT) (fun _ => False) fun _ hf => hf.elim
    exact Orphans.wakeWaiter (hd'.orphans.close fun j => hg j (.inr (mem_finRange j))) hd'.state (by simp)
  · have hm : SpaceInv (markExited t i code) :=
      Orphans.markExited h code (fun h0 => absurd rfl h0) fun h0 => absurd h0 ho
    rw [if_pos]
    · exact Orphans.wakeWaiter hm hex (by simp)
    · rw [procs_markExited_self]
      by_cases hl : (t.procs i).loaded = true
      · by_cases ht : (t.procs i).isThread = true
        · exact .inl ht
        · exact absurd ((h.slots i).owner hl (by simpa using ht)) ho
      · exact .inr ((h.slots i).unused (by simpa using hl)).2.1

lemma Orphans.dropCurrent (h : Orphans dying t) (cpu : Nat) (i : ProcSlot) : Orphans dying (dropCurrent t cpu i) := by
  rw [VibeOS.dropCurrent]
  split_ifs
  · exact h.setCurrent cpu none
  · exact h

/-- The processes whose stack has overflown have no living threads. -/
def SparesThreads (smashed : ProcSlot → Bool) (t : ProcessTable) : Prop :=
  ∀ i, smashed i = true → (t.procs i).loaded = true → (t.procs i).isThread = false → (t.procs i).state ≠ .exited →
    ∀ k, Gone t i k

/-- One turn of the check: the process has ended, and every other slot keeps its space. -/
lemma canaryKill_cases (cpu : Nat) (smashed : ProcSlot → Bool) (t : ProcessTable) (i : ProcSlot) :
    canaryKill cpu smashed t i = t ∨ smashed i = true ∧ (t.procs i).loaded = true ∧ (t.procs i).state ≠ .exited ∧
      canaryKill cpu smashed t i =
        VibeOS.dropCurrent (processWakeWaiter (VibeOS.markExited t i (-14)) i) cpu i := by
  rw [canaryKill]
  split_ifs with h1 h2
  · exact .inl rfl
  · exact .inl rfl
  · simp only [not_or, Bool.not_eq_true, Bool.not_eq_false'] at h1
    exact .inr ⟨h1.1, h1.2, fun hx => h2 (.inl hx), rfl⟩

lemma canaryKill_frame (cpu : Nat) (smashed : ProcSlot → Bool) (t : ProcessTable) {i k : ProcSlot} (hk : k ≠ i) :
    SameSpace (t.procs k) ((canaryKill cpu smashed t i).procs k) := by
  rcases canaryKill_cases cpu smashed t i with heq | ⟨-, -, -, heq⟩
  · rw [heq]
    exact SameSpace.refl _
  · have hw := wakeWaiter_frame (t := VibeOS.markExited t i (-14)) hk
    rw [procs_markExited_of_ne hk] at hw
    rw [heq, procs_dropCurrent]
    exact hw

lemma SparesThreads.canaryKill {smashed : ProcSlot → Bool} (h : SparesThreads smashed t) (cpu : Nat) (i : ProcSlot) :
    SparesThreads smashed (canaryKill cpu smashed t i) := by
  rcases canaryKill_cases cpu smashed t i with heq | ⟨-, -, -, heq⟩
  · rw [heq]
    exact h
  · -- what the check leaves of the slot is no owner and no living thread
    have hend : ((VibeOS.canaryKill cpu smashed t i).procs i).state ≠ .exited →
        ((VibeOS.canaryKill cpu smashed t i).procs i).loaded = false := by
      rw [heq, procs_dropCurrent]
      intro hs
      rcases wakeWaiter_cases (VibeOS.markExited t i (-14)) i with hw | ⟨j, -, hw⟩
      · rw [hw, procs_markExited_self] at hs
        exact absurd rfl hs
      · rw [hw]
        simp [processReap]
    intro o hsm hl ht hs k hlk htk hsk
    have ho : o ≠ i := by
      rintro rfl
      rw [hend hs] at hl
      cases hl
    have hk : k ≠ i := by
      rintro rfl
      rw [hend hsk] at hlk
      cases hlk
    have fo := canaryKill_frame cpu smashed t ho
    have fk := canaryKill_frame cpu smashed t hk
    rw [fk.tables]
    exact h o hsm (fo.loaded.symm.trans hl) (fo.isThread.symm.trans ht) (fun hx => hs (fo.exited.mpr hx)) k
      (fk.loaded.symm.trans hlk) (fk.isThread.symm.trans htk) fun hx => hsk (fk.exited.mpr hx)

lemma SpaceInv.canaryKill {smashed : ProcSlot → Bool} (h : SpaceInv t) (hspare : SparesThreads smashed t) (cpu : Nat)
    (i : ProcSlot) : SpaceInv (canaryKill cpu smashed t i) := by
  rcases canaryKill_cases cpu smashed t i with heq | ⟨hsm, hl, hs, heq⟩
  · rw [heq]
    exact h
  · have hex : ((VibeOS.markExited t i (-14)).procs i).state = .exited := by rw [procs_markExited_self]
    have hm : SpaceInv (VibeOS.markExited t i (-14)) := by
      by_cases ht : (t.procs i).isThread = true
      · refine Orphans.markExited h (-14) (fun h0 => absurd rfl h0) fun ho => ?_
        rw [ho.owns] at ht
        cases ht
      · have hgone := hspare i hsm hl (by simpa using ht) hs
        have ho : Orphans (some i) (VibeOS.markExited t i (-14)) :=
          Orphans.markExited h (-14) (fun h0 => absurd rfl h0) fun _ => rfl
        refine ho.close fun k => ?_
        by_cases hk : k = i
        · subst hk
          intro _ _ hsk
          exact absurd hex hsk
        · rw [Gone, procs_markExited_of_ne hk]
          exact hgone k
    rw [heq]
    exact Orphans.dropCurrent (Orphans.wakeWaiter hm hex (by simp)) cpu i

lemma SpaceInv.canaryCheck {smashed : ProcSlot → Bool} (h : SpaceInv t) (hspare : SparesThreads smashed t) (cpu : Nat) :
    SpaceInv (kstackCanaryCheck cpu smashed t) :=
  (List.foldlRecOn (motive := fun u => SpaceInv u ∧ SparesThreads smashed u) _ _ ⟨h, hspare⟩
    fun _ hu i _ => ⟨hu.1.canaryKill hu.2 cpu i, hu.2.canaryKill cpu i⟩).1

lemma SpaceInv.kill (h : SpaceInv t) (cpu pid : Nat) : SpaceInv (processKill cpu t pid) := by
  rw [processKill]
  rcases processFindByPid t pid with _ | i
  · exact h
  · dsimp only
    split_ifs
    · exact h
    · exact Orphans.dropCurrent (h.die cpu i (-1)) cpu i

lemma SpaceInv.interruptTerminal (h : SpaceInv t) (cpu object : Nat) :
    SpaceInv (processInterruptTerminal cpu t object) := by
  rw [processInterruptTerminal]
  split_ifs
  · exact h
  · refine List.foldlRecOn _ _ h fun u hu i _ => ?_
    rw [interruptWaiter]
    split_ifs
    · exact hu
    · exact hu
    · rcases (u.procs i).fds 0 with _ | o
      · exact hu
      · rcases o with ⟨ops, o⟩ | ⟨j, k⟩
        · dsimp only
          split_ifs
          · exact hu.kill cpu _
          · exact hu
        · exact hu

end

/-- The check of the kernel stacks, where the entry makes it, ends no owner that has living threads. -/
def KernelEvent.SparesThreads (t : ProcessTable) : KernelEvent → Prop
  | .startSlice cpu smashed => t.slice cpu = none → VibeOS.SparesThreads smashed t
  | .fault cpu smashed => ∀ i ∈ t.runs cpu, (t.procs i).state ≠ .exited → VibeOS.SparesThreads smashed t
  | _ => True

/-! ### Kernel entries -/

section

variable {t : ProcessTable} {i : ProcSlot}

section

variable (h : SpaceInv t)

include h

lemma SpaceInv.spawnNamed (parent : ProcSlot) (found : Bool) (out : LoadOutcome) :
    SpaceInv (processSpawnNamedFromParent t parent found out).2 := by
  rw [processSpawnNamedFromParent]
  rcases hs : processFindFreeSlot t with _ | ⟨slot, t1⟩
  · exact h
  · obtain ⟨h1, hl, -⟩ := h.findFreeSlot hs
    dsimp only
    by_cases hf : (!found) = true
    · rw [if_pos hf]
      exact h1
    · rw [if_neg hf]
      have h2 := h1.load hl (t1.procs parent).fds (t1.procs parent).pid out
      by_cases hok : (!(processLoadImageSlot t1 slot (t1.procs parent).fds (t1.procs parent).pid out).1) = true
      · rw [if_pos hok]
        exact h2
      · rw [if_neg hok]
        dsimp only
        exact Orphans.quiet h2 slot _ fun _ => rfl

lemma SpaceInv.spawnPath (stdio : FdObject) (uid : Nat) (found : Bool)
    (out : LoadOutcome) : SpaceInv (processSpawnPath t stdio uid found out).2 := by
  rw [processSpawnPath]
  split_ifs
  · exact h
  · rcases hs : processFindFreeSlot t with _ | ⟨slot, t1⟩
    · exact h
    · obtain ⟨h1, hl, -⟩ := h.findFreeSlot hs
      dsimp only
      split_ifs
      · exact h1.load hl _ _ out
      · dsimp only
        exact Orphans.quiet (h1.load hl _ _ out) slot _ fun _ => rfl

lemma SpaceInv.endSlice (cpu : Nat) (i : ProcSlot) : SpaceInv (endSlice t cpu i) := by
  rw [VibeOS.endSlice]
  have h1 : SpaceInv (t.modify i fun p => { p with runningOnCpu := none }) :=
    Orphans.quiet h _ _ fun _ => rfl
  split_ifs with hex
  · exact (Orphans.wakeWaiter h1 hex (by simp)).congr (fun _ => SameSpace.refl _) rfl rfl
  · exact h1.congr (fun _ => SameSpace.refl _) rfl rfl

lemma SpaceInv.returnToScheduler (cpu : Nat) : SpaceInv (returnToScheduler t cpu) := by
  rw [VibeOS.returnToScheduler]
  split
  · exact h.setCurrent cpu none
  · exact SpaceInv.endSlice (h.setCurrent cpu none) cpu _

lemma SpaceInv.descheduled (hs : (t.procs i).state ≠ .exited) {state : ProcessState}
    (h1 : state ≠ .exited) (h2 : state ≠ .empty) (cpu : Nat) (frame : Context) :
    SpaceInv (descheduled t cpu i state frame) :=
  SpaceInv.returnToScheduler (Orphans.modify h _ ⟨⟨rfl, rfl, rfl, rfl, rfl,
    ⟨fun h0 => absurd h0 h1, fun h0 => absurd h0 hs⟩, fun _ _ => h2⟩, rfl⟩) cpu

lemma SpaceInv.addressSpaceOwner (hs : (t.procs i).state ≠ .exited) :
    (t.procs (processAddressSpaceOwner t i)).userPageTables = none ∨
      (t.procs (processAddressSpaceOwner t i)).Owner (processAddressSpaceOwner t i) := by
  rw [processAddressSpaceOwner]
  by_cases hl : (t.procs i).loaded = true
  · by_cases ht : (t.procs i).isThread = true
    · rw [if_neg (by simp [ht])]
      rcases hf : first _ with _ | o
      · rcases (h.slots i).thread hl ht hs with hnone | ⟨o, ho1, ho2, ho3, -⟩
        · exact .inl hnone.1
        · have hfalse := first_eq_none hf o
          simp [ho3.loaded, ho3.owns, ho3.tables, ho3.cr3, ho1, ho2] at hfalse
      · have hspec := first_spec hf
        simp only [Bool.and_eq_true, Bool.not_eq_true', beq_iff_eq] at hspec
        exact .inr ((h.slots o).owner hspec.1.1.1 hspec.1.1.2)
    · rw [if_pos (by simpa using ht)]
      exact .inr ((h.slots i).owner hl (by simpa using ht))
  · have hun := (h.slots i).unused (by simpa using hl)
    split_ifs
    · exact .inl hun.2.1
    · rcases hf : first _ with _ | o
      · exact .inl hun.2.1
      · have hspec := first_spec hf
        simp only [Bool.and_eq_true, Bool.not_eq_true', beq_iff_eq] at hspec
        exact .inr ((h.slots o).owner hspec.1.1.1 hspec.1.1.2)

end

lemma count_range' (a n k : Nat) : (List.range' n k).count a = if n ≤ a ∧ a < n + k then 1 else 0 := by
  split_ifs with h
  · exact count_eq_one_of_mem nodup_range' (mem_range'_1.mpr h)
  · exact count_eq_zero_of_not_mem fun hm => h (mem_range'_1.mp hm)

section

variable (h : SpaceInv t)

include h

lemma SpaceInv.sbrk (hs : (t.procs i).state ≠ .exited) (chunks : Nat) :
    SpaceInv (processSbrk t i chunks) := by
  rw [processSbrk]
  split_ifs with hno
  · exact h
  · obtain ⟨o, ho⟩ : ∃ o, o = processAddressSpaceOwner t i := ⟨_, rfl⟩
    have hown := h.addressSpaceOwner hs
    rw [← ho] at hno hown ⊢
    simp only [not_or] at hno
    have hown := hown.resolve_left hno.1
    refine ⟨fun j => (h.slots j).congr fun k => ?_, fun a => ?_, Nat.add_pos_left h.pos _⟩
    · by_cases hk : k = o
      · subst hk
        change SameTables _ (update t.procs k _ k)
        rw [update_self]
        exact ⟨rfl, rfl, rfl, rfl, rfl, Iff.rfl, fun _ h => h⟩
      · change SameTables _ (update t.procs o _ k)
        rw [update_of_ne hk]
        exact (SameSpace.refl _).toSameTables
    · have h0 := h.allocs a
      have hsum := sum_held_update t.procs o
        { t.procs o with heapChunks := (t.procs o).heapChunks ++ List.range' t.nextAlloc chunks } a
      have hpos := h.pos
      have hheld : (t.procs o).held = (t.procs o).heapChunks ++ [(t.procs o).userImage] :=
        if_pos ⟨by simp [hown.owns], hown.image⟩
      have hheld' : Process.held
          { t.procs o with heapChunks := (t.procs o).heapChunks ++ List.range' t.nextAlloc chunks } =
          (t.procs o).heapChunks ++ List.range' t.nextAlloc chunks ++ [(t.procs o).userImage] :=
        if_pos ⟨by simp [hown.owns], hown.image⟩
      rw [hheld, hheld', count_append, count_append, count_append, count_range'] at hsum
      change t.freed.count a + ∑ j, (update t.procs o
        { t.procs o with heapChunks := (t.procs o).heapChunks ++ List.range' t.nextAlloc chunks }
          j).held.count a = if 0 < a ∧ a < t.nextAlloc + chunks then 1 else 0
      split_ifs at h0 hsum ⊢ <;> omega

lemma SpaceInv.open (out : OpenOutcome) : SpaceInv (processOpen t i out).2 := by
  rw [processOpen]
  split_ifs
  · exact h
  · rcases (List.finRange 8).find? _ with _ | k
    · exact h
    · dsimp only
      rcases fdAlloc _ _ with _ | ⟨fd, fds⟩
      · dsimp only
        exact Orphans.quiet h i _ fun _ => rfl
      · dsimp only
        exact Orphans.quiet h i _ fun _ => rfl

lemma SpaceInv.closeFd (fd : Fin 16) : SpaceInv (processCloseFd t i fd) := by
  rw [processCloseFd]
  rcases (t.procs i).fds fd with _ | (⟨ops, o⟩ | ⟨o, k, f⟩)
  · exact h
  · exact Orphans.quiet h i _ fun _ => rfl
  · exact Orphans.quiet (Orphans.quiet h o _ fun _ => by rfl) i _ fun _ => by rfl

lemma SpaceInv.moveOffset (fd : Fin 16) (offset : Nat) :
    SpaceInv (processMoveOffset t i fd offset) := by
  rw [processMoveOffset]
  rcases (t.procs i).fds fd with _ | (⟨ops, o⟩ | ⟨o, k, f⟩)
  · exact h
  · exact h
  · dsimp only
    split_ifs
    · exact Orphans.quiet h o _ fun _ => rfl
    · exact h

/-- Every system call of a process that has not exited, and the early return of one that has. -/
lemma SpaceInv.syscall (cpu : Nat) (i : ProcSlot) (frame : Context) (call : Syscall) :
    SpaceInv (syscallHandleInterrupt t cpu i frame call) := by
  unfold syscallHandleInterrupt
  split_ifs with hs
  · exact h.returnToScheduler cpu
  · cases call with
    | yield => exact h.descheduled hs (by simp) (by simp) cpu _
    | exit code => exact (h.die cpu i code).returnToScheduler cpu
    | spawn found out => exact h.spawnNamed i found out
    | ptyOpen pty =>
      dsimp only
      rcases fdAlloc _ _ with _ | ⟨fd, fds⟩
      · exact h
      · exact Orphans.quiet h i _ fun _ => rfl
    | spawnPty fd found out =>
      dsimp only
      split
      · rename_i pty _
        have h1 := h.spawnPath (.device .ptySlave pty) (t.procs i).uid found out
        split
        · exact h1
        · split
          · exact h1
          · exact Orphans.quiet h1 _ _ fun _ => rfl
      · exact h
    | ptyInterrupt fd =>
      dsimp only
      split
      · exact h.interruptTerminal cpu _
      · exact h
    | threadCreate argsOk => exact h.createThread hs argsOk
    | waitpid pid =>
      dsimp only
      rcases hf : processFindExitedChild t (t.procs i).pid pid with _ | j
      · have h1 : SpaceInv (t.modify i fun p => { p with waitTargetPid := pid }) := by
          exact Orphans.quiet h i _ fun _ => rfl
        refine SpaceInv.descheduled h1 ?_ (by simp) (by simp) cpu _
        rw [procs_modify_self]
        exact hs
      · have hspec := first_spec hf
        simp only [Bool.and_eq_true, beq_iff_eq] at hspec
        exact Orphans.reap (h.congr (fun _ => SameSpace.refl _) rfl rfl) fun _ =>
          ⟨hspec.1.1.1.2, by simp⟩
    | sleep => exact h.descheduled hs (by simp) (by simp) cpu _
    | ttyWait => exact h.descheduled hs (by simp) (by simp) cpu _
    | block =>
      refine SpaceInv.endSlice (Orphans.modify h _ ?_) cpu i
      exact ⟨⟨rfl, rfl, rfl, rfl, rfl, ⟨nofun, fun h0 => absurd h0 hs⟩, fun _ _ => by simp⟩, rfl⟩
    | windowmgrStart =>
      exact Orphans.congr (Orphans.quiet h 0 (fun p => { p with uid := (t.procs i).uid }) fun _ => rfl)
        (fun _ => SameSpace.refl _) rfl rfl
    | kill pid =>
      dsimp only
      rcases processFindByPid t pid with _ | j
      · exact h
      · dsimp only
        split_ifs
        · exact h
        · exact h
        · exact (h.kill cpu pid).returnToScheduler cpu
        · exact h.kill cpu pid
    | setuid uid =>
      dsimp only
      split_ifs
      · exact h
      · exact Orphans.quiet h i _ fun _ => rfl
    | sbrk chunks => exact h.sbrk hs chunks
    | «open» out => exact h.open out
    | close fd => exact h.closeFd fd
    | moveOffset fd offset => exact h.moveOffset fd offset

lemma SpaceInv.startSlice (cpu : Nat) : SpaceInv (startSlice t cpu) := by
  rw [VibeOS.startSlice]
  rcases hp : processPickNextReady t cpu with _ | i
  · exact h
  · have hspec := find?_some hp
    simp only [Bool.and_eq_true, Bool.or_eq_true, beq_iff_eq] at hspec
    have hs : (t.procs i).state ≠ .exited := by
      rcases hspec.2 with hr | ⟨hr, -⟩ <;> rw [hr] <;> simp
    refine Orphans.congr (Orphans.setCurrent (Orphans.modify h (i := i) (fun p => { p with
      state := .running, runningOnCpu := some cpu, kresume := false }) ?_) cpu (some i))
      (fun _ => SameSpace.refl _) rfl rfl
    exact ⟨⟨rfl, rfl, rfl, rfl, rfl, ⟨nofun, fun h0 => absurd h0 hs⟩, fun _ _ => by simp⟩, rfl⟩

lemma spaceInv_step (e : KernelEvent) (he : e.SparesThreads t) : SpaceInv (t.step e) := by
  cases e with
  | startSlice cpu smashed =>
    rw [step]
    split_ifs with hs
    · exact (h.canaryCheck (he hs) cpu).startSlice cpu
    · exact h
  | orphanCall cpu =>
    rw [step]
    split_ifs
    · exact h.returnToScheduler cpu
    · exact h
  | syscall cpu frame call =>
    rw [step]
    split
    · exact h.syscall cpu _ frame call
    · exact h
  | fault cpu smashed =>
    rw [step]
    split
    · rename_i i hr
      rw [processHandleUserFault]
      split_ifs with hs
      · exact h
      · have hspare := he i hr fun hx => hs (.inr hx)
        exact ((h.canaryCheck hspare cpu).die cpu _ _).returnToScheduler cpu
    · exact h
  | preempt cpu frame =>
    rw [step]
    split
    · refine SpaceInv.returnToScheduler (Orphans.modify h _ ?_) cpu
      refine ⟨⟨rfl, rfl, rfl, rfl, rfl, ?_, ?_⟩, rfl⟩
      · split_ifs with hs
        · simp [hs]
        · simp [hs]
      · intro _ _
        split_ifs <;> simp
    · exact h
  | wakeReady due =>
    refine Orphans.congr h (fun j => ?_) rfl rfl
    change SameSpace _ (if _ then _ else _)
    split_ifs with hs
    · refine ⟨⟨rfl, rfl, rfl, rfl, rfl, ?_, fun _ _ => by simp⟩, rfl⟩
      rw [hs.1]
      simp
    · exact SameSpace.refl _
  | wakeTty pid n =>
    rw [step, processWakeTtyReader]
    rcases processFindByPid t pid with _ | j
    · exact h
    · dsimp only
      split_ifs with hs
      · exact h
      · refine Orphans.modify h _ ?_
        refine ⟨⟨rfl, rfl, rfl, rfl, rfl, ?_, fun _ _ => by simp⟩, rfl⟩
        rw [not_not.mp hs]
        simp
  | spawnDesktop ops object uid found out => exact h.spawnPath (.device ops object) uid found out
  | killDesktop cpu pid => exact h.kill cpu pid

end

lemma spaceInv_init (uids : ProcSlot → Nat) : SpaceInv (processInit uids) where
  slots i := by
    refine ⟨fun _ => ⟨rfl, rfl, rfl⟩, fun h => ?_, fun h => ?_, fun h => ?_⟩ <;> cases h
  allocs a := by
    have hsum : ∑ i, ((processInit uids).procs i).held.count a = 0 :=
      Finset.sum_eq_zero fun i _ => rfl
    rw [hsum, if_neg]
    · rfl
    · change ¬ (0 < a ∧ a < 1)
      omega
  pos := Nat.one_pos

/-- In every run in which the check of the kernel stacks ends no owner that has living threads: every image and heap
chunk ever allocated was freed exactly once or is held by exactly one slot, and the page tables and the `cr3` of a
loaded slot that has not exited are those of such an owner, which still holds the image the slot was created with. -/
theorem run_address_space (uids : ProcSlot → Nat) (events : List KernelEvent)
    (hspare : Along step (fun t e => e.SparesThreads t) (processInit uids) events) :
    let t := run step (processInit uids) events
    (∀ a, 0 < a → a < t.nextAlloc → t.freed.count a + ∑ i, (t.procs i).held.count a = 1) ∧
    (∀ a, a ∈ t.freed → 0 < a ∧ a < t.nextAlloc) ∧
    ∀ i, (t.procs i).loaded = true → (t.procs i).state ≠ .exited →
      ∀ o, (t.procs i).userPageTables = some o ∨ (t.procs i).cr3 = some o →
        (t.procs o).Owner o ∧ (t.procs o).state ≠ .exited ∧
          (t.procs o).userImage = (t.procs i).userImage ∧ (t.procs o).userImage ∉ t.freed := by
  have h : SpaceInv (run step (processInit uids) events) :=
    run_invariant (I := SpaceInv) (fun _ e ht he => spaceInv_step ht e he) (spaceInv_init uids) hspare
  refine ⟨fun a ha ha' => ?_, fun a ha => ?_, fun i hl hs o ho => ?_⟩
  · rw [h.allocs a, if_pos ⟨ha, ha'⟩]
  · have h0 := h.allocs a
    have hc := count_pos_iff.mpr ha
    by_contra hn
    rw [if_neg hn] at h0
    omega
  · have hfreed : ∀ o, ((run step (processInit uids) events).procs o).Owner o →
        ((run step (processInit uids) events).procs o).userImage ∉
          (run step (processInit uids) events).freed := by
      intro o ho hm
      have h0 := h.allocs ((run step (processInit uids) events).procs o).userImage
      have hc := count_pos_iff.mpr hm
      have hheld : 0 < ((run step (processInit uids) events).procs o).held.count
          ((run step (processInit uids) events).procs o).userImage := by
        rw [Process.held, if_pos ⟨by simp [ho.owns], ho.image⟩]
        simp
      have hle := Finset.single_le_sum (f := fun j => ((run step (processInit uids) events).procs j).held.count
        ((run step (processInit uids) events).procs o).userImage) (fun _ _ => Nat.zero_le _) (Finset.mem_univ o)
      split_ifs at h0 <;> omega
    by_cases ht : ((run step (processInit uids) events).procs i).isThread = true
    · rcases (h.slots i).thread hl ht hs with hnone | ⟨q, hq1, hq2, hq3, hq4, hq5⟩
      · rw [hnone.1, hnone.2] at ho
        rcases ho with ho | ho <;> cases ho
      · rw [hq1, hq2] at ho
        obtain rfl : q = o := by simpa using ho
        exact ⟨hq3, hq5.resolve_right (by simp), hq4, hfreed q hq3⟩
    · have hown := (h.slots i).owner hl (by simpa using ht)
      rw [hown.tables, hown.cr3] at ho
      obtain rfl : i = o := by simpa using ho
      exact ⟨hown, hs, rfl, hfreed i hown⟩

/-- A process without threads in slot `o`, whose kernel stack has overflown. -/
def overflowRun (o : ProcSlot) : List KernelEvent :=
  [.spawnDesktop .tty 1 0 true .ok, .startSlice 0 fun i => i == o, .spawnDesktop .tty 1 0 true .ok]

set_option maxRecDepth 8192 in
theorem run_address_space_overflow :
    Along step (fun t e => e.SparesThreads t) (processInit fun _ => 0) (overflowRun 0) ∧
      (run step (processInit fun _ => 0) (overflowRun 0)).freed = [1] ∧
      (run step (processInit fun _ => 0) (overflowRun 0)).freed.count 2 +
        ∑ i, ((run step (processInit fun _ => 0) (overflowRun 0)).procs i).held.count 2 = 1 := by
  have h : Along step (fun t e => e.SparesThreads t) (processInit fun _ => 0) (overflowRun 0) := by
    refine ⟨trivial, fun _ i _ _ _ _ k _ ht => absurd ht ?_, trivial, trivial⟩
    revert k
    decide
  exact ⟨h, by decide, (run_address_space _ _ h).1 2 (by decide) (by decide)⟩

set_option maxRecDepth 8192 in
/-- The owner of a thread is ended by the check of the stacks, and its slot is given to a new process: the thread runs
on with the page tables of a slot whose image was freed. -/
theorem address_space_fails :
    let t := run step (processInit fun _ => 0) [.spawnDesktop .tty 1 0 true .ok, .startSlice 0 intact,
      .syscall 0 ⟨0, 0, 0⟩ (.threadCreate true), .syscall 0 ⟨0, 0, 0⟩ .yield, .startSlice 0 (fun i => i == 0),
      .spawnDesktop .tty 1 0 true .ok]
    (t.procs 1).loaded = true ∧ (t.procs 1).state = .running ∧ (t.procs 1).userPageTables = some 0 ∧
      (t.procs 1).userImage = 1 ∧ 1 ∈ t.freed ∧ (t.procs 0).userImage = 2 ∧ (t.procs 0).pid = 3 := by
  decide

end

end VibeOS
