import VibeOS.Kernel.Process

/-!
# Pseudo-terminals

The pool of `pty.c` with the descriptors that refer to it. A ring is the list of the bytes in it. Processes are
the slots of the process table, each with the descriptors of a live process or nothing.

`run_pty_pool` has two parts. In every run a pty that is opened is empty and in cooked mode. A process finds one
while fewer than `PTY_POOL_SIZE` masters are held, in runs in which no master is given up: nothing returns a pty
to the pool that was once handed out, as `pty_pool_fails` shows.
-/

namespace VibeOS

open List Option
open Function (update update_of_ne update_self)

abbrev PTY_POOL_SIZE : Nat := 4

def PTY_RING_SIZE : Nat := 16384

/-- Source: `kernel/src/pty.c` `struct pty` -/
structure Pty where
  input : List UInt8
  output : List UInt8
  used : Bool
  rawMode : Bool
deriving DecidableEq

/-- What does not fit is dropped.
Source: `kernel/src/pty.c` -/
def ringWrite (r src : List UInt8) : List UInt8 := r ++ src.take (PTY_RING_SIZE - r.length)

/-- The pool and the descriptors of the live processes. -/
structure PtyKernel where
  ptys : Fin PTY_POOL_SIZE → Pty
  procs : ProcSlot → Option FdTable

def PtyKernel.boot : PtyKernel := ⟨fun _ => ⟨[], [], false, false⟩, fun _ => none⟩

/-- The pool is static memory, and `raw_mode` keeps its value.
Source: `kernel/src/pty.c` -/
def ptyAlloc (g : Fin PTY_POOL_SIZE → Pty) : Option (Fin PTY_POOL_SIZE × (Fin PTY_POOL_SIZE → Pty)) :=
  ((List.finRange PTY_POOL_SIZE).find? fun k => !(g k).used).map fun k =>
    (k, update g k { g k with used := true, input := [], output := [] })

/-- Source: `kernel/src/pty.c` -/
def ptyRelease (g : Fin PTY_POOL_SIZE → Pty) (k : Fin PTY_POOL_SIZE) : Fin PTY_POOL_SIZE → Pty :=
  update g k { g k with used := false }

/-- Source: `kernel/src/process.c` `SYS_PTY_OPEN` -/
def sysPtyOpen (s : PtyKernel) (i : ProcSlot) : Option (Fin 16) × PtyKernel :=
  match s.procs i with
  | none => (none, s)
  | some fds =>
    match ptyAlloc s.ptys with
    | none => (none, s)
    | some (k, g) =>
      match fdAlloc fds (.device .ptyMaster k) with
      | none => (none, { s with ptys := ptyRelease g k })
      | some (fd, fds) => (some fd, ⟨g, update s.procs i (some fds)⟩)

/-- The pty behind a descriptor, and whether it is the master. -/
def ptyOf : Option FdObject → Option (Bool × Fin PTY_POOL_SIZE)
  | some (.device .ptyMaster k) => if h : k < PTY_POOL_SIZE then some (true, ⟨k, h⟩) else none
  | some (.device .ptySlave k) => if h : k < PTY_POOL_SIZE then some (false, ⟨k, h⟩) else none
  | _ => none

/-- The child's first three descriptors are the slave.
Source: `kernel/src/process.c` `SYS_SPAWN_PTY` -/
def sysSpawnPty (s : PtyKernel) (i : ProcSlot) (fd : Fin 16) (child : ProcSlot) : PtyKernel :=
  match s.procs i with
  | none => s
  | some fds =>
    match ptyOf (fds fd) with
    | some (true, k) =>
      -- a slot that is taken is not given to a child
      if (s.procs child).isSome then s
      else { s with procs := update s.procs child (some (stdioTable (.device .ptySlave k))) }
    | _ => s

/-- What a call does to the pty behind a descriptor. -/
def onPty (s : PtyKernel) (i : ProcSlot) (fd : Fin 16) (f : Bool → Pty → Pty) : PtyKernel :=
  match (s.procs i).bind fun fds => ptyOf (fds fd) with
  | none => s
  | some (master, k) => { s with ptys := update s.ptys k (f master (s.ptys k)) }

/-- What happens to the processes and their pseudo-terminals. -/
inductive PtyEvent where
  | start (i : ProcSlot)
  | ptyOpen (i : ProcSlot)
  | spawnPty (i : ProcSlot) (fd : Fin 16) (child : ProcSlot)
  | read (i : ProcSlot) (fd : Fin 16) (count : Nat)
  | write (i : ProcSlot) (fd : Fin 16) (data : List UInt8)
  | setRaw (i : ProcSlot) (fd : Fin 16) (on : Bool)
  | close (i : ProcSlot) (fd : Fin 16)
  | exit (i : ProcSlot)

/-- One event. Closing and exit say nothing to the pool.
Source: `kernel/src/pty.c` `pty_master_read`, `pty_slave_read`, `pty_master_write`, `pty_slave_write`,
`pty_ioctl`; `kernel/src/process.c` `process_close_fd` -/
def PtyKernel.step (s : PtyKernel) : PtyEvent → PtyKernel
  | .start i =>
    if (s.procs i).isSome then s
    else { s with procs := update s.procs i (some (stdioTable (.device .tty 0))) }
  | .ptyOpen i => (sysPtyOpen s i).2
  | .spawnPty i fd child => sysSpawnPty s i fd child
  | .read i fd count => onPty s i fd fun master p =>
    if master then { p with output := p.output.drop count } else { p with input := p.input.drop count }
  | .write i fd data => onPty s i fd fun master p =>
    if master then { p with input := ringWrite p.input data }
    else { p with output := ringWrite p.output data }
  | .setRaw i fd on => onPty s i fd fun _ p => { p with rawMode := on }
  | .close i fd =>
    match s.procs i with
    | none => s
    | some fds => { s with procs := update s.procs i (some (update fds fd none)) }
  | .exit i => { s with procs := update s.procs i none }

/-! ### A pty that is opened is clean -/

/-- A descriptor names a pty that is in use, and one that is not was never switched to raw mode. -/
structure PtyClean (s : PtyKernel) : Prop where
  used : ∀ i fds fd m k, s.procs i = some fds → ptyOf (fds fd) = some (m, k) → (s.ptys k).used = true
  cooked : ∀ k, (s.ptys k).used = false → (s.ptys k).rawMode = false

lemma ptyAlloc_some {g g' : Fin PTY_POOL_SIZE → Pty} {k : Fin PTY_POOL_SIZE} (h : ptyAlloc g = some (k, g')) :
    (g k).used = false ∧ g' = update g k { g k with used := true, input := [], output := [] } := by
  unfold ptyAlloc at h
  rw [map_eq_some_iff] at h
  obtain ⟨j, hj, hjk⟩ := h
  cases hjk
  exact ⟨by simpa using find?_some hj, rfl⟩

lemma fdAlloc_some {fds fds' : FdTable} {o : FdObject} {fd : Fin 16} (h : fdAlloc fds o = some (fd, fds')) :
    fds fd = none ∧ fds' = update fds fd (some o) := by
  unfold fdAlloc at h
  rw [map_eq_some_iff] at h
  obtain ⟨j, hj, hjk⟩ := h
  cases hjk
  have := find?_some hj
  simp only [Bool.and_eq_true, isNone_iff_eq_none] at this
  exact ⟨this.2, rfl⟩

lemma ptyOf_stdioTable {o : FdObject} {fd : Fin 16} {m : Bool} {k : Fin PTY_POOL_SIZE}
    (h : ptyOf (stdioTable o fd) = some (m, k)) : ptyOf (some o) = some (m, k) := by
  unfold stdioTable at h
  split at h
  · exact h
  · cases h

lemma ptyOf_master (k : Fin PTY_POOL_SIZE) : ptyOf (some (.device .ptyMaster k)) = some (true, k) := by
  simp [ptyOf]

lemma ptyOf_slave (k : Fin PTY_POOL_SIZE) : ptyOf (some (.device .ptySlave k)) = some (false, k) := by
  simp [ptyOf]

section clean

variable {s : PtyKernel}

lemma PtyClean.setProc (h : PtyClean s) (i : ProcSlot) (t : Option FdTable)
    (ht : ∀ fds fd m k, t = some fds → ptyOf (fds fd) = some (m, k) → (s.ptys k).used = true) :
    PtyClean { s with procs := update s.procs i t } := by
  refine ⟨fun j fds fd m k hj hk => ?_, h.cooked⟩
  dsimp only at hj ⊢
  by_cases hji : j = i
  · rw [hji, update_self] at hj
    exact ht fds fd m k hj hk
  · rw [update_of_ne hji] at hj
    exact h.used j fds fd m k hj hk

lemma PtyClean.onPty (h : PtyClean s) (i : ProcSlot) (fd : Fin 16) {f : Bool → Pty → Pty}
    (hf : ∀ m p, (f m p).used = p.used) : PtyClean (onPty s i fd f) := by
  unfold VibeOS.onPty
  rcases hp : s.procs i with _ | fds
  · exact h
  rcases hk : ptyOf (fds fd) with _ | ⟨m, k⟩
  · simp only [bind_some, hk]
    exact h
  have hused := h.used i fds fd m k hp hk
  simp only [bind_some, hk]
  have hkeep : ∀ j, (update s.ptys k (f m (s.ptys k)) j).used = (s.ptys j).used := by
    intro j
    by_cases hj : j = k
    · rw [hj, update_self, hf]
    · rw [update_of_ne hj]
  refine ⟨fun j fds' fd' m' k' hj hk' => ?_, fun j hj => ?_⟩
  · rw [hkeep]
    exact h.used j fds' fd' m' k' hj hk'
  · dsimp only at hj ⊢
    rw [hkeep] at hj
    have hjk : j ≠ k := by
      rintro rfl
      rw [hused] at hj
      cases hj
    rw [update_of_ne hjk]
    exact h.cooked j hj

/-- Opening keeps the pool clean; what it hands out is empty and in cooked mode. -/
lemma PtyClean.sysPtyOpen (h : PtyClean s) (i : ProcSlot) : PtyClean (sysPtyOpen s i).2 ∧
    ∀ fd, (VibeOS.sysPtyOpen s i).1 = some fd → ∃ fds k, (VibeOS.sysPtyOpen s i).2.procs i = some fds ∧
      fds fd = some (.device .ptyMaster k) ∧ ∃ hk : k < PTY_POOL_SIZE,
        (VibeOS.sysPtyOpen s i).2.ptys ⟨k, hk⟩ = ⟨[], [], true, false⟩ := by
  unfold VibeOS.sysPtyOpen
  rcases hp : s.procs i with _ | fds
  · exact ⟨h, fun fd hfd => by cases hfd⟩
  rcases ha : ptyAlloc s.ptys with _ | ⟨k, g⟩
  · exact ⟨h, fun fd hfd => by cases hfd⟩
  obtain ⟨hfree, rfl⟩ := ptyAlloc_some ha
  have hraw := h.cooked k hfree
  -- no descriptor names a pty that was free
  have hnone : ∀ j fds fd m, s.procs j = some fds → ptyOf (fds fd) ≠ some (m, k) := by
    intro j fds fd m hj hk
    have := h.used j fds fd m k hj hk
    rw [hfree] at this
    cases this
  dsimp only
  rcases hf : fdAlloc fds (.device .ptyMaster k) with _ | ⟨fd, fds'⟩
  · refine ⟨⟨fun j fds fd m k' hj hk' => ?_, fun j hj => ?_⟩, fun fd hfd => by cases hfd⟩
    · have hne : k' ≠ k := by
        rintro rfl
        exact hnone j fds fd m hj hk'
      simp only [ptyRelease, update_of_ne hne]
      exact h.used j fds fd m k' hj hk'
    · by_cases hjk : j = k
      · simp only [hjk, ptyRelease, update_self]
        exact hraw
      · simp only [ptyRelease, update_of_ne hjk] at hj ⊢
        exact h.cooked j hj
  · obtain ⟨-, rfl⟩ := fdAlloc_some hf
    dsimp only
    refine ⟨⟨fun j fds1 fd1 m k' hj hk' => ?_, fun j hj => ?_⟩, fun fd' hfd' => ?_⟩
    · dsimp only at hj ⊢
      by_cases hkk : k' = k
      · rw [hkk, update_self]
      rw [update_of_ne hkk]
      by_cases hji : j = i
      · rw [hji, update_self] at hj
        cases hj
        by_cases hfd : fd1 = fd
        · rw [hfd, update_self, ptyOf_master] at hk'
          cases hk'
          exact absurd rfl hkk
        · rw [update_of_ne hfd] at hk'
          exact h.used i fds fd1 m k' hp hk'
      · rw [update_of_ne hji] at hj
        exact h.used j fds1 fd1 m k' hj hk'
    · dsimp only at hj ⊢
      by_cases hjk : j = k
      · rw [hjk, update_self] at hj
        cases hj
      · rw [update_of_ne hjk] at hj ⊢
        exact h.cooked j hj
    · cases hfd'
      refine ⟨_, k.val, update_self _ _ _, update_self _ _ _, k.isLt, ?_⟩
      rw [Fin.eta, update_self, hraw]

lemma step_ptyClean (h : PtyClean s) (e : PtyEvent) : PtyClean (s.step e) := by
  cases e with
  | start i =>
    rw [PtyKernel.step]
    split
    · exact h
    · refine h.setProc i _ fun fds fd m k hfds hk => ?_
      cases hfds
      have := ptyOf_stdioTable hk
      cases this
  | ptyOpen i => exact (h.sysPtyOpen i).1
  | spawnPty i fd child =>
    rw [PtyKernel.step, sysSpawnPty]
    rcases hp : s.procs i with _ | fds
    · exact h
    rcases hk : ptyOf (fds fd) with _ | ⟨m, k⟩
    · simp only [hk]
      exact h
    cases m with
    | false =>
      simp only [hk]
      exact h
    | true =>
      simp only [hk]
      split
      · exact h
      · refine h.setProc child _ fun fds' fd' m' k' hfds' hk' => ?_
        cases hfds'
        have := ptyOf_stdioTable hk'
        rw [ptyOf_slave] at this
        cases this
        exact h.used i fds fd true k hp hk
  | read | write | setRaw =>
    rw [PtyKernel.step]
    refine h.onPty _ _ ?_
    intro m p
    cases m <;> rfl
  | close i fd =>
    rw [PtyKernel.step]
    rcases hp : s.procs i with _ | fds
    · exact h
    · refine h.setProc i _ fun fds' fd' m k hfds' hk => ?_
      cases hfds'
      by_cases hfd : fd' = fd
      · rw [hfd, update_self] at hk
        cases hk
      · rw [update_of_ne hfd] at hk
        exact h.used i fds fd' m k hp hk
  | exit i => exact h.setProc i none fun _ _ _ _ hf => by cases hf

end clean

/-! ### A pty is found -/

/-- Every pty in use has a master that a live process holds. -/
def MastersHeld (s : PtyKernel) : Prop :=
  ∀ k, (s.ptys k).used = true → ∃ i fds fd, s.procs i = some fds ∧ ptyOf (fds fd) = some (true, k)

/-- The master descriptors of the live processes. -/
def masters (s : PtyKernel) : Finset (ProcSlot × Fin 16) :=
  Finset.univ.filter fun x =>
    ((s.procs x.1).bind fun fds => ptyOf (fds x.2)).any fun r => r.1

/-- No master is closed, and no process that holds one ends. -/
def NoHangup (s : PtyKernel) : PtyEvent → Prop
  | .close i fd => (i, fd) ∉ masters s
  | .exit i => ∀ fd, (i, fd) ∉ masters s
  | _ => True

instance instDecidableNoHangup (s : PtyKernel) (e : PtyEvent) : Decidable (NoHangup s e) := by
  cases e <;> unfold NoHangup <;> infer_instance

section held

variable {s : PtyKernel}

lemma mem_masters {i : ProcSlot} {fd : Fin 16} :
    (i, fd) ∈ masters s ↔ ∃ fds k, s.procs i = some fds ∧ ptyOf (fds fd) = some (true, k) := by
  simp only [masters, Finset.mem_filter, Finset.mem_univ, true_and]
  rcases s.procs i with _ | fds
  · simp
  · rcases hk : ptyOf (fds fd) with _ | ⟨m, k⟩
    · simp [hk]
    · cases m <;> simp [hk]

lemma MastersHeld.keep {s' : PtyKernel} (h : MastersHeld s)
    (hused : ∀ k, (s'.ptys k).used = true → (s.ptys k).used = true)
    (hheld : ∀ i fds fd k, s.procs i = some fds → ptyOf (fds fd) = some (true, k) →
      ∃ fds', s'.procs i = some fds' ∧ ptyOf (fds' fd) = some (true, k)) : MastersHeld s' := by
  intro k hk
  obtain ⟨i, fds, fd, hp, hfd⟩ := h k (hused k hk)
  obtain ⟨fds', hp', hfd'⟩ := hheld i fds fd k hp hfd
  exact ⟨i, fds', fd, hp', hfd'⟩

lemma MastersHeld.onPty (h : MastersHeld s) (i : ProcSlot) (fd : Fin 16) {f : Bool → Pty → Pty}
    (hf : ∀ m p, (f m p).used = p.used) : MastersHeld (onPty s i fd f) := by
  unfold VibeOS.onPty
  split
  · exact h
  · next m k _ =>
    refine h.keep (fun j hj => ?_) fun j fds fd k hp hfd => ⟨fds, hp, hfd⟩
    dsimp only at hj
    by_cases hjk : j = k
    · rw [hjk, update_self, hf] at hj
      exact hjk ▸ hj
    · rwa [update_of_ne hjk] at hj

lemma MastersHeld.start (h : MastersHeld s) {i : ProcSlot} (hi : ¬ (s.procs i).isSome = true) (t : FdTable) :
    MastersHeld { s with procs := update s.procs i (some t) } := by
  refine h.keep (fun _ hk => hk) fun j fds fd k hp hfd => ?_
  have hji : j ≠ i := by
    rintro rfl
    rw [hp] at hi
    exact hi rfl
  exact ⟨fds, by dsimp only; rw [update_of_ne hji]; exact hp, hfd⟩

lemma MastersHeld.sysPtyOpen (h : MastersHeld s) (i : ProcSlot) : MastersHeld (sysPtyOpen s i).2 := by
  unfold VibeOS.sysPtyOpen
  rcases hp : s.procs i with _ | fds
  · exact h
  rcases ha : ptyAlloc s.ptys with _ | ⟨k, g⟩
  · exact h
  obtain ⟨hfree, rfl⟩ := ptyAlloc_some ha
  dsimp only
  rcases hf : fdAlloc fds (.device .ptyMaster k) with _ | ⟨fd, fds'⟩
  · refine h.keep (fun j hj => ?_) fun j fds fd k hp hfd => ⟨fds, hp, hfd⟩
    by_cases hjk : j = k
    · simp [hjk, ptyRelease] at hj
    · simpa only [ptyRelease, update_of_ne hjk] using hj
  · obtain ⟨hnone, rfl⟩ := fdAlloc_some hf
    intro j hj
    dsimp only at hj ⊢
    by_cases hjk : j = k
    · refine ⟨i, _, fd, update_self _ _ _, ?_⟩
      rw [update_self, hjk, ptyOf_master]
    · rw [update_of_ne hjk] at hj
      obtain ⟨i', fds1, fd1, hp1, hfd1⟩ := h j hj
      by_cases hii : i' = i
      · subst hii
        rw [hp] at hp1
        cases hp1
        refine ⟨i', _, fd1, update_self _ _ _, ?_⟩
        have hne : fd1 ≠ fd := by
          rintro rfl
          rw [hnone] at hfd1
          cases hfd1
        rw [update_of_ne hne]
        exact hfd1
      · exact ⟨i', fds1, fd1, by rw [update_of_ne hii]; exact hp1, hfd1⟩

lemma step_mastersHeld (h : MastersHeld s) {e : PtyEvent} (he : NoHangup s e) : MastersHeld (s.step e) := by
  cases e with
  | start i =>
    rw [PtyKernel.step]
    split
    · exact h
    · next hi => exact h.start hi _
  | ptyOpen i => exact h.sysPtyOpen i
  | spawnPty i fd child =>
    rw [PtyKernel.step, sysSpawnPty]
    split
    · exact h
    split
    · split
      · exact h
      · next hi => exact h.start hi _
    · exact h
  | read | write | setRaw =>
    refine h.onPty _ _ ?_
    intro m p
    cases m <;> rfl
  | close i fd =>
    rw [PtyKernel.step]
    rcases hp : s.procs i with _ | fds
    · exact h
    refine h.keep (fun _ hk => hk) fun j fds1 fd1 k hp1 hfd1 => ?_
    dsimp only
    by_cases hji : j = i
    · subst hji
      rw [hp] at hp1
      cases hp1
      have hne : fd1 ≠ fd := by
        rintro rfl
        exact he (mem_masters.mpr ⟨fds, k, hp, hfd1⟩)
      exact ⟨_, update_self _ _ _, by rw [update_of_ne hne]; exact hfd1⟩
    · exact ⟨fds1, by rw [update_of_ne hji]; exact hp1, hfd1⟩
  | exit i =>
    refine h.keep (fun _ hk => hk) fun j fds fd k hp hfd => ?_
    have hji : j ≠ i := by
      rintro rfl
      exact he fd (mem_masters.mpr ⟨fds, k, hp, hfd⟩)
    exact ⟨fds, by rw [PtyKernel.step]; dsimp only; rw [update_of_ne hji]; exact hp, hfd⟩

lemma MastersHeld.card_le (h : MastersHeld s) (hall : ∀ k, (s.ptys k).used = true) :
    PTY_POOL_SIZE ≤ (masters s).card := by
  choose i fds fd hp hfd using fun k => h k (hall k)
  have hinj : Function.Injective fun k => (i k, fd k) := by
    intro k k' hkk
    obtain ⟨hi, hf⟩ := Prod.mk.inj hkk
    have hfds : fds k = fds k' := Option.some.inj ((hp k).symm.trans (by rw [hi]; exact hp k'))
    have := hfd k
    rw [hfds, hf, hfd k'] at this
    cases this
    rfl
  have himage : Finset.univ.image (fun k => (i k, fd k)) ⊆ masters s := by
    intro x hx
    obtain ⟨k, -, rfl⟩ := Finset.mem_image.mp hx
    exact mem_masters.mpr ⟨fds k, k, hp k, hfd k⟩
  have hcard := Finset.card_le_card himage
  rwa [Finset.card_image_of_injective _ hinj, Finset.card_univ, Fintype.card_fin] at hcard

end held

/-- In every run a pty that is opened is empty and in cooked mode. In a run that gives up no master, a live
process with a free descriptor is given a pty as long as fewer than `PTY_POOL_SIZE` masters are held. -/
theorem run_pty_pool (es : List PtyEvent) :
    let s := run PtyKernel.step PtyKernel.boot es
    (∀ i fd, (sysPtyOpen s i).1 = some fd → ∃ fds k, (sysPtyOpen s i).2.procs i = some fds ∧
      fds fd = some (.device .ptyMaster k) ∧ ∃ hk : k < PTY_POOL_SIZE,
        (sysPtyOpen s i).2.ptys ⟨k, hk⟩ = ⟨[], [], true, false⟩) ∧
    (Along PtyKernel.step NoHangup PtyKernel.boot es → (masters s).card < PTY_POOL_SIZE →
      ∀ i fds, s.procs i = some fds → (∀ o, (fdAlloc fds o).isSome) → (sysPtyOpen s i).1.isSome) := by
  intro s
  refine ⟨fun i => ?_, fun hes hcard i fds hp hfds => ?_⟩
  · have h : PtyClean s := run_invariant (I := PtyClean) (fun _ e hi _ => step_ptyClean hi e)
      ⟨fun _ _ _ _ _ hp => (by cases hp), fun _ _ => rfl⟩ (along_true _ es)
    exact (h.sysPtyOpen i).2
  · have h : MastersHeld s := run_invariant (I := MastersHeld) (fun _ _ hi hP => step_mastersHeld hi hP)
      (fun _ hk => (by cases hk)) hes
    have hfree : ∃ k, (s.ptys k).used = false := by
      by_contra hno
      have hall : ∀ k, (s.ptys k).used = true := fun k => by
        by_contra hk
        exact hno ⟨k, by simpa using hk⟩
      exact absurd (h.card_le hall) (by omega)
    obtain ⟨k0, hk0⟩ := hfree
    unfold sysPtyOpen
    rw [hp]
    rcases ha : ptyAlloc s.ptys with _ | ⟨k, g⟩
    · unfold ptyAlloc at ha
      rw [map_eq_none_iff] at ha
      have := find?_eq_none.mp ha k0 (mem_finRange k0)
      simp [hk0] at this
    · dsimp only
      obtain ⟨r, hr⟩ := isSome_iff_exists.mp (hfds (.device .ptyMaster k))
      rw [hr]
      rfl

set_option maxRecDepth 8192 in
theorem run_pty_pool_fourth :
    (sysPtyOpen (run PtyKernel.step PtyKernel.boot [.start 0, .ptyOpen 0, .ptyOpen 0, .ptyOpen 0]) 0).1.isSome :=
  (run_pty_pool [.start 0, .ptyOpen 0, .ptyOpen 0, .ptyOpen 0]).2 (by decide) (by decide) 0 _ rfl
    fun o => by
      unfold fdAlloc
      rw [isSome_map]
      decide

set_option maxRecDepth 8192 in
/-- Four ptys are opened and closed again, one after another. No master is held, and no pty is left. -/
theorem pty_pool_fails :
    let s := run PtyKernel.step PtyKernel.boot (.start 0 :: (List.replicate 4 [.ptyOpen 0, .close 0 3]).flatten)
    (masters s).card = 0 ∧ (s.procs 0).isSome ∧ (sysPtyOpen s 0).1 = none := by
  decide

end VibeOS
