import VibeOS.Kernel.Descriptors

/-!
# Exit statuses and waits

A status is handed over by the exit of a child with a waiting parent, by `waitpid` of a parent with an exited
child, or when the slice of a killed child ends. `WaitInv` accounts for every status: it has been returned,
or it is in an `EXITED` slot, as long as the parent lives; and a process that waits has a child to wait for.
`run_statuses` is the result for all runs in which the slot search takes no status from a living parent and
nobody waits for nothing.
-/

namespace VibeOS

open ProcessTable List

/-- The status in a slot: the parent, the process and its exit code. -/
def Process.status (p : Process) : Nat × Nat × Int := (p.parentPid, p.pid, p.exitCode)

def LivePid (t : ProcessTable) (pid : Nat) : Prop := ∃ j, (t.procs j).Live ∧ (t.procs j).pid = pid

/-- A loaded child of the process in `i` that `waitpid` with that argument matches. -/
def HasChild (t : ProcessTable) (i : ProcSlot) (pid : Nat) : Prop :=
  ∃ k, (t.procs k).loaded = true ∧ (t.procs k).parentPid = (t.procs i).pid ∧ (pid = 0 ∨ (t.procs k).pid = pid)

/-- Callers still run in their slots, the slot search takes no status from a living parent, `waitpid`
blocks only for a child there is, and pids do not wrap around. -/
def dutiful : Policy where
  acts p := p.loaded = true ∧ (p.state = .running ∨ p.state = .exited)
  handOver _ _ _ := True
  reclaim t r := ¬ LivePid t (t.procs r).parentPid
  waits := HasChild
  closes _ _ _ := True
  creates n := n + 1 < 2 ^ 32

/-- Every status whose parent is alive has been returned, or is there to be returned. -/
def Accounted (t : ProcessTable) : Prop :=
  ∀ e ∈ t.exits, LivePid t e.1 →
    e ∈ t.waited ∨ ∃ i, (t.procs i).loaded = true ∧ (t.procs i).state = .exited ∧ (t.procs i).status = e

/-- Pids are unique, and every status is logged once and returned at most once. -/
structure WaitInv (t : ProcessTable) : Prop where
  used : ∀ i, (t.procs i).state ≠ .empty → (t.procs i).loaded = true
  pids : ∀ i, (t.procs i).loaded = true → (t.procs i).pid ≠ 0 ∧ (t.procs i).pid ≤ t.nextPid ∧
    (t.procs i).parentPid ≤ t.nextPid
  inj : ∀ i j, (t.procs i).loaded = true → (t.procs j).loaded = true → (t.procs i).pid = (t.procs j).pid → i = j
  past : ∀ e ∈ t.exits, e.1 ≤ t.nextPid ∧ e.2.1 ≤ t.nextPid
  once : (t.exits.map fun e => e.2.1).Nodup
  alive : ∀ i, (t.procs i).Live → ∀ e ∈ t.exits, e.2.1 ≠ (t.procs i).pid
  logged : ∀ i, (t.procs i).loaded = true → (t.procs i).state = .exited →
    (t.procs i).status ∈ t.exits ∧ (t.procs i).status ∉ t.waited
  returned : t.waited.Nodup ∧ ∀ e ∈ t.waited, e ∈ t.exits
  accounted : Accounted t
  waiting : ∀ i, (t.procs i).loaded = true → (t.procs i).state = .waiting → HasChild t i (t.procs i).waitTargetPid

/-- The slot keeps its process, and whether that has exited. -/
structure SameFate (p q : Process) : Prop where
  loaded : q.loaded = p.loaded
  pid : q.pid = p.pid
  parentPid : q.parentPid = p.parentPid
  exitCode : q.exitCode = p.exitCode
  exited : q.state = .exited ↔ p.state = .exited
  used : q.state ≠ .empty → p.state ≠ .empty

/-- Besides, the process does not start to wait. -/
structure SameLife (p q : Process) : Prop extends SameFate p q where
  waiting : q.state = .waiting → p.state = .waiting ∧ q.waitTargetPid = p.waitTargetPid

variable {p q : Process}
variable {pid cpu : Nat}

section life

variable {t t' : ProcessTable} {c : Option Nat} {i j slot : ProcSlot}

lemma SameLife.refl (p : Process) : SameLife p p :=
  ⟨⟨rfl, rfl, rfl, rfl, Iff.rfl, id⟩, fun h => ⟨h, rfl⟩⟩

lemma SameLife.of_eq (h1 : q.loaded = p.loaded) (h2 : q.pid = p.pid)
    (h3 : q.parentPid = p.parentPid) (h4 : q.exitCode = p.exitCode) (h5 : q.state = p.state)
    (h6 : q.waitTargetPid = p.waitTargetPid) : SameLife p q :=
  ⟨⟨h1, h2, h3, h4, by rw [h5], by rw [h5]; exact id⟩, fun hw => ⟨h5 ▸ hw, h6⟩⟩

lemma SameFate.status (h : SameFate p q) : q.status = p.status := by
  rw [Process.status, Process.status, h.parentPid, h.pid, h.exitCode]

lemma SameFate.live (h : SameFate p q) : q.Live ↔ p.Live := by
  rw [Process.Live, Process.Live, h.loaded, Ne, h.exited]

lemma sameLife_update (ht : t'.procs = Function.update t.procs i p)
    (hp : SameLife (t.procs i) p) (j : ProcSlot) : SameLife (t.procs j) (t'.procs j) :=
  rel_update SameLife.refl ht hp j

lemma HasChild.congr (hp : ∀ j, SameFate (t.procs j) (t'.procs j)) (h : HasChild t i pid) : HasChild t' i pid := by
  obtain ⟨k, hl, hpp, hk⟩ := h
  refine ⟨k, (hp k).loaded.trans hl, ?_, ?_⟩
  · rw [(hp k).parentPid, (hp i).pid]
    exact hpp
  · rw [(hp k).pid]
    exact hk

lemma WaitInv.congr_fate (h : WaitInv t) (hp : ∀ j, SameFate (t.procs j) (t'.procs j))
    (hwait : ∀ i, (t'.procs i).loaded = true → (t'.procs i).state = .waiting → HasChild t' i (t'.procs i).waitTargetPid)
    (hn : t'.nextPid = t.nextPid) (he : t'.exits = t.exits) (hw : t'.waited = t.waited) : WaitInv t' := by
  have halive : ∀ pid, LivePid t' pid → LivePid t pid := by
    rintro pid ⟨j, hl, hpid⟩
    exact ⟨j, (hp j).live.mp hl, (hp j).pid ▸ hpid⟩
  refine ⟨fun i hi => ?_, fun i hi => ?_, fun i j hi hj hij => ?_, ?_, ?_, fun i hi => ?_,
    fun i hi hx => ?_, ?_, fun e hm ha => ?_, hwait⟩
  · rw [(hp i).loaded]
    exact h.used i ((hp i).used hi)
  · rw [(hp i).pid, (hp i).parentPid, hn]
    exact h.pids i ((hp i).loaded ▸ hi)
  · rw [(hp i).pid, (hp j).pid] at hij
    exact h.inj i j ((hp i).loaded ▸ hi) ((hp j).loaded ▸ hj) hij
  · rw [he, hn]
    exact h.past
  · rw [he]
    exact h.once
  · rw [he, (hp i).pid]
    exact h.alive i ((hp i).live.mp hi)
  · rw [he, hw, (hp i).status]
    exact h.logged i ((hp i).loaded ▸ hi) ((hp i).exited.mp hx)
  · rw [he, hw]
    exact h.returned
  · rw [he] at hm
    rw [hw]
    rcases h.accounted e hm (halive _ ha) with hdone | ⟨i, hl, hx, hs⟩
    · exact .inl hdone
    · exact .inr ⟨i, (hp i).loaded.trans hl, (hp i).exited.mpr hx, (hp i).status.trans hs⟩

lemma WaitInv.congr (h : WaitInv t) (hp : ∀ j, SameLife (t.procs j) (t'.procs j))
    (hn : t'.nextPid = t.nextPid) (he : t'.exits = t.exits) (hw : t'.waited = t.waited) : WaitInv t' := by
  refine h.congr_fate (fun j => (hp j).toSameFate) (fun i hi hs => ?_) hn he hw
  obtain ⟨hs', ht⟩ := (hp i).waiting hs
  rw [ht]
  exact (h.waiting i ((hp i).loaded ▸ hi) hs').congr fun j => (hp j).toSameFate

lemma WaitInv.update (h : WaitInv t) (ht : t'.procs = Function.update t.procs i p)
    (hp : SameLife (t.procs i) p) (hn : t'.nextPid = t.nextPid) (he : t'.exits = t.exits)
    (hw : t'.waited = t.waited) : WaitInv t' :=
  h.congr (sameLife_update ht hp) hn he hw

lemma WaitInv.housekeeping (h : WaitInv t) (hk : Housekeeping t t') : WaitInv t' := by
  refine h.congr (fun j => ?_) hk.nextPid hk.exits hk.waited
  have hj := hk.procs j
  exact .of_eq hj.loaded hj.pid hj.parentPid hj.exitCode hj.state hj.waitTargetPid

lemma markExited_same (t : ProcessTable) (i : ProcSlot) (code : Int) (k : ProcSlot) :
    ((markExited t i code).procs k).loaded = (t.procs k).loaded ∧
      ((markExited t i code).procs k).pid = (t.procs k).pid ∧
      ((markExited t i code).procs k).parentPid = (t.procs k).parentPid := by
  by_cases hk : k = i
  · subst hk
    rw [procs_markExited_self]
    exact ⟨rfl, rfl, rfl⟩
  · rw [procs_markExited_of_ne hk]
    exact ⟨rfl, rfl, rfl⟩

lemma WaitInv.mark (h : WaitInv t) (hl : (t.procs i).loaded = true)
    (hs : (t.procs i).state ≠ .exited) (code : Int) : WaitInv (markExited t i code) := by
  have hsame := markExited_same t i code
  have hstatus : ((markExited t i code).procs i).status = ((t.procs i).parentPid, (t.procs i).pid, code) := by
    rw [procs_markExited_self]
    rfl
  have hexits : (markExited t i code).exits = t.exits ++ [((t.procs i).parentPid, (t.procs i).pid, code)] := rfl
  have hfresh : ∀ e ∈ t.exits, e.2.1 ≠ (t.procs i).pid := h.alive i ⟨hl, hs⟩
  have hlive : ∀ k, ((markExited t i code).procs k).Live → k ≠ i ∧ (t.procs k).Live := by
    intro k hk
    have hne : k ≠ i := by
      rintro rfl
      rw [procs_markExited_self] at hk
      exact hk.2 rfl
    rw [procs_markExited_of_ne hne] at hk
    exact ⟨hne, hk⟩
  refine ⟨fun k hk => ?_, fun k hk => ?_, fun k l hk hkl heq => ?_, ?_, ?_, fun k hk e he => ?_,
    fun k hk hx => ?_, ⟨h.returned.1, fun e he => ?_⟩, fun e he ha => ?_, fun k hk hw => ?_⟩
  · rw [(hsame k).1]
    by_cases hki : k = i
    · rw [hki]
      exact hl
    · rw [procs_markExited_of_ne hki] at hk
      exact h.used k hk
  · rw [(hsame k).2.1, (hsame k).2.2]
    exact h.pids k ((hsame k).1 ▸ hk)
  · rw [(hsame k).2.1, (hsame l).2.1] at heq
    exact h.inj k l ((hsame k).1 ▸ hk) ((hsame l).1 ▸ hkl) heq
  · intro e he
    rw [hexits, mem_append, mem_singleton] at he
    rcases he with he | rfl
    · exact h.past e he
    · exact ⟨(h.pids i hl).2.2, (h.pids i hl).2.1⟩
  · rw [hexits, map_append, nodup_append]
    refine ⟨h.once, nodup_singleton _, ?_⟩
    simp only [map_cons, map_nil, mem_singleton, mem_map]
    rintro _ ⟨e, he, rfl⟩ _ rfl
    exact hfresh e he
  · obtain ⟨hne, hk'⟩ := hlive k hk
    rw [(hsame k).2.1]
    rw [hexits, mem_append, mem_singleton] at he
    rcases he with he | rfl
    · exact h.alive k hk' e he
    · exact fun heq => hne (h.inj k i hk'.1 hl heq.symm)
  · by_cases hki : k = i
    · subst hki
      rw [hstatus, hexits]
      refine ⟨by simp, fun hmem => ?_⟩
      exact hfresh _ (h.returned.2 _ hmem) rfl
    · rw [procs_markExited_of_ne hki] at hk hx ⊢
      obtain ⟨hin, hout⟩ := h.logged k hk hx
      exact ⟨by rw [hexits]; exact mem_append_left _ hin, hout⟩
  · exact mem_append_left _ (h.returned.2 e he)
  · rw [hexits, mem_append, mem_singleton] at he
    rcases he with he | rfl
    · have ha' : LivePid t e.1 := by
        obtain ⟨k, hk, hpid⟩ := ha
        exact ⟨k, (hlive k hk).2, (hsame k).2.1 ▸ hpid⟩
      rcases h.accounted e he ha' with hdone | ⟨k, hk, hx, hst⟩
      · exact .inl hdone
      · have hki : k ≠ i := fun hki => hs (hki ▸ hx)
        refine .inr ⟨k, ?_⟩
        rw [procs_markExited_of_ne hki]
        exact ⟨hk, hx, hst⟩
    · refine .inr ⟨i, (hsame i).1.trans hl, ?_, hstatus⟩
      rw [procs_markExited_self]
  · have hki : k ≠ i := by
      rintro rfl
      rw [procs_markExited_self] at hw
      cases hw
    rw [procs_markExited_of_ne hki] at hk hw ⊢
    obtain ⟨l, hl', hpp, ht⟩ := h.waiting k hk hw
    refine ⟨l, (hsame l).1.trans hl', ?_, ?_⟩
    · rw [(hsame l).2.2, (hsame k).2.1]
      exact hpp
    · rw [(hsame l).2.1]
      exact ht

/-- An exited process is reaped: its status has been returned now, or its parent does not live. -/
lemma WaitInv.reap (h : WaitInv t) (hl : (t.procs i).loaded = true)
    (hx : (t.procs i).state = .exited) (waited : List (Nat × Nat × Int)) (targets : List Nat)
    (hw : waited = t.waited ++ [(t.procs i).status] ∨ waited = t.waited ∧ ¬ LivePid t (t.procs i).parentPid)
    (hno : ∀ j, (t.procs j).loaded = true → (t.procs j).state = .waiting → (t.procs j).pid ≠ (t.procs i).parentPid) :
    WaitInv (processReap { t with waited := waited, targets := targets } i) := by
  set u := processReap { t with waited := waited, targets := targets } i with hu
  have hself : (u.procs i).loaded = false ∧ (u.procs i).state = .empty := by simp [hu, processReap]
  have hother : ∀ k, k ≠ i → u.procs k = t.procs k := fun k hk => procs_processReap_of_ne hk
  have hne : ∀ k, (u.procs k).loaded = true → k ≠ i := by
    rintro k hk rfl
    rw [hself.1] at hk
    cases hk
  have hpid : ∀ k, (t.procs k).loaded = true → k ≠ i → (t.procs k).status ≠ (t.procs i).status := by
    intro k hk hki heq
    exact hki (h.inj k i hk hl (congrArg (fun e => e.2.1) heq))
  obtain ⟨hin, hout⟩ := h.logged i hl hx
  have hsub : ∀ e ∈ waited, e ∈ t.waited ∨ e = (t.procs i).status := by
    intro e he
    rcases hw with rfl | ⟨rfl, -⟩
    · simpa using he
    · exact .inl he
  refine ⟨fun k hk => ?_, fun k hk => ?_, fun k l hk hkl heq => ?_, h.past, h.once, fun k hk e he => ?_, fun k hk hkx =>
    ?_, ⟨?_, fun e he => ?_⟩, fun e he ha => ?_, fun k hk hkw => ?_⟩
  · have hki : k ≠ i := by
      rintro rfl
      exact hk hself.2
    rw [hother k hki] at hk ⊢
    exact h.used k hk
  · have hki := hne k hk
    rw [hother k hki] at hk ⊢
    exact h.pids k hk
  · have hki := hne k hk
    have hli := hne l hkl
    rw [hother k hki] at hk heq
    rw [hother l hli] at hkl heq
    exact h.inj k l hk hkl heq
  · have hki := hne k hk.1
    rw [hother k hki] at hk ⊢
    exact h.alive k hk e he
  · have hki := hne k hk
    rw [hother k hki] at hk hkx ⊢
    obtain ⟨hkin, hkout⟩ := h.logged k hk hkx
    refine ⟨hkin, fun hmem => ?_⟩
    rcases hsub _ hmem with hmem | heq
    · exact hkout hmem
    · exact hpid k hk hki heq
  · change waited.Nodup
    rcases hw with rfl | ⟨rfl, -⟩
    · rw [nodup_append]
      refine ⟨h.returned.1, nodup_singleton _, ?_⟩
      intro a ha b hb hab
      rw [mem_singleton] at hb
      exact hout (hb ▸ hab ▸ ha)
    · exact h.returned.1
  · rcases hsub e he with he | rfl
    · exact h.returned.2 e he
    · exact hin
  · have ha' : LivePid t e.1 := by
      obtain ⟨k, hk, hkp⟩ := ha
      have hki := hne k hk.1
      rw [hother k hki] at hk hkp
      exact ⟨k, hk, hkp⟩
    rcases h.accounted e he ha' with hdone | ⟨k, hk, hkx, hst⟩
    · refine .inl ?_
      rcases hw with rfl | ⟨rfl, -⟩
      · exact mem_append_left _ hdone
      · exact hdone
    · by_cases hki : k = i
      · subst hki
        rcases hw with rfl | ⟨-, hdead⟩
        · refine .inl ?_
          change e ∈ t.waited ++ [(t.procs k).status]
          simp [hst]
        · subst hst
          exact absurd ha' hdead
      · refine .inr ⟨k, ?_⟩
        rw [hother k hki]
        exact ⟨hk, hkx, hst⟩
  · have hki := hne k hk
    rw [hother k hki] at hk hkw ⊢
    obtain ⟨l, hll, hpp, ht⟩ := h.waiting k hk hkw
    have hli : l ≠ i := by
      rintro rfl
      exact hno k hk hkw hpp.symm
    refine ⟨l, ?_⟩
    rw [hother l hli, hother k hki]
    exact ⟨hll, hpp, ht⟩

lemma WaitInv.fill (h : WaitInv t) (hfree : (t.procs slot).loaded = false) (hn : t.nextPid + 1 < 2 ^ 32)
    (ht : t'.procs = Function.update t.procs slot q) (hl : q.loaded)
    (hs : q.state = .ready) (hpid : q.pid = (t.nextPid + 1) % 2 ^ 32) (hpp : q.parentPid ≤ t.nextPid)
    (hnext : t'.nextPid = (t.nextPid + 1) % 2 ^ 32) (he : t'.exits = t.exits)
    (hw : t'.waited = t.waited) : WaitInv t' := by
  rw [Nat.mod_eq_of_lt hn] at hpid hnext
  have hself : t'.procs slot = q := by
    rw [ht, Function.update_self]
  have hother : ∀ k, k ≠ slot → t'.procs k = t.procs k := fun k hk => by
    rw [ht, Function.update_of_ne hk]
  have hne : ∀ k, (t.procs k).loaded = true → k ≠ slot := by
    rintro k hk rfl
    rw [hfree] at hk
    cases hk
  refine ⟨fun k hk => ?_, fun k hk => ?_, fun k l hk hkl heq => ?_, fun e hm => ?_, ?_,
    fun k hk e hm => ?_, fun k hk hx => ?_, ?_, fun e hm ha => ?_, fun k hk hkw => ?_⟩
  · by_cases hks : k = slot
    · rw [hks, hself]
      exact hl
    · rw [hother k hks] at hk ⊢
      exact h.used k hk
  · by_cases hks : k = slot
    · rw [hks, hself, hpid]
      omega
    · rw [hother k hks] at hk ⊢
      have := h.pids k hk
      omega
  · by_cases hks : k = slot
    · by_cases hls : l = slot
      · rw [hks, hls]
      · rw [hother l hls] at hkl heq
        rw [hks, hself, hpid] at heq
        have := h.pids l hkl
        omega
    · rw [hother k hks] at hk heq
      by_cases hls : l = slot
      · rw [hls, hself, hpid] at heq
        have := h.pids k hk
        omega
      · rw [hother l hls] at hkl heq
        exact h.inj k l hk hkl heq
  · rw [he] at hm
    have := h.past e hm
    omega
  · rw [he]
    exact h.once
  · rw [he] at hm
    by_cases hks : k = slot
    · rw [hks, hself, hpid]
      have := h.past e hm
      omega
    · rw [hother k hks] at hk ⊢
      exact h.alive k hk e hm
  · by_cases hks : k = slot
    · rw [hks, hself, hs] at hx
      cases hx
    · rw [hother k hks] at hk hx ⊢
      rw [he, hw]
      exact h.logged k hk hx
  · rw [he, hw]
    exact h.returned
  · rw [he] at hm
    rw [hw]
    -- the new pid is nobody's parent
    have ha' : LivePid t e.1 := by
      obtain ⟨k, hk, hkp⟩ := ha
      by_cases hks : k = slot
      · rw [hks, hself, hpid] at hkp
        have := h.past e hm
        omega
      · rw [hother k hks] at hk hkp
        exact ⟨k, hk, hkp⟩
    rcases h.accounted e hm ha' with hdone | ⟨k, hk, hx, hst⟩
    · exact .inl hdone
    · refine .inr ⟨k, ?_⟩
      rw [hother k (hne k hk)]
      exact ⟨hk, hx, hst⟩
  · by_cases hks : k = slot
    · rw [hks, hself, hs] at hkw
      cases hkw
    · rw [hother k hks] at hk hkw ⊢
      obtain ⟨l, hll, hlp, hlt⟩ := h.waiting k hk hkw
      refine ⟨l, ?_⟩
      rw [hother l (hne l hll), hother k hks]
      exact ⟨hll, hlp, hlt⟩

lemma WaitInv.adopt (h : WaitInv t) (hl : (t.procs slot).loaded = true)
    (hr : (t.procs slot).state = .ready) (hz : (t.procs slot).parentPid = 0)
    (hpid : pid ≤ t.nextPid) : WaitInv (t.modify slot fun p => { p with parentPid := pid }) := by
  have hsame : ∀ k, let q := (t.modify slot fun p => { p with parentPid := pid }).procs k
      q.loaded = (t.procs k).loaded ∧ q.pid = (t.procs k).pid ∧ q.state = (t.procs k).state ∧
      q.waitTargetPid = (t.procs k).waitTargetPid ∧ (k ≠ slot → q = t.procs k) := by
    intro k
    by_cases hk : k = slot
    · subst hk
      rw [procs_modify_self]
      exact ⟨rfl, rfl, rfl, rfl, fun hne => absurd rfl hne⟩
    · rw [procs_modify_of_ne _ _ hk]
      exact ⟨rfl, rfl, rfl, rfl, fun _ => rfl⟩
  have hready : ∀ k, (t.procs k).state = .exited → k ≠ slot := by
    rintro k hk rfl
    rw [hr] at hk
    cases hk
  have hlive : ∀ k, ((t.modify slot fun p => { p with parentPid := pid }).procs k).Live →
      (t.procs k).Live := fun k hk => ⟨(hsame k).1 ▸ hk.1, (hsame k).2.2.1 ▸ hk.2⟩
  refine ⟨fun k hk => ?_, fun k hk => ?_, fun k l hk hkl heq => ?_, h.past, h.once,
    fun k hk e he => ?_, fun k hk hx => ?_, h.returned, fun e he ha => ?_, fun k hk hw => ?_⟩
  · rw [(hsame k).1]
    exact h.used k ((hsame k).2.2.1 ▸ hk)
  · rw [(hsame k).1] at hk
    by_cases hks : k = slot
    · subst hks
      rw [procs_modify_self]
      exact ⟨(h.pids k hl).1, (h.pids k hl).2.1, hpid⟩
    · rw [(hsame k).2.2.2.2 hks]
      exact h.pids k hk
  · rw [(hsame k).2.1, (hsame l).2.1] at heq
    exact h.inj k l ((hsame k).1 ▸ hk) ((hsame l).1 ▸ hkl) heq
  · rw [(hsame k).2.1]
    exact h.alive k (hlive k hk) e he
  · rw [(hsame k).2.2.1] at hx
    rw [(hsame k).2.2.2.2 (hready k hx)] at hk ⊢
    exact h.logged k hk hx
  · have ha' : LivePid t e.1 := by
      obtain ⟨k, hk, hkp⟩ := ha
      exact ⟨k, hlive k hk, (hsame k).2.1 ▸ hkp⟩
    rcases h.accounted e he ha' with hdone | ⟨k, hk, hx, hst⟩
    · exact .inl hdone
    · refine .inr ⟨k, ?_⟩
      rw [(hsame k).2.2.2.2 (hready k hx)]
      exact ⟨hk, hx, hst⟩
  · rw [(hsame k).1] at hk
    rw [(hsame k).2.2.1] at hw
    rw [(hsame k).2.2.2.1]
    obtain ⟨l, hll, hlp, hlt⟩ := h.waiting k hk hw
    -- the new process was nobody's child
    have hls : l ≠ slot := by
      rintro rfl
      exact (h.pids k hk).1 (hlp.symm.trans hz)
    refine ⟨l, ?_⟩
    rw [(hsame l).2.2.2.2 hls, (hsame k).2.1]
    exact ⟨hll, hlp, hlt⟩

lemma findExitedChild_spec {parentPid target : Nat} (h : processFindExitedChild t parentPid target = some j) :
    (t.procs j).loaded = true ∧ (t.procs j).state = .exited ∧ (t.procs j).parentPid = parentPid := by
  have hspec := first_spec h
  simp only [Bool.and_eq_true, beq_iff_eq] at hspec
  exact ⟨hspec.1.1.1.1, hspec.1.1.1.2, hspec.1.2⟩

lemma WaitInv.answer (h : WaitInv t) (hx : (t.procs i).state = .exited) (hw : Waits t j i) :
    WaitInv (processReap (answerWaiter t j i) i) := by
  have hl : (t.procs i).loaded = true := h.used i (by rw [hx]; simp)
  have hij : i ≠ j := hw.ne (by rw [hx]; simp)
  have hsame : ∀ k, SameLife (t.procs k) (({ answerWaiter t j i with waited := t.waited } : ProcessTable).procs k) :=
    sameLife_update (i := j) rfl ⟨⟨rfl, rfl, rfl, rfl, by simp [hw.state], by simp [hw.state]⟩, nofun⟩
  have hans := h.congr hsame rfl rfl rfl
  have hproc : (answerWaiter t j i).procs i = t.procs i := procs_answerWaiter_of_ne hij
  refine WaitInv.reap hans ?_ ?_ (answerWaiter t j i).waited (answerWaiter t j i).targets (.inl ?_) ?_
  · exact (congrArg Process.loaded hproc).trans hl
  · exact (congrArg Process.state hproc).trans hx
  · have hst : ((answerWaiter t j i).procs i).status = ((t.procs j).pid, (t.procs i).pid, (t.procs i).exitCode) := by
      rw [hproc, Process.status, hw.pid]
    exact congrArg (t.waited ++ [·]) hst.symm
  · intro k hk hkw hpid
    have hkj : k ≠ j := by
      rintro rfl
      exact absurd hkw (by rw [procs_answerWaiter_self]; simp)
    have hkproc : (answerWaiter t j i).procs k = t.procs k := procs_answerWaiter_of_ne hkj
    have hpid' : (t.procs k).pid = (t.procs j).pid :=
      ((congrArg Process.pid hkproc).symm.trans hpid).trans
        ((congrArg Process.parentPid hproc).trans hw.pid.symm)
    exact hkj (h.inj k j ((congrArg Process.loaded hkproc).symm.trans hk) hw.loaded hpid')

lemma WaitInv.startWait (h : WaitInv t) (ha : Acts dutiful t cpu i) (frame : Context)
    (hp : HasChild t i pid) :
    WaitInv (t.modify i fun p => { p with state := .waiting, waitTargetPid := pid, context := frame }) := by
  have hsame : ∀ j, SameFate (t.procs j) ((t.modify i fun p => { p with
      state := .waiting, waitTargetPid := pid, context := frame }).procs j) := by
    intro j
    by_cases hj : j = i
    · subst hj
      rw [procs_modify_self]
      refine ⟨rfl, rfl, rfl, rfl, by simp [ha.state], fun _ => ?_⟩
      rcases ha.acts.2 with hr | hr <;> rw [hr] <;> simp
    · rw [procs_modify_of_ne _ _ hj]
      exact (SameLife.refl _).toSameFate
  refine h.congr_fate hsame (fun k hk hkw => ?_) rfl rfl rfl
  by_cases hki : k = i
  · subst hki
    have hchild := HasChild.congr hsame hp
    rw [procs_modify_self]
    exact hchild
  · have hkproc := procs_modify_of_ne t (fun p => { p with
      state := .waiting, waitTargetPid := pid, context := frame }) hki
    rw [hkproc] at hk hkw ⊢
    exact (h.waiting k hk hkw).congr hsame

lemma WaitInv.caller {f : Process → Process} (h : WaitInv t) (ha : Acts dutiful t cpu i)
    (h1 : (f (t.procs i)).loaded = (t.procs i).loaded) (h2 : (f (t.procs i)).pid = (t.procs i).pid)
    (h3 : (f (t.procs i)).parentPid = (t.procs i).parentPid) (h4 : (f (t.procs i)).exitCode = (t.procs i).exitCode)
    (h5 : (f (t.procs i)).state ≠ .exited) (h6 : (f (t.procs i)).state ≠ .waiting) : WaitInv (t.modify i f) := by
  refine h.update rfl ⟨⟨h1, h2, h3, h4, ?_, fun _ => ?_⟩, fun hw => absurd hw h6⟩ rfl rfl rfl
  · exact ⟨fun hx => absurd hx h5, fun hx => absurd hx ha.state⟩
  · rcases ha.acts.2 with hr | hr <;> rw [hr] <;> simp

lemma WaitInv.startSlice (h : WaitInv t) : WaitInv (startSlice t cpu) := by
  rw [VibeOS.startSlice]
  split
  · exact h
  · rename_i i hi
    have hi' := (pickNextReady_spec hi).2
    refine h.update (i := i) rfl ⟨⟨rfl, rfl, rfl, rfl, ?_, fun _ => ?_⟩, by simp⟩ rfl rfl rfl
    · rcases hi' with hr | hr
      · simp [hr]
      · simp [hr.1]
    · rcases hi' with hr | hr
      · simp [hr]
      · simp [hr.1]

lemma WaitInv.move (hm : Move dutiful c t t') (h : WaitInv t) : WaitInv t' := by
  cases hm with
  | @mark i code hs hi =>
    refine h.mark ?_ hs code
    rcases hi with hl | ⟨cpu, ha⟩
    · exact hl
    · exact ha.acts.1
  | answer hx hw hp => exact h.answer hx hw
  | @collect cpu i j pid ha hj hp =>
    obtain ⟨hl, hx, hpp⟩ := findExitedChild_spec hj
    refine h.reap hl hx _ _ (.inl ?_) fun k hk hkw hpid => ?_
    · rw [Process.status, hpp]
    · have hki : k = i := h.inj k i hk ha.acts.1 (hpid.trans hpp)
      subst hki
      rcases ha.acts.2 with hr | hr <;> rw [hr] at hkw <;> cases hkw
  | reclaim hl hx hp =>
    refine h.reap hl hx t.waited t.targets (.inr ⟨rfl, hp⟩) fun k hk hkw hpid => hp ⟨k, ⟨hk, ?_⟩, hpid⟩
    rw [hkw]
    simp
  | drop cpu => exact h.congr (fun k => SameLife.refl _) rfl rfl rfl
  | leave hs => exact h.update rfl (.of_eq rfl rfl rfl rfl rfl rfl) rfl rfl rfl
  | block hc ha => exact h.caller ha rfl rfl rfl rfl (by simp) (by simp)
  | dispatch hc hsp hs => exact h.startSlice
  | deschedule hc ha state frame hs =>
    refine h.caller ha rfl rfl rfl rfl ?_ ?_
    · rcases hs with rfl | rfl | rfl <;> simp
    · rcases hs with rfl | rfl | rfl <;> simp
  | wait hc ha frame hp => exact h.startWait ha frame hp
  | @preempt cpu i hc hr hp frame =>
    refine h.update (i := i) rfl ⟨⟨rfl, rfl, rfl, rfl, ?_, fun _ => ?_⟩, fun hw => ?_⟩ rfl rfl rfl
    · dsimp only
      split_ifs with hx
      · simp [hx]
      · simp [hx]
    · rcases hp.2 with hr | hr <;> rw [hr] <;> simp
    · dsimp only at hw
      split_ifs at hw
  | wakeReady due =>
    refine h.congr (fun j => ?_) rfl rfl rfl
    change SameLife _ (if _ then _ else _)
    split_ifs with hs
    · exact ⟨⟨rfl, rfl, rfl, rfl, by simp [hs.1], by simp [hs.1]⟩, nofun⟩
    · exact SameLife.refl _
  | @wakeTty i n hs =>
    exact h.update (i := i) rfl ⟨⟨rfl, rfl, rfl, rfl, by simp [hs], by simp [hs]⟩, nofun⟩ rfl rfl rfl
  | @noMemory slot hfree fds parentPid =>
    exact h.update (i := slot) rfl (.of_eq rfl rfl rfl rfl rfl rfl) rfl rfl rfl
  | spawn hfree hn ha uid =>
    refine h.fill hfree hn (procs_fillImage _ _ _ _) ?_ ?_ ?_ ?_ rfl rfl rfl <;> rw [procs_fillImage_self]
    exact (h.pids _ ha.acts.1).2.1
  | spawnPath hfree hn ops object uid =>
    refine h.fill hfree hn (procs_fillImage _ _ _ _) ?_ ?_ ?_ ?_ rfl rfl rfl <;> rw [procs_fillImage_self]
    exact Nat.zero_le _
  | @adopt slot j i hi hl hr hp hz hj =>
    obtain ⟨-, hlj, hpj⟩ := findByPid_spec hj
    obtain rfl : j = slot := h.inj j slot hlj hl (hpj.trans hp.symm)
    obtain ⟨t0, cpu, ha, hsame⟩ := hi
    have hi := hsame ha.acts.1
    refine h.adopt hl hr hz ?_
    exact (h.pids i (hi ▸ ha.acts.1)).2.1
  | thread hfree hn ha =>
    refine h.fill hfree hn (procs_fillThread _ _) ?_ ?_ ?_ ?_ rfl rfl rfl <;> rw [procs_fillThread_self]
    exact (h.pids _ ha.acts.1).2.1
  | ptyOpen ha hf => exact h.housekeeping (housekeeping_fds _ _)
  | openFile ha out => exact h.housekeeping (housekeeping_open _ out)
  | closeFd ha hp => exact h.housekeeping (housekeeping_closeFd _ _)
  | moveOffset ha fd offset => exact h.housekeeping (housekeeping_moveOffset _ fd offset)
  | sbrk ha chunks => exact h.housekeeping (housekeeping_sbrk _ chunks)
  | setuid i uid => exact h.housekeeping (housekeeping_setuid i uid)
  | desktopUid uid => exact h.housekeeping (housekeeping_desktopUid uid)

end life

/-- Each answer of `waitpid` was asked for: its caller waited for any child, or for the one it got. -/
def Matched (t : ProcessTable) : Prop := Forall₂ (fun target e => target = 0 ∨ target = e.2.1) t.targets t.waited

lemma Matched.answer {t t' : ProcessTable} (h : Matched t) {target : Nat} {e : Nat × Nat × Int}
    (ht : t'.targets = t.targets ++ [target]) (hw : t'.waited = t.waited ++ [e]) (he : target = 0 ∨ target = e.2.1) :
    Matched t' := by
  rw [Matched, ht, hw]
  exact rel_append h (.cons he .nil)

lemma Matched.of_eq {t t' : ProcessTable} (h : Matched t) (ht : t'.targets = t.targets) (hw : t'.waited = t.waited) :
    Matched t' := by
  rw [Matched, ht, hw]
  exact h

lemma Matched.move {P : Policy} {c : Option Nat} {t t' : ProcessTable} (hm : Move P c t t') (h : Matched t) :
    Matched t' := by
  have hkeep : Housekeeping t t' → Matched t' := fun hk => h.of_eq hk.targets hk.waited
  cases hm with
  | answer hx hw hp => exact h.answer rfl rfl hw.target
  | collect ha hj hp =>
    have hspec := first_spec hj
    simp only [Bool.and_eq_true, Bool.or_eq_true, beq_iff_eq] at hspec
    exact h.answer rfl rfl (hspec.2.imp_right Eq.symm)
  | dispatch hc hs hsl =>
    rw [startSlice]
    split
    · exact h
    · exact h
  | openFile ha out => exact hkeep (housekeeping_open _ out)
  | closeFd ha hp => exact hkeep (housekeeping_closeFd _ _)
  | moveOffset ha fd offset => exact hkeep (housekeeping_moveOffset _ fd offset)
  | sbrk ha chunks => exact hkeep (housekeeping_sbrk _ chunks)
  | _ => exact h

/-! ### Whole runs -/

instance HasChild.instDecidable (t : ProcessTable) (i : ProcSlot) (pid : Nat) : Decidable (HasChild t i pid) :=
  inferInstanceAs (Decidable (∃ _, _ ∧ _ ∧ (_ ∨ _)))

instance dutiful.instDecidableActs (p : Process) : Decidable (dutiful.acts p) :=
  inferInstanceAs (Decidable (_ ∧ (_ ∨ _)))

instance dutiful.instDecidableCreates (n : Nat) : Decidable (dutiful.creates n) :=
  inferInstanceAs (Decidable (n + 1 < 2 ^ 32))

end VibeOS
