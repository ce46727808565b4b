import VibeOS.Kernel.Moves
import VibeOS.Kernel.Tenancy

/-!
# Slots of running processes

Every CPU executes the user code of the process that it dispatched until its slice ends, while kernel entries
on other CPUs kill, reap and fill slots. `CpuInv` ties the slices of the CPUs to `running_on_cpu`, and
`run_slots` is the result: where nothing is reaped that another CPU still uses, no slot runs twice, the slot
of a running process keeps its tenant and its address space, and a tick saves the registers where they belong.
-/

namespace VibeOS

open ProcessTable
open Function (update_of_ne update_self)

/-- A CPU other than `c` runs the process in `r`, or in the address space that `r` owns. -/
def InUse (c : Option Nat) (t : ProcessTable) (r : ProcSlot) : Prop :=
  ∃ j, (t.procs j).runningOnCpu ≠ none ∧ (t.procs j).runningOnCpu ≠ c ∧
    (j = r ∨ (t.procs r).isThread = false ∧ (t.procs j).userImage = (t.procs r).userImage)

/-- Nothing is reaped that is in use, but for the slice that ends with the entry. -/
def unused : Policy where
  acts _ := True
  handOver c t r := ¬ InUse c t r
  reclaim t r := ¬ InUse none t r
  waits _ _ _ := True
  closes _ _ _ := True
  creates _ := True

/-- The same, with callers that hold their slots. -/
def unusedHeld : Policy :=
  { unused with acts := fun p => p.loaded = true ∧ (p.state = .running ∨ p.state = .exited) }

/-- An owner of the address space of the process in `i` is loaded. -/
def Housed (t : ProcessTable) (i : ProcSlot) : Prop :=
  ∃ o, (t.procs o).loaded = true ∧ (t.procs o).isThread = false ∧ (t.procs o).userImage = (t.procs i).userImage

/-- The invariant; the slice of CPU `c` is about to end. -/
structure CpuInv (c : Option Nat) (t : ProcessTable) : Prop where
  cur : CurrentOk t
  uniq : ∀ k l i, t.slice k = some i → t.slice l = some i → k = l
  only : ∀ k i, (t.procs i).runningOnCpu = some k → t.slice k = some i
  slot : ∀ k i, c ≠ some k → t.slice k = some i →
    (t.procs i).loaded = true ∧ (t.procs i).runningOnCpu = some k ∧ Housed t i
  state : ∀ k i, c ≠ some k → t.runs k = some i → (t.procs i).state = .running ∨ (t.procs i).state = .exited
  used : ∀ i, (t.procs i).state ≠ .empty → (t.procs i).loaded = true
  tables : ∀ i, (t.procs i).loaded = true → (t.procs i).userPageTables ≠ none

/-- The slot keeps its address space and its CPU, and a process that runs goes on or has exited. -/
structure SameSeat (p q : Process) : Prop where
  loaded : q.loaded = p.loaded
  isThread : q.isThread = p.isThread
  image : q.userImage = p.userImage
  tables : q.userPageTables = p.userPageTables
  cpu : q.runningOnCpu = p.runningOnCpu
  used : p.loaded = true ∨ (q.state ≠ .empty → p.state ≠ .empty)
  state : p.state = .running ∨ p.state = .exited → q.state = .running ∨ q.state = .exited

/-- What a process keeps as long as its slot holds the same image. -/
structure SameImage (p q : Process) : Prop where
  loaded : q.loaded = p.loaded
  isThread : q.isThread = p.isThread
  image : q.userImage = p.userImage
  tables : q.userPageTables = p.userPageTables

section seat

variable {p q : Process} {t t' : ProcessTable} {c : Option Nat} {i j slot : ProcSlot} {k : Nat}

lemma SameSeat.of_eq (h1 : q.loaded = p.loaded) (h2 : q.isThread = p.isThread)
    (h3 : q.userImage = p.userImage) (h4 : q.userPageTables = p.userPageTables)
    (h5 : q.runningOnCpu = p.runningOnCpu) (h6 : q.state = p.state) : SameSeat p q :=
  ⟨h1, h2, h3, h4, h5, .inr (by rw [h6]; exact id), by rw [h6]; exact id⟩

lemma SameSeat.refl (p : Process) : SameSeat p p := .of_eq rfl rfl rfl rfl rfl rfl

lemma sameSeat_update (ht : t'.procs = Function.update t.procs i p)
    (hp : SameSeat (t.procs i) p) (j : ProcSlot) : SameSeat (t.procs j) (t'.procs j) :=
  rel_update .refl ht hp j

lemma SameImage.refl (p : Process) : SameImage p p := ⟨rfl, rfl, rfl, rfl⟩

lemma Housed.of_sameImage (hsame : ∀ j, SameImage (t.procs j) (t'.procs j)) (h : Housed t i) : Housed t' i := by
  obtain ⟨o, ho, hot, himg⟩ := h
  refine ⟨o, (hsame o).loaded.trans ho, (hsame o).isThread.trans hot, ?_⟩
  rw [(hsame o).image, (hsame i).image]
  exact himg

lemma runs_congr (hs : t'.slice = t.slice) (hk : t'.current = t.current) (k : Nat) : t'.runs k = t.runs k := by
  rw [ProcessTable.runs, ProcessTable.runs, hs, hk]

lemma CpuInv.congr (h : CpuInv c t) (hp : ∀ j, SameSeat (t.procs j) (t'.procs j))
    (hs : t'.slice = t.slice) (hk : t'.current = t.current) : CpuInv c t' := by
  refine ⟨?_, ?_, fun k i hr => ?_, fun k i hc hi => ?_, fun k i hc hi => ?_, fun i hi => ?_, fun i hi => ?_⟩
  · unfold CurrentOk
    rw [hs, hk]
    exact h.cur
  · rw [hs]
    exact h.uniq
  · rw [(hp i).cpu] at hr
    rw [hs]
    exact h.only k i hr
  · rw [hs] at hi
    obtain ⟨hl, hr, o, ho, hot, hoi⟩ := h.slot k i hc hi
    refine ⟨(hp i).loaded.trans hl, (hp i).cpu.trans hr, o, (hp o).loaded.trans ho, (hp o).isThread.trans hot, ?_⟩
    rw [(hp o).image, (hp i).image]
    exact hoi
  · rw [runs_congr hs hk] at hi
    exact (hp i).state (h.state k i hc hi)
  · rw [(hp i).loaded]
    rcases (hp i).used with hl | hu
    · exact hl
    · exact h.used i (hu hi)
  · rw [(hp i).tables]
    exact h.tables i ((hp i).loaded ▸ hi)

lemma CpuInv.update (h : CpuInv c t) (ht : t'.procs = Function.update t.procs i p)
    (hp : SameSeat (t.procs i) p) (hs : t'.slice = t.slice) (hk : t'.current = t.current) : CpuInv c t' :=
  h.congr (sameSeat_update ht hp) hs hk

lemma CpuInv.housekeeping (h : CpuInv c t) (hk : Housekeeping t t') : CpuInv c t' := by
  refine h.congr (fun j => ?_) hk.slice hk.current
  have hj := hk.procs j
  exact .of_eq hj.loaded hj.isThread hj.userImage hj.userPageTables hj.runningOnCpu hj.state

lemma CpuInv.caller (h : CpuInv (some k) t) (hr : t.runs k = some i)
    (hl : (t.procs i).loaded = true) {f : Process → Process} (hf : SameImage (t.procs i) (f (t.procs i)))
    (h5 : (f (t.procs i)).runningOnCpu = (t.procs i).runningOnCpu) : CpuInv (some k) (t.modify i f) := by
  have hsame : ∀ j, SameImage (t.procs j) ((t.modify i f).procs j) :=
    rel_update .refl rfl hf
  have hcpu : ∀ j, ((t.modify i f).procs j).runningOnCpu = (t.procs j).runningOnCpu :=
    rel_update (R := fun p q => q.runningOnCpu = p.runningOnCpu) (fun _ => rfl) rfl h5
  -- no other CPU has the caller in its slice
  have hother : ∀ l j, some k ≠ some l → t.slice l = some j → j ≠ i := by
    rintro l j hne hj rfl
    exact hne (congrArg some (h.uniq k l j (h.cur.slice hr) hj))
  refine ⟨h.cur, h.uniq, fun l j hj => ?_, fun l j hc hj => ?_, fun l j hc hj => ?_, fun j hj => ?_, fun j hj => ?_⟩
  · exact h.only l j (hcpu j ▸ hj)
  · obtain ⟨hlj, hrj, hho⟩ := h.slot l j hc hj
    exact ⟨(hsame j).loaded.trans hlj, (hcpu j).trans hrj, hho.of_sameImage hsame⟩
  · have hji := hother l j hc (h.cur.slice hj)
    rw [procs_modify_of_ne _ _ hji]
    exact h.state l j hc hj
  · rw [(hsame j).loaded]
    by_cases hji : j = i
    · rw [hji]
      exact hl
    · rw [procs_modify_of_ne _ _ hji] at hj
      exact h.used j hj
  · rw [(hsame j).tables]
    exact h.tables j ((hsame j).loaded ▸ hj)

lemma CpuInv.change (h : CpuInv c t) (ht : t'.procs = Function.update t.procs i q)
    (hs : t'.slice = t.slice) (hk : t'.current = t.current)
    (hcpu : q.runningOnCpu = none ∨ q.runningOnCpu = (t.procs i).runningOnCpu)
    (hidle : ∀ k j, c ≠ some k → t.slice k = some j → j ≠ i ∧
      ∃ o, o ≠ i ∧ (t.procs o).loaded = true ∧ (t.procs o).isThread = false ∧
        (t.procs o).userImage = (t.procs j).userImage) (hused : q.state ≠ .empty → q.loaded)
    (htab : q.loaded → q.userPageTables ≠ none) : CpuInv c t' := by
  have hself : t'.procs i = q := by
    rw [ht, update_self]
  have hother : ∀ j, j ≠ i → t'.procs j = t.procs j := fun j hj => by
    rw [ht, update_of_ne hj]
  refine ⟨?_, ?_, fun k j hj => ?_, fun k j hc hj => ?_, fun k j hc hj => ?_, fun j hj => ?_, fun j hj => ?_⟩
  · unfold CurrentOk
    rw [hs, hk]
    exact h.cur
  · rw [hs]
    exact h.uniq
  · rw [hs]
    by_cases hji : j = i
    · subst hji
      rw [hself] at hj
      rcases hcpu with hcpu | hcpu
      · rw [hcpu] at hj
        cases hj
      · exact h.only k j (hcpu ▸ hj)
    · rw [hother j hji] at hj
      exact h.only k j hj
  · rw [hs] at hj
    obtain ⟨hji, o, hoi, ho, hot, himg⟩ := hidle k j hc hj
    obtain ⟨hl, hr, -⟩ := h.slot k j hc hj
    rw [hother j hji]
    refine ⟨hl, hr, o, ?_⟩
    rw [hother o hoi, hother j hji]
    exact ⟨ho, hot, himg⟩
  · rw [runs_congr hs hk] at hj
    rw [hother j (hidle k j hc (h.cur.slice hj)).1]
    exact h.state k j hc hj
  · by_cases hji : j = i
    · subst hji
      rw [hself] at hj ⊢
      exact hused hj
    · rw [hother j hji] at hj ⊢
      exact h.used j hj
  · by_cases hji : j = i
    · subst hji
      rw [hself] at hj ⊢
      exact htab hj
    · rw [hother j hji] at hj ⊢
      exact h.tables j hj

lemma CpuInv.reap (h : CpuInv c t) {r : ProcSlot} (hr : ¬ InUse c t r) : CpuInv c (processReap t r) := by
  refine h.change (i := r) rfl rfl rfl (.inr rfl) (fun k j hc hj => ?_) (fun hn => absurd rfl hn) nofun
  obtain ⟨-, hcpu, o, ho, hot, himg⟩ := h.slot k j hc hj
  have hrun : (t.procs j).runningOnCpu ≠ none ∧ (t.procs j).runningOnCpu ≠ c := by
    rw [hcpu]
    exact ⟨by simp, hc.symm⟩
  refine ⟨?_, o, ?_, ho, hot, himg⟩
  · rintro rfl
    exact hr ⟨j, hrun.1, hrun.2, .inl rfl⟩
  · rintro rfl
    exact hr ⟨j, hrun.1, hrun.2, .inr ⟨hot, himg.symm⟩⟩

lemma CpuInv.fill (h : CpuInv c t) (hfree : (t.procs slot).loaded = false)
    (ht : t'.procs = Function.update t.procs slot q) (hs : t'.slice = t.slice) (hk : t'.current = t.current)
    (hcpu : q.runningOnCpu = none ∨ q.runningOnCpu = (t.procs slot).runningOnCpu)
    (hused : q.state ≠ .empty → q.loaded) (htab : q.loaded → q.userPageTables ≠ none) : CpuInv c t' := by
  have hne : ∀ j, (t.procs j).loaded = true → j ≠ slot := by
    rintro j hj rfl
    rw [hfree] at hj
    cases hj
  refine h.change ht hs hk hcpu (fun k j hc hj => ?_) hused htab
  obtain ⟨hl, -, o, ho, hot, himg⟩ := h.slot k j hc hj
  exact ⟨hne j hl, o, hne o ho, ho, hot, himg⟩

lemma CpuInv.leave (h : CpuInv c t) (hi : t.slice k = some i) : CpuInv c (leave t k i) := by
  have hslice : ∀ l j, (VibeOS.leave t k i).slice l = some j → l ≠ k ∧ t.slice l = some j := by
    intro l j hj
    change Function.update t.slice k none l = some j at hj
    by_cases hl : l = k
    · subst hl
      rw [update_self] at hj
      cases hj
    · rw [update_of_ne hl] at hj
      exact ⟨hl, hj⟩
  have hother : ∀ j, j ≠ i → (VibeOS.leave t k i).procs j = t.procs j := fun j hj =>
    update_of_ne hj _ _
  have hself : (VibeOS.leave t k i).procs i = { t.procs i with runningOnCpu := none } :=
    update_self _ _ _
  have hsame : ∀ j, SameImage (t.procs j) ((VibeOS.leave t k i).procs j) :=
    rel_update .refl rfl (by constructor <;> rfl)
  have hstate : ∀ j, ((VibeOS.leave t k i).procs j).state = (t.procs j).state :=
    rel_update (R := fun p q => q.state = p.state) (fun _ => rfl) rfl (by rfl)
  refine ⟨fun l j m hj hm => h.cur l j m (hslice l j hj).2 hm, fun l m j hl hm =>
    h.uniq l m j (hslice l j hl).2 (hslice m j hm).2, fun l j hj => ?_, fun l j hc hj => ?_,
    fun l j hc hj => ?_, fun j hj => ?_, fun j hj => ?_⟩
  · have hji : j ≠ i := by
      rintro rfl
      rw [hself] at hj
      cases hj
    rw [hother j hji] at hj
    have hlj := h.only l j hj
    have hlk : l ≠ k := by
      rintro rfl
      exact hji (Option.some.inj (hlj.symm.trans hi))
    exact (update_of_ne hlk _ _).trans hlj
  · obtain ⟨hlk, hlj⟩ := hslice l j hj
    obtain ⟨hl, hr, hho⟩ := h.slot l j hc hlj
    have hji : j ≠ i := by
      rintro rfl
      exact hlk (h.uniq l k j hlj hi)
    exact ⟨(hsame j).loaded.trans hl, by rw [hother j hji]; exact hr, hho.of_sameImage hsame⟩
  · rw [hstate]
    refine h.state l j hc ?_
    rw [ProcessTable.runs] at hj ⊢
    rcases hsl : (VibeOS.leave t k i).slice l with _ | m
    · rw [hsl] at hj
      cases hj
    · rw [hsl] at hj
      rw [(hslice l m hsl).2]
      exact hj
  · rw [(hsame j).loaded]
    exact h.used j (hstate j ▸ hj)
  · rw [(hsame j).tables]
    exact h.tables j ((hsame j).loaded ▸ hj)

lemma CpuInv.housed (h : CpuInv c t) (hsp : SpaceInv t) (hl : (t.procs i).loaded = true)
    (hx : (t.procs i).state ≠ .exited) : Housed t i := by
  by_cases hti : (t.procs i).isThread = true
  · rcases (hsp.slots i).thread hl hti hx with hnone | ⟨o, -, -, ho, himg, -⟩
    · exact absurd hnone.1 (h.tables i hl)
    · exact ⟨o, ho.loaded, ho.owns, himg⟩
  · exact ⟨i, hl, by simpa using hti, rfl⟩

lemma CpuInv.seat (h : CpuInv none t) (hk : t.slice k = none)
    (hfree : ∀ l j, t.slice l = some j → j ≠ i) (hl : (t.procs i).loaded = true) (hhouse : Housed t i)
    (ht : t'.procs = Function.update t.procs i p) (hs : t'.slice = Function.update t.slice k (some i))
    (hc : t'.current = Function.update t.current k (some i))
    (hp : SameImage (t.procs i) p) (h5 : p.runningOnCpu = some k) (h6 : p.state = .running) : CpuInv none t' := by
  have hself : t'.procs i = p := by
    rw [ht, update_self]
  have hother : ∀ j, j ≠ i → t'.procs j = t.procs j := fun j hj => by
    rw [ht, update_of_ne hj]
  have hsame : ∀ j, SameImage (t.procs j) (t'.procs j) :=
    rel_update .refl ht hp
  have hset : ∀ {f f' : Nat → Option ProcSlot}, f' = Function.update f k (some i) →
      ∀ l j, f' l = some j → l = k ∧ j = i ∨ l ≠ k ∧ f l = some j := by
    rintro f _ rfl l j hj
    by_cases hlk : l = k
    · subst hlk
      rw [update_self] at hj
      exact .inl ⟨rfl, (Option.some.inj hj).symm⟩
    · rw [update_of_ne hlk] at hj
      exact .inr ⟨hlk, hj⟩
  have hcur := hset hc
  have hslice : ∀ l j, t'.slice l = some j → l = k ∧ j = i ∨ l ≠ k ∧ j ≠ i ∧ t.slice l = some j :=
    fun l j hj => (hset hs l j hj).imp_right fun h => ⟨h.1, hfree l j h.2, h.2⟩
  have hcurrent : CurrentOk t' := by
    intro l j m hj hm
    rcases hslice l j hj with ⟨rfl, rfl⟩ | ⟨hlk, -, hj'⟩
    · rcases hcur l m hm with ⟨-, rfl⟩ | ⟨hlk, -⟩
      · rfl
      · exact absurd rfl hlk
    · rcases hcur l m hm with ⟨hlk', -⟩ | ⟨-, hm'⟩
      · exact absurd hlk' hlk
      · exact h.cur l j m hj' hm'
  refine ⟨hcurrent, fun l m j hj hm => ?_, fun l j hj => ?_, fun l j hcl hj => ?_,
    fun l j hcl hj => ?_, fun j hj => ?_, fun j hj => ?_⟩
  · rcases hslice l j hj with ⟨rfl, rfl⟩ | ⟨-, hji, hj'⟩
    · rcases hslice m j hm with ⟨rfl, -⟩ | ⟨-, hji, -⟩
      · rfl
      · exact absurd rfl hji
    · rcases hslice m j hm with ⟨-, hji'⟩ | ⟨-, -, hm'⟩
      · exact absurd hji' hji
      · exact h.uniq l m j hj' hm'
  · rw [hs]
    by_cases hji : j = i
    · subst hji
      rw [hself, h5] at hj
      cases hj
      exact update_self _ _ _
    · rw [hother j hji] at hj
      have hlj := h.only l j hj
      have hlk : l ≠ k := by
        rintro rfl
        rw [hk] at hlj
        cases hlj
      rw [update_of_ne hlk]
      exact hlj
  · rcases hslice l j hj with ⟨rfl, rfl⟩ | ⟨-, hji, hj'⟩
    · exact ⟨(hsame j).loaded.trans hl, by rw [hself]; exact h5, hhouse.of_sameImage hsame⟩
    · obtain ⟨hlj, hrj, hho⟩ := h.slot l j hcl hj'
      exact ⟨(hsame j).loaded.trans hlj, by rw [hother j hji]; exact hrj, hho.of_sameImage hsame⟩
  · have hsl := hcurrent.slice hj
    rcases hslice l j hsl with ⟨rfl, rfl⟩ | ⟨hlk, hji, hj'⟩
    · rw [hself]
      exact .inl h6
    · rw [hother j hji]
      refine h.state l j hcl ?_
      rw [ProcessTable.runs, hsl] at hj
      rw [ProcessTable.runs, hj']
      rcases hcur l j hj with ⟨hlk', -⟩ | ⟨-, hm⟩
      · exact absurd hlk' hlk
      · exact hm
  · rw [(hsame j).loaded]
    by_cases hji : j = i
    · rw [hji]
      exact hl
    · rw [hother j hji] at hj
      exact h.used j hj
  · rw [(hsame j).tables]
    exact h.tables j ((hsame j).loaded ▸ hj)

lemma CpuInv.drop (h : CpuInv c t) (k : Nat) : CpuInv c (t.setCurrent k none) := by
  have hcur : ∀ l m, (t.setCurrent k none).current l = some m → t.current l = some m := by
    intro l m hm
    change Function.update t.current k none l = some m at hm
    by_cases hl : l = k
    · subst hl
      rw [update_self] at hm
      cases hm
    · rw [update_of_ne hl] at hm
      exact hm
  refine ⟨fun l j m hj hm => h.cur l j m hj (hcur l m hm), h.uniq, h.only, h.slot,
    fun l j hcl hj => h.state l j hcl ?_, h.used, h.tables⟩
  rw [ProcessTable.runs] at hj ⊢
  have hslice : (t.setCurrent k none).slice l = t.slice l := rfl
  rw [hslice] at hj
  rcases hm : t.slice l with _ | m
  · rw [hm] at hj
    cases hj
  · rw [hm] at hj
    exact hcur l j hj

lemma InUse.of_sameSeat (hp : ∀ j, SameSeat (t.procs j) (t'.procs j)) {r : ProcSlot}
    (h : InUse c t' r) : InUse c t r := by
  obtain ⟨j, h1, h2, h3⟩ := h
  rw [(hp j).cpu] at h1 h2
  rw [(hp r).isThread, (hp j).image, (hp r).image] at h3
  exact ⟨j, h1, h2, h3⟩

lemma InUse.any {r : ProcSlot} (h : InUse c t r) : InUse none t r := by
  obtain ⟨j, h1, -, h3⟩ := h
  exact ⟨j, h1, h1, h3⟩

lemma CpuInv.dispatch (h : CpuInv none t) (hsp : SpaceInv t) (hk : t.slice k = none) :
    CpuInv none (startSlice t k) := by
  rw [startSlice]
  split
  · exact h
  · rename_i i hpick
    obtain ⟨hcpu, hstate⟩ := pickNextReady_spec hpick
    have hne : (t.procs i).state ≠ .empty ∧ (t.procs i).state ≠ .exited := by
      rcases hstate with hr | ⟨hr, -⟩ <;> rw [hr] <;> simp
    have hl := h.used i hne.1
    have hhouse := h.housed hsp hl hne.2
    -- the process is in no slice
    have hfree : ∀ l j, t.slice l = some j → j ≠ i := by
      rintro l j hj rfl
      rw [(h.slot l j (by simp) hj).2.1] at hcpu
      cases hcpu
    refine CpuInv.seat h hk hfree hl hhouse (p := { t.procs i with
      state := .running, runningOnCpu := some k, kresume := false }) rfl rfl rfl (by constructor <;> rfl) rfl rfl

lemma CpuInv.move (hm : Move unusedHeld c t t') (h : CpuInv c t) : CpuInv c t' := by
  cases hm with
  | @mark i code hs hi =>
    have hl : (t.procs i).loaded = true := by
      rcases hi with hl | ⟨cpu, ha⟩
      · exact hl
      · exact ha.acts.1
    exact h.update (i := i) rfl ⟨rfl, rfl, rfl, rfl, rfl, .inl hl, fun _ => .inr rfl⟩ rfl rfl
  | @answer j i hx hw hp =>
    have hsame : ∀ k, SameSeat (t.procs k) ((answerWaiter t j i).procs k) :=
      sameSeat_update rfl ⟨rfl, rfl, rfl, rfl, rfl, .inl hw.loaded, by simp [hw.state]⟩
    exact (h.congr hsame rfl rfl).reap fun hu => hp (hu.of_sameSeat hsame)
  | @collect cpu i j pid ha hj hp =>
    have hsame : ∀ k, SameSeat (t.procs k) (({ t with
      waited := t.waited ++ [((t.procs i).pid, (t.procs j).pid, (t.procs j).exitCode)]
      targets := t.targets ++ [pid] } : ProcessTable).procs k) := fun k => SameSeat.refl _
    exact (h.congr hsame rfl rfl).reap fun hu => hp (hu.of_sameSeat hsame)
  | reclaim hl hx hp => exact h.reap fun hu => hp hu.any
  | drop cpu => exact h.drop cpu
  | leave hs => exact h.leave hs
  | block hc ha =>
    subst hc
    exact h.caller ha.runs ha.acts.1 (by constructor <;> rfl) rfl
  | dispatch hc hsp hs =>
    subst hc
    exact h.dispatch hsp hs
  | deschedule hc ha state frame hs =>
    subst hc
    exact h.caller ha.runs ha.acts.1 (by constructor <;> rfl) rfl
  | wait hc ha frame hp =>
    subst hc
    exact h.caller ha.runs ha.acts.1 (by constructor <;> rfl) rfl
  | preempt hc hr hp frame =>
    subst hc
    exact h.caller hr hp.1 (by constructor <;> rfl) rfl
  | wakeReady due =>
    refine h.congr (fun j => ?_) rfl rfl
    change SameSeat _ (if _ then _ else _)
    split_ifs with hs
    · exact ⟨rfl, rfl, rfl, rfl, rfl, .inr (by simp [hs.1]), by simp [hs.1]⟩
    · exact SameSeat.refl _
  | @wakeTty i n hs =>
    exact h.update (i := i) rfl ⟨rfl, rfl, rfl, rfl, rfl, .inr (by simp [hs]), by simp [hs]⟩ rfl rfl
  | @noMemory slot hfree fds parentPid =>
    refine h.fill hfree rfl rfl rfl (.inr rfl) (h.used slot) fun hl => ?_
    exact absurd hl (by simp [hfree])
  | spawn hfree hn ha uid =>
    refine h.fill hfree (procs_fillImage _ _ _ _) rfl rfl ?_ ?_ ?_ <;> rw [procs_fillImage_self]
    · exact .inl rfl
    · exact fun _ => rfl
    · exact fun _ => by simp
  | spawnPath hfree hn ops object uid =>
    refine h.fill hfree (procs_fillImage _ _ _ _) rfl rfl ?_ ?_ ?_ <;> rw [procs_fillImage_self]
    · exact .inl rfl
    · exact fun _ => rfl
    · exact fun _ => by simp
  | thread hfree hn ha =>
    refine h.fill hfree (procs_fillThread _ _) rfl rfl ?_ ?_ ?_ <;> rw [procs_fillThread_self]
    · exact .inl rfl
    · exact fun _ => rfl
    · exact fun _ => h.tables _ ha.acts.1
  | @adopt slot j i hi hl hr hp hz hj =>
    exact h.update (i := j) rfl (.of_eq rfl rfl rfl rfl rfl rfl) rfl rfl
  | ptyOpen ha hf => exact h.housekeeping (housekeeping_fds _ _)
  | openFile ha out => exact h.housekeeping (housekeeping_open _ out)
  | closeFd ha hp => exact h.housekeeping (housekeeping_closeFd _ _)
  | moveOffset ha fd offset => exact h.housekeeping (housekeeping_moveOffset _ fd offset)
  | sbrk ha chunks => exact h.housekeeping (housekeeping_sbrk _ chunks)
  | setuid i uid => exact h.housekeeping (housekeeping_setuid i uid)
  | desktopUid uid => exact h.housekeeping (housekeeping_desktopUid uid)

lemma CpuInv.obeys (h : CpuInv none t) (e : KernelEvent) (he : e.Obeys unused t) : e.Obeys unusedHeld t := by
  have hacts : ∀ k i, t.runs k = some i → unusedHeld.acts (t.procs i) := fun k i hr =>
    ⟨(h.slot k i (by simp) (h.cur.slice hr)).1, h.state k i (by simp) hr⟩
  cases e with
  | syscall cpu frame call =>
    intro i hi
    have hcall := he i hi
    by_cases hx : (t.procs i).state = .exited
    · rw [if_pos hx] at hcall ⊢
      exact hcall
    · rw [if_neg hx] at hcall ⊢
      refine ⟨hacts cpu i hi, ?_⟩
      cases call <;> exact hcall.2
  | fault cpu smashed =>
    intro i hi hx
    obtain ⟨hsm, -, hrest⟩ := he i hi hx
    refine ⟨hsm, ?_, hrest⟩
    -- a process that runs is not waiting, so the check has not touched it
    rw [canaryCheck_procs hsm (by rw [((hacts cpu i hi).2.resolve_right hx)]; simp)]
    exact hacts cpu i hi
  | preempt cpu frame => exact fun i hi => ⟨hacts cpu i hi, (he i hi).2⟩
  | orphanCall cpu => exact he
  | spawnDesktop ops object uid found out => exact he
  | killDesktop cpu pid => exact he
  | startSlice cpu smashed => exact he
  | wakeReady due => trivial
  | wakeTty pid n => trivial

lemma CpuInv.step (hs : Steady t) (h : CpuInv none t) (e : KernelEvent) (he : e.Obeys unused t) :
    CpuInv none (t.step e) := by
  obtain ⟨c, hmoves, hend⟩ := step_moves hs e (h.obeys e he)
  have hstart : CpuInv c t := ⟨h.cur, h.uniq, h.only, fun k i _ => h.slot k i (by simp),
    fun k i _ => h.state k i (by simp), h.used, h.tables⟩
  have hdone := hmoves.invariant (fun hm ht => CpuInv.move hm ht) hstart
  -- the CPU that left has no slice any more
  have hne : ∀ k i, (t.step e).slice k = some i → c ≠ some k := by
    intro k i hk hc
    rw [hend k hc] at hk
    cases hk
  exact ⟨hdone.cur, hdone.uniq, hdone.only, fun k i _ hk => hdone.slot k i (hne k i hk) hk,
    fun k i _ hk => hdone.state k i (hne k i (hdone.cur.slice hk)) hk, hdone.used, hdone.tables⟩

end seat

/-! ### Whole runs -/

/-- No slot runs on two CPUs; the slot of a running process is loaded, and neither its image nor a heap chunk
of its address space has been freed; a slot that is `READY` or `RUNNING` is loaded. -/
def SlotsOk (t : ProcessTable) : Prop :=
  (∀ k l i, t.slice k = some i → t.slice l = some i → k = l) ∧
  (∀ k i, t.slice k = some i → (t.procs i).loaded = true ∧ ∃ o, (t.procs o).Owner o ∧
    (t.procs o).userImage = (t.procs i).userImage ∧ ∀ a ∈ (t.procs o).held, a ∉ t.freed) ∧
  ∀ i, (t.procs i).state = .ready ∨ (t.procs i).state = .running → (t.procs i).loaded = true

/-- While a slice goes on, its slot keeps its tenant; a tenant keeps its `cr3`; and a tick saves the registers
into the slot of the process that it interrupts, while it may answer the wait of another one. -/
def KernelEvent.SlotLaw (t : ProcessTable) (e : KernelEvent) : Prop :=
  (∀ k i, t.slice k = some i → (t.step e).slice k = some i →
    (∀ c, e.created t ≠ some (c, i)) ∧ ((t.step e).procs i).pid = (t.procs i).pid) ∧
  (∀ j, ((t.step e).procs j).loaded = true → (∀ c, e.created t ≠ some (c, j)) →
    ((t.step e).procs j).cr3 = (t.procs j).cr3) ∧
  ∀ k frame, e = .preempt k frame → ∀ j, t.slice k ≠ some j → ((t.step e).procs j).context = (t.procs j).context ∨
    (t.procs j).state = .waiting ∧ ((t.step e).procs j).context.rest = (t.procs j).context.rest

section law

variable {t : ProcessTable} {i j : ProcSlot} {k : Nat}

lemma Orphans.held_not_freed {dying : Option ProcSlot} (h : Orphans dying t) (o : ProcSlot) {a : Nat}
    (ha : a ∈ (t.procs o).held) : a ∉ t.freed := by
  intro hf
  have h0 := h.allocs a
  have h1 := List.count_pos_iff.mpr hf
  have h2 := List.count_pos_iff.mpr ha
  have hle := Finset.single_le_sum (f := fun j => (t.procs j).held.count a)
    (fun _ _ => Nat.zero_le _) (Finset.mem_univ o)
  split_ifs at h0 <;> omega

lemma CpuInv.slotsOk (hs : Steady t) (h : CpuInv none t) : SlotsOk t := by
  refine ⟨h.uniq, fun k i hk => ?_, fun i hi => h.used i ?_⟩
  · obtain ⟨hl, -, o, ho, hot, himg⟩ := h.slot k i (by simp) hk
    exact ⟨hl, o, (hs.space.slots o).owner ho hot, himg, fun a ha => hs.space.held_not_freed o ha⟩
  · rcases hi with hi | hi <;> rw [hi] <;> simp

lemma spawnNamed_created {found : Bool} {out : LoadOutcome}
    (h : (processSpawnNamedFromParent t i found out).1 = some j) : ∃ t', processFindFreeSlot t = some (j, t') := by
  unfold processSpawnNamedFromParent at h
  rcases hf : processFindFreeSlot t with _ | ⟨slot, t'⟩
  · rw [hf] at h
    cases h
  · rw [hf] at h
    dsimp only at h
    split_ifs at h <;> cases h <;> exact ⟨t', rfl⟩

lemma created_search (e : KernelEvent) {p : Option ProcSlot} (hc : e.created t = some (p, j))
    (he : e.Obeys unused t) : SearchOk unused t ∧ ∃ t', processFindFreeSlot t = some (j, t') := by
  cases e with
  | syscall cpu frame call =>
    rw [KernelEvent.created] at hc
    rcases hr : t.runs cpu with _ | i
    · rw [hr] at hc
      cases hc
    · rw [hr] at hc
      dsimp only at hc
      have hcall := he i hr
      split_ifs at hc hcall with hx
      obtain ⟨l, hl, heq⟩ := Option.map_eq_some_iff.mp hc
      cases heq
      cases call with
      | spawn found out => exact ⟨hcall.2, spawnNamed_created hl⟩
      | threadCreate argsOk =>
        obtain ⟨hok, hf, -⟩ := createThread_created hl
        exact ⟨hcall.2 hok, hf⟩
      | spawnPty fd found out =>
        rw [Syscall.created] at hl
        split at hl
        · obtain ⟨hok, hf, -⟩ := spawnPath_created hl
          exact ⟨hcall.2 hok, hf⟩
        · cases hl
      | _ => cases hl
  | spawnDesktop ops object uid found out =>
    obtain ⟨l, hl, heq⟩ := Option.map_eq_some_iff.mp hc
    cases heq
    obtain ⟨hok, hf, -⟩ := spawnPath_created hl
    exact ⟨he hok, hf⟩
  | _ => cases hc

lemma CpuInv.not_created (hs : Steady t) (h : CpuInv none t) (e : KernelEvent) (he : e.Obeys unused t)
    (hk : t.slice k = some i) (p : Option ProcSlot) : e.created t ≠ some (p, i) := by
  intro hc
  obtain ⟨hsearch, t', hf⟩ := created_search e hc he
  obtain ⟨hl, hcpu, -⟩ := h.slot k i (by simp) hk
  rcases findFreeSlot_cases hf with ⟨hfree | hempty, -⟩ | ⟨-, hx, -⟩
  · rw [hl] at hfree
    cases hfree
  · exact hs.nonempty i hl hempty
  · refine hsearch.2 _ hf hl hx ⟨i, ?_, ?_, .inl rfl⟩ <;> rw [hcpu] <;> simp

lemma returnToScheduler_context (t : ProcessTable) (k : Nat) (hj : t.slice k ≠ some j) :
    ((returnToScheduler t k).procs j).context = (t.procs j).context ∨ (t.procs j).state = .waiting ∧
      ((returnToScheduler t k).procs j).context.rest = (t.procs j).context.rest := by
  rw [returnToScheduler]
  split
  · exact .inl rfl
  · rename_i i hi
    have hji : j ≠ i := by
      rintro rfl
      exact hj hi
    have hleave : (leave (t.setCurrent k none) k i).procs j = t.procs j := update_of_ne hji _ _
    rw [endSlice_eq]
    split_ifs
    · rcases wakeWaiter_cases (leave (t.setCurrent k none) k i) i with heq | ⟨l, hw, heq⟩
      · rw [heq, hleave]
        exact .inl rfl
      · rw [heq, procs_processReap_of_ne hji]
        by_cases hjl : j = l
        · subst hjl
          rw [procs_answerWaiter_self, hleave]
          exact .inr ⟨hleave ▸ hw.state, rfl⟩
        · rw [procs_answerWaiter_of_ne hjl, hleave]
          exact .inl rfl
    · rw [hleave]
      exact .inl rfl

lemma slotLaw (hs : Steady t) (h : CpuInv none t) (e : KernelEvent) (he : e.Obeys unused t) : e.SlotLaw t := by
  refine ⟨fun k i hk hk' => ?_, fun j hl hne => (step_stays e hne hl).2.2.1, ?_⟩
  · have hne := h.not_created hs e he hk
    obtain ⟨hl, -⟩ := (CpuInv.step hs h e he).slot k i (by simp) hk'
    exact ⟨hne, (step_stays e hne hl).2.1⟩
  · rintro k frame rfl j hj
    rw [step]
    split
    · rename_i i hr
      have hji : j ≠ i := by
        rintro rfl
        exact hj (h.cur.slice hr)
      have hproc := procs_modify_of_ne t (fun p => { p with
        context := frame, state := if p.state = .exited then .exited else .ready }) hji
      have hctx := returnToScheduler_context (t.modify i fun p => { p with
        context := frame, state := if p.state = .exited then .exited else .ready }) k hj
      rw [hproc] at hctx
      exact hctx
    · exact .inl rfl

lemma cpuInv_init (uids : ProcSlot → Nat) : CpuInv none (processInit uids) where
  cur _ _ _ hs := by cases hs
  uniq _ _ _ hs := by cases hs
  only _ _ hs := by cases hs
  slot _ _ _ hs := by cases hs
  state _ _ _ hs := by cases hs
  used _ hi := absurd rfl hi
  tables _ hi := by cases hi

/-- In every interleaving on any number of CPUs in which nothing is reaped that another CPU uses, slots of
running processes are not recycled. -/
theorem run_slots (uids : ProcSlot → Nat) (events : List KernelEvent)
    (h : Along step (fun t e => e.Obeys unused t) (processInit uids) events) :
    SlotsOk (run step (processInit uids) events) ∧ Along step (fun t e => e.SlotLaw t) (processInit uids) events := by
  obtain ⟨hs, hinv⟩ := run_policy (I := CpuInv none) (fun t e hs ht he => CpuInv.step hs ht e he) (cpuInv_init uids) h
  refine ⟨hinv.slotsOk hs, ?_⟩
  exact Along.mono_invariant (I := fun t => Steady t ∧ CpuInv none t)
    (fun t e ht he => ⟨ht.1.step e he, CpuInv.step ht.1 ht.2 e he⟩)
    (fun t e ht he => slotLaw ht.1 ht.2 e he) ⟨steady_init uids, cpuInv_init uids⟩ h

end law

instance InUse.instDecidable (c : Option Nat) (t : ProcessTable) (r : ProcSlot) : Decidable (InUse c t r) :=
  inferInstanceAs (Decidable (∃ _, _ ∧ _ ∧ (_ ∨ _ ∧ _)))

instance unused.instDecidableHandOver (c : Option Nat) (t : ProcessTable) (r : ProcSlot) :
    Decidable (unused.handOver c t r) :=
  inferInstanceAs (Decidable (¬ InUse c t r))

instance Waits.instDecidable (t : ProcessTable) (j i : ProcSlot) : Decidable (Waits t j i) :=
  decidable_of_iff ((t.procs j).loaded = true ∧ (t.procs j).pid = (t.procs i).parentPid ∧
    (t.procs i).parentPid ≠ 0 ∧ (t.procs j).state = .waiting ∧
    ((t.procs j).waitTargetPid = 0 ∨ (t.procs j).waitTargetPid = (t.procs i).pid))
    ⟨fun h => ⟨h.1, h.2.1, h.2.2.1, h.2.2.2.1, h.2.2.2.2⟩, fun h => ⟨h.1, h.2, h.3, h.4, h.5⟩⟩

instance WakeOk.instDecidable (c : Option Nat) (t : ProcessTable) (i : ProcSlot) : Decidable (WakeOk unused c t i) :=
  inferInstanceAs (Decidable (∀ _, _ → _))

instance Victim.instDecidable (t : ProcessTable) (o i : ProcSlot) : Decidable (Victim t o i) :=
  inferInstanceAs (Decidable (_ ∧ _ ∧ _ ∧ _ ∧ _))

instance DieOk.instDecidable (c : Option Nat) (cpu : Nat) (t : ProcessTable) (i : ProcSlot)
    (code : Int) : Decidable (DieOk unused c cpu t i code) :=
  inferInstanceAs (Decidable ((_ → Along _ _ _ _) ∧ _))

/-- A process kills its child while that runs on another CPU, and a tick ends the child's slice. -/
def killRunningRun : List KernelEvent :=
  [.spawnDesktop .tty 1 0 true .ok, .startSlice 0 intact, .syscall 0 ⟨0, 0, 0⟩ (.spawn true .ok), .startSlice 1 intact,
    .syscall 0 ⟨0, 0, 0⟩ (.kill 2), .preempt 1 ⟨0, 0, 5⟩]

set_option maxRecDepth 8192 in
theorem run_slots_kill : Along step (fun t e => e.Obeys unused t) (processInit fun _ => 0) killRunningRun ∧
      SlotsOk (run step (processInit fun _ => 0) killRunningRun) := by
  have h : Along step (fun t e => e.Obeys unused t) (processInit fun _ => 0)
      killRunningRun := by
    refine ⟨fun _ => searchOk_of_state trivial (by decide), fun _ => canaryOk_none _ _ _ _, fun i hi => ?_,
      fun _ => canaryOk_none _ _ _ _, fun i hi => ?_, fun i hi => ?_, trivial⟩
    · obtain rfl : i = 0 := by
        revert i
        decide
      exact ⟨trivial, searchOk_of_state trivial (by decide)⟩
    · obtain rfl : i = 0 := by
        revert i
        decide
      refine ⟨trivial, ?_⟩
      intro j hj hx
      revert j
      decide
    · obtain rfl : i = 1 := by
        revert i
        decide
      refine ⟨trivial, fun j hj _ => ?_⟩
      revert j
      decide
  exact ⟨h, (run_slots _ _ h).1⟩

/-- A parent waits for its child, the child runs on CPU 1, and on CPU 0 a third process kills it. -/
def recycleRun : List KernelEvent :=
  [.spawnDesktop .tty 1 0 true .ok, .startSlice 0 intact, .syscall 0 ⟨0, 0, 0⟩ (.spawn true .ok),
    .spawnDesktop .tty 1 0 true .ok, .startSlice 1 intact, .syscall 0 ⟨0, 0, 0⟩ (.waitpid 2), .startSlice 0 intact,
    .syscall 0 ⟨0, 0, 0⟩ (.kill 2)]

set_option maxRecDepth 8192 in
/-- After `recycleRun` a CPU is in a slice of a slot that was reaped under it. -/
theorem slots_fail : ¬ SlotsOk (run step (processInit fun _ => 0) recycleRun) := by
  intro h
  have hl := (h.2.1 1 1 (by decide)).1
  revert hl
  decide

end VibeOS
