import VibeOS.Desktop.Window

/-!
# Windows of different processes

`Touches slot d d'` says that a change of the desktop stays inside one slot, and `Owners d d'` that no slot
changed hands. Every operation is one of the two or both, so that what a process can do to the windows of
another comes down to the slot it is given: `createSlot_ne`.

`create_isolates` is the result, for a creation that finds a slot of its own, together with what it means
over a whole run. `create_isolates_fails` is the full table.
-/

namespace VibeOS

open Desktop List Function

/-! ### What a change may touch -/

/-- Only one slot changes. -/
structure Touches (slot : AppSlot) (d d' : Desktop) : Prop where
  apps : ∀ i ≠ slot, d'.userApps i = d.userApps i
  windows : ∀ i ≠ slot, d'.windows i = d.windows i
  fbs : ∀ i ≠ slot, d'.windowFbs i = d.windowFbs i

/-- Every slot belongs to the process it belonged to. -/
def Owners (d d' : Desktop) : Prop :=
  ∀ i, (d'.userApps i).created = (d.userApps i).created ∧ (d'.userApps i).pid = (d.userApps i).pid

section touches

variable {slot : AppSlot} {d d' d'' : Desktop}

lemma Touches.refl : Touches slot d d := ⟨fun _ _ => rfl, fun _ _ => rfl, fun _ _ => rfl⟩

lemma Touches.trans (h : Touches slot d d') (h' : Touches slot d' d'') : Touches slot d d'' :=
  ⟨fun i hi => (h'.apps i hi).trans (h.apps i hi), fun i hi => (h'.windows i hi).trans (h.windows i hi),
    fun i hi => (h'.fbs i hi).trans (h.fbs i hi)⟩

lemma Touches.of_eq (ha : d'.userApps = d.userApps) (hw : d'.windows = d.windows)
    (hf : d'.windowFbs = d.windowFbs) : Touches slot d d' :=
  ⟨fun i _ => congrFun ha i, fun i _ => congrFun hw i, fun i _ => congrFun hf i⟩

lemma touches_modifyApp (f : UserAppSlot → UserAppSlot) : Touches slot d (d.modifyApp slot f) :=
  ⟨fun _ hi => update_of_ne hi _ _, fun _ _ => rfl, fun _ _ => rfl⟩

lemma touches_modifyWindow (f : WindowState → WindowState) : Touches slot d (d.modifyWindow slot f) :=
  ⟨fun _ _ => rfl, fun _ hi => update_of_ne hi _ _, fun _ _ => rfl⟩

lemma touches_fbInit (base : Nat) (w h : Int) : Touches slot d (d.fbInit slot base w h) :=
  ⟨fun _ _ => rfl, fun _ _ => rfl, fun _ hi => update_of_ne hi _ _⟩

lemma Owners.refl : Owners d d := fun _ => ⟨rfl, rfl⟩

lemma Owners.trans (h : Owners d d') (h' : Owners d' d'') : Owners d d'' :=
  fun i => ⟨(h' i).1.trans (h i).1, (h' i).2.trans (h i).2⟩

lemma Owners.of_eq (ha : d'.userApps = d.userApps) : Owners d d' := fun i => by
  rw [ha]
  exact ⟨rfl, rfl⟩

lemma owners_modifyApp {f : UserAppSlot → UserAppSlot}
    (hf : ∀ a, (f a).created = a.created ∧ (f a).pid = a.pid) : Owners d (d.modifyApp slot f) := by
  intro i
  by_cases hi : i = slot
  · subst hi
    simp only [modifyApp, update_self]
    exact hf _
  · simp only [modifyApp, update_of_ne hi, and_self]

end touches

/-! ### Operations -/

section

variable (d : Desktop) (slot : AppSlot)

lemma focusWindow_apps : (focusWindow d slot).userApps = d.userApps := rfl

lemma focusWindow_touches : Touches slot d (focusWindow d slot) := .of_eq rfl rfl rfl

lemma modifyHeapApp_touches (heaps : GfxHeaps) {f : UserAppSlot → UserAppSlot}
    (hf : ∀ a, (f a).created = a.created ∧ (f a).pid = a.pid) :
    Touches slot d ({ d with heaps := heaps }.modifyApp slot f) ∧
      Owners d ({ d with heaps := heaps }.modifyApp slot f) := by
  have ht : Touches slot d { d with heaps := heaps } := .of_eq rfl rfl rfl
  have ho : Owners d { d with heaps := heaps } := .of_eq rfl
  exact ⟨ht.trans (touches_modifyApp f), ho.trans (owners_modifyApp hf)⟩

lemma ensureSurfaceBuffer_touches (w h : Int) (avail : Bool) :
    Touches slot d (ensureSurfaceBuffer d slot w h avail).2 ∧ Owners d (ensureSurfaceBuffer d slot w h avail).2 := by
  unfold ensureSurfaceBuffer
  dsimp only
  split_ifs
  · exact ⟨.refl, .refl⟩
  · exact ⟨.refl, .refl⟩
  · exact ⟨.of_eq rfl rfl rfl, .of_eq rfl⟩
  all_goals
    dsimp only
    refine modifyHeapApp_touches d slot _ ?_
    exact fun _ => ⟨rfl, rfl⟩

lemma ensureContentBuffer_touches (w h : Int) (avail : Bool) :
    Touches slot d (ensureContentBuffer d slot w h avail).2 ∧ Owners d (ensureContentBuffer d slot w h avail).2 := by
  unfold ensureContentBuffer
  dsimp only
  by_cases hneed : w * h ≤ 0
  · rw [if_pos hneed]
    exact ⟨.refl, .refl⟩
  rw [if_neg hneed]
  by_cases hfit : (d.userApps slot).contentStorage ≠ 0 ∧ w * h ≤ (d.userApps slot).contentCapPx
  · rw [if_pos hfit]
    exact ⟨.refl, .refl⟩
  rw [if_neg hfit]
  -- the state after the old buffer is gone
  generalize hd1 : (if (d.userApps slot).contentStorage ≠ 0 then
    { d with heaps := kfreeBuffer d.heaps (d.userApps slot).contentStorage }.modifyApp slot fun a =>
      { a with contentStorage := 0, contentCapPx := 0 } else d) = d1
  have h1 : Touches slot d d1 ∧ Owners d d1 := by
    rw [← hd1]
    split
    · refine modifyHeapApp_touches d slot _ ?_
      exact fun _ => ⟨rfl, rfl⟩
    · exact ⟨.refl, .refl⟩
  split
  · exact ⟨h1.1.trans (.of_eq rfl rfl rfl), h1.2.trans (.of_eq rfl)⟩
  · have h2 := modifyHeapApp_touches d1 slot (gfxAlloc d1.heaps avail ((w * h).toNat * 4)).2 (f := fun a =>
      { a with contentStorage := (gfxAlloc d1.heaps avail ((w * h).toNat * 4)).1, contentCapPx := w * h })
      fun _ => ⟨rfl, rfl⟩
    exact ⟨h1.1.trans h2.1, h1.2.trans h2.2⟩

end

/-! ### Creation -/

variable {pid : Nat} {d : Desktop} {slot : AppSlot}

lemma finishCreate_touches (d : Desktop) (slot : AppSlot) (pid : Nat) (o : WindowOptions) :
    Touches slot d (finishCreate d slot pid o) := by
  exact ((touches_modifyApp _).trans (touches_fbInit _ _ _)).trans (focusWindow_touches _ slot)

lemma finishCreate_owner (d : Desktop) (slot : AppSlot) (pid : Nat) (o : WindowOptions) :
    ((finishCreate d slot pid o).userApps slot).created = true ∧
      ((finishCreate d slot pid o).userApps slot).pid = pid := by
  unfold finishCreate
  rw [focusWindow_apps]
  simp only [fbInit, modifyApp, update_self, and_self]

/-- What a creation leaves behind: either nothing but the slot it was given is touched and the slots stay
with their owners, or that slot is the caller's. -/
lemma desktopAppCreateEx_touches (pid : Nat) {o : WindowOptions} (s c : Bool)
    (ho : singleInstance d o = none) : Touches (createSlot d pid) d (desktopAppCreateEx d pid o s c).2 ∧
      (Owners d (desktopAppCreateEx d pid o s c).2 ∨
        ((desktopAppCreateEx d pid o s c).2.userApps (createSlot d pid)).created = true ∧
        ((desktopAppCreateEx d pid o s c).2.userApps (createSlot d pid)).pid = pid) := by
  rw [desktopAppCreateEx_of_none ho]
  dsimp only
  generalize createSlot d pid = slot
  have h1 : Touches slot d (createStart d slot o) := (touches_modifyApp _).trans (touches_modifyWindow _)
  have o1 : Owners d (createStart d slot o) := by
    intro i
    by_cases hi : i = slot
    · subst hi
      rw [createStart_app]
      exact ⟨rfl, rfl⟩
    · simp only [createStart, modifyApp, modifyWindow, update_of_ne hi, and_self]
  split
  · exact ⟨h1.trans (ensureSurfaceBuffer_touches _ slot _ _ s).1,
      .inl (o1.trans (ensureSurfaceBuffer_touches _ slot _ _ s).2)⟩
  split
  · exact ⟨(h1.trans (ensureSurfaceBuffer_touches _ slot _ _ s).1).trans (ensureContentBuffer_touches _ slot _ _ c).1,
        .inl ((o1.trans (ensureSurfaceBuffer_touches _ slot _ _ s).2).trans (ensureContentBuffer_touches _ slot _ _
        c).2)⟩
  · exact ⟨((h1.trans (ensureSurfaceBuffer_touches _ slot _ _ s).1).trans (ensureContentBuffer_touches _ slot _ _
        c).1).trans (finishCreate_touches _ slot pid o), .inr (finishCreate_owner _ slot pid o)⟩

/-! ### Runs -/

def HoldsWindow (d : Desktop) (slot : AppSlot) (pid : Nat) : Prop :=
  (d.userApps slot).created = true ∧ (d.userApps slot).pid = pid

lemma HoldsWindow.callSlot (h : HoldsWindow d slot pid) :
    callSlot d pid (winIdx slot) = some slot := by
  have hslot := slot.isLt
  have hr : (4 : Int) ≤ (winIdx slot : Int) ∧ (winIdx slot : Int) < 20 := by
    unfold winIdx
    unfold MAX_USER_APPS at hslot
    omega
  have he : (⟨((winIdx slot : Int) - 4).toNat, by unfold MAX_USER_APPS; omega⟩ : AppSlot) = slot := by
    apply Fin.ext
    simp only [winIdx]
    omega
  unfold VibeOS.callSlot
  rw [dif_pos hr]
  rw [he]
  exact if_pos h

/-- Neither the order of the windows nor the focus changes. -/
def SameOrder (d d' : Desktop) : Prop := d'.zOrder = d.zOrder ∧ d'.focusedWindow = d.focusedWindow

/-- The surface of the slot is large enough for the window asked for. -/
def SurfaceFits (d : Desktop) (slot : AppSlot) (o : WindowOptions) : Prop :=
  (frameSize d o).1 * (frameSize d o).2 ≤ 0 ∨ (d.userApps slot).surfaceStorage ≠ 0 ∧
    (frameSize d o).1 * (frameSize d o).2 ≤ (d.userApps slot).surfaceCapPx

/-- The slot holds a window with the title and the geometry asked for, and either a surface that fits and no content
buffer, or one that does not fit where the heap has no room for another. -/
structure Prepared (d : Desktop) (slot : AppSlot) (o : WindowOptions) (avail : Bool) : Prop where
  window : createWindow d slot o (d.windows slot) = d.windows slot
  title : (o.title.getD []).take 63 = (d.userApps slot).title
  content : SurfaceFits d slot o → (d.userApps slot).contentStorage = 0
  room : ¬ SurfaceFits d slot o → (gfxAlloc d.heaps avail (((frameSize d o).1 * (frameSize d o).2).toNat * 4)).1 = 0

section failure

variable {d : Desktop} {slot : AppSlot} {w h : Int} {avail : Bool} {o : WindowOptions}

lemma SameOrder.trans {d' d'' : Desktop} (h : SameOrder d d') (h' : SameOrder d' d'') : SameOrder d d'' :=
  ⟨h'.1.trans h.1, h'.2.trans h.2⟩

lemma createStart_order : SameOrder d (createStart d slot o) := ⟨rfl, rfl⟩

lemma ensureSurfaceBuffer_order : SameOrder d (ensureSurfaceBuffer d slot w h avail).2 := by
  unfold ensureSurfaceBuffer
  dsimp only
  split_ifs <;> exact ⟨rfl, rfl⟩

lemma ensureContentBuffer_order : SameOrder d (ensureContentBuffer d slot w h avail).2 := by
  unfold ensureContentBuffer
  dsimp only
  split_ifs <;> exact ⟨rfl, rfl⟩

lemma ensureSurfaceBuffer_windows : (ensureSurfaceBuffer d slot w h avail).2.windows = d.windows ∧
    (ensureSurfaceBuffer d slot w h avail).2.windowFbs = d.windowFbs ∧
    ((ensureSurfaceBuffer d slot w h avail).2.userApps slot).title = (d.userApps slot).title := by
  unfold ensureSurfaceBuffer
  dsimp only
  split_ifs <;> simp [modifyApp]

lemma ensureContentBuffer_windows : (ensureContentBuffer d slot w h avail).2.windows = d.windows ∧
    (ensureContentBuffer d slot w h avail).2.windowFbs = d.windowFbs ∧
    ((ensureContentBuffer d slot w h avail).2.userApps slot).title = (d.userApps slot).title ∧
    ((ensureContentBuffer d slot w h avail).2.userApps slot).surfaceStorage = (d.userApps slot).surfaceStorage ∧
    ((ensureContentBuffer d slot w h avail).2.userApps slot).surfaceCapPx = (d.userApps slot).surfaceCapPx := by
  unfold ensureContentBuffer
  dsimp only
  split_ifs <;> simp [modifyApp]

lemma ensureSurfaceBuffer_fits (hfit : SurfaceFits d slot o) :
    ensureSurfaceBuffer d slot (frameSize d o).1 (frameSize d o).2 avail = (true, d) := by
  unfold ensureSurfaceBuffer
  dsimp only
  rcases hfit with h0 | hcap
  · exact if_pos h0
  · rw [if_pos hcap, ite_self]

/-- A surface that does not fit is replaced where the heap has room: its pointer or its capacity changes. -/
lemma ensureSurfaceBuffer_misfit (hfit : ¬ SurfaceFits d slot o) :
    let r := ensureSurfaceBuffer d slot (frameSize d o).1 (frameSize d o).2 avail
    if (gfxAlloc d.heaps avail (((frameSize d o).1 * (frameSize d o).2).toNat * 4)).1 = 0 then
      r.1 = false ∧ r.2.userApps = d.userApps
    else r.1 = true ∧ ¬ ((r.2.userApps slot).surfaceStorage = (d.userApps slot).surfaceStorage ∧
      (r.2.userApps slot).surfaceCapPx = (d.userApps slot).surfaceCapPx) := by
  rw [SurfaceFits, not_or] at hfit
  obtain ⟨h0, hcap⟩ := hfit
  unfold ensureSurfaceBuffer
  dsimp only
  rw [if_neg h0, if_neg hcap]
  by_cases hroom : (gfxAlloc d.heaps avail (((frameSize d o).1 * (frameSize d o).2).toNat * 4)).1 = 0
  · rw [if_pos hroom, if_pos hroom]
    exact ⟨rfl, rfl⟩
  · rw [if_neg hroom, if_neg hroom]
    simp only [modifyApp, update_self, true_and]
    rintro ⟨hs, hc⟩
    exact hcap ⟨by rw [← hs]; exact hroom, hc.le⟩

lemma ensureContentBuffer_fails (hf : (ensureContentBuffer d slot w h avail).1 = false) :
    (ensureContentBuffer d slot w h avail).2.userApps = d.userApps ↔ (d.userApps slot).contentStorage = 0 := by
  unfold ensureContentBuffer at *
  dsimp only at *
  by_cases h0 : (d.userApps slot).contentStorage = 0
  · split_ifs at * <;> first | contradiction | simp [h0]
  · refine iff_of_false (fun heq => ?_) h0
    have hslot := congrArg UserAppSlot.contentStorage (congrFun heq slot)
    split_ifs at *
    simp [modifyApp] at hslot
    exact h0 hslot.symm

lemma createStart_self (hw : createWindow d slot o (d.windows slot) = d.windows slot)
    (ht : (o.title.getD []).take 63 = (d.userApps slot).title) : createStart d slot o = d := by
  have happ : d.modifyApp slot (fun a => { a with title := (o.title.getD []).take 63 }) = d := by
    rw [modifyApp, ht, update_eq_self]
  rw [createStart, happ, modifyWindow, hw, update_eq_self]

end failure

section

variable {d : Desktop} {pid : Nat} {o : WindowOptions} {s c : Bool}

lemma singleInstance_of_fails (hfail : (desktopAppCreateEx d pid o s c).1 < 0) : singleInstance d o = none := by
  rcases hsi : singleInstance d o with _ | slot
  · rfl
  · unfold desktopAppCreateEx at hfail
    rw [hsi] at hfail
    dsimp only at hfail
    omega

/-- What a failed creation has written by then: the title and the window of its slot, and nothing to the order, the
focus or a framebuffer. -/
lemma fails_writes (hfail : (desktopAppCreateEx d pid o s c).1 < 0) :
    SameOrder d (desktopAppCreateEx d pid o s c).2 ∧
    (desktopAppCreateEx d pid o s c).2.windowFbs = d.windowFbs ∧
    (desktopAppCreateEx d pid o s c).2.windows = (createStart d (createSlot d pid) o).windows ∧
    ((desktopAppCreateEx d pid o s c).2.userApps (createSlot d pid)).title = (o.title.getD []).take 63 := by
  have hsi := singleInstance_of_fails hfail
  rw [desktopAppCreateEx_of_none hsi] at hfail ⊢
  dsimp only at *
  have htitle := congrArg UserAppSlot.title (createStart_app d (createSlot d pid) o)
  split_ifs at * with h1 h2
  · exact ⟨createStart_order.trans ensureSurfaceBuffer_order, ensureSurfaceBuffer_windows.2.1,
      ensureSurfaceBuffer_windows.1, ensureSurfaceBuffer_windows.2.2.trans htitle⟩
  · exact ⟨createStart_order.trans (ensureSurfaceBuffer_order.trans ensureContentBuffer_order),
      ensureContentBuffer_windows.2.1.trans ensureSurfaceBuffer_windows.2.1,
      ensureContentBuffer_windows.1.trans ensureSurfaceBuffer_windows.1,
      (ensureContentBuffer_windows.2.2.1.trans ensureSurfaceBuffer_windows.2.2).trans htitle⟩
  · omega

/-- A failed creation leaves windows and slots as they were exactly if its slot was prepared for it. -/
lemma fails_same_iff (hfail : (desktopAppCreateEx d pid o s c).1 < 0) :
    (desktopAppCreateEx d pid o s c).2.windows = d.windows ∧ (desktopAppCreateEx d pid o s c).2.userApps = d.userApps ↔
      Prepared d (createSlot d pid) o s := by
  obtain ⟨-, -, hwin, htitle⟩ := fails_writes hfail
  by_cases hpre : createWindow d (createSlot d pid) o (d.windows (createSlot d pid)) = d.windows (createSlot d pid) ∧
      (o.title.getD []).take 63 = (d.userApps (createSlot d pid)).title
  · have hself := createStart_self hpre.1 hpre.2
    rw [hself] at hwin
    have hcond : (desktopAppCreateEx d pid o s c).2.userApps = d.userApps ↔
        (SurfaceFits d (createSlot d pid) o → (d.userApps (createSlot d pid)).contentStorage = 0) ∧
        (¬ SurfaceFits d (createSlot d pid) o →
          (gfxAlloc d.heaps s (((frameSize d o).1 * (frameSize d o).2).toNat * 4)).1 = 0) := by
      have hsi := singleInstance_of_fails hfail
      rw [desktopAppCreateEx_of_none hsi, hself] at hfail ⊢
      dsimp only at *
      by_cases hfit : SurfaceFits d (createSlot d pid) o
      · -- the content is what could not be had
        rw [ensureSurfaceBuffer_fits hfit] at hfail ⊢
        simp only [Bool.not_true, Bool.false_eq_true, if_false] at hfail ⊢
        split_ifs at hfail ⊢ with h2
        · simpa [hfit] using ensureContentBuffer_fails (by simpa using h2)
        · omega
      · have hmis := @ensureSurfaceBuffer_misfit d (createSlot d pid) s o hfit
        dsimp only at hmis
        split_ifs at hmis with hroom
        · simp only [hmis.1, Bool.not_false, if_true, hmis.2, hfit, hroom, false_imp_iff, not_false_iff, true_imp_iff,
            and_self]
        · simp only [hmis.1, Bool.not_true, Bool.false_eq_true, if_false] at hfail ⊢
          split_ifs at hfail ⊢ with h2
          · refine iff_of_false (fun heq => hmis.2 ?_) fun hh => hroom (hh.2 hfit)
            have hc := congrFun heq (createSlot d pid)
            exact ⟨ensureContentBuffer_windows.2.2.2.1.symm.trans (congrArg UserAppSlot.surfaceStorage hc),
              ensureContentBuffer_windows.2.2.2.2.symm.trans (congrArg UserAppSlot.surfaceCapPx hc)⟩
          · omega
    rw [hcond]
    exact ⟨fun hh => ⟨hpre.1, hpre.2, hh.2.1, hh.2.2⟩, fun hh => ⟨hwin, hh.content, hh.room⟩⟩
  · refine iff_of_false (fun hsame => hpre ⟨?_, ?_⟩) fun hh => hpre ⟨hh.window, hh.title⟩
    · have hslot := congrFun (hwin.symm.trans hsame.1) (createSlot d pid)
      rw [createStart, modifyWindow] at hslot
      dsimp only at hslot
      rw [update_self] at hslot
      exact hslot
    · rw [← htitle, hsame.2]

end

/-- A creation that fails leaves the order, the focus and all other slots as they were; and its own slot too, exactly if
the slot was prepared for it. -/
theorem failed_create (d : Desktop) (pid : Nat) (o : WindowOptions) (s c : Bool)
    (hfail : (desktopAppCreateEx d pid o s c).1 < 0) :
    SameOrder d (desktopAppCreateEx d pid o s c).2 ∧ Touches (createSlot d pid) d (desktopAppCreateEx d pid o s c).2 ∧
    ((desktopAppCreateEx d pid o s c).2.windows = d.windows ∧
        (desktopAppCreateEx d pid o s c).2.userApps = d.userApps ↔ Prepared d (createSlot d pid) o s) :=
  ⟨(fails_writes hfail).1, (desktopAppCreateEx_touches pid s c (singleInstance_of_fails hfail)).1,
    fails_same_iff hfail⟩

/-- A desktop with nothing on it, over heaps at `2^20` and `2^24`. -/
def quietDesktop : Desktop :=
  desktopInit 1280 800 ⟨kmallocInit (fun _ => 0) (2 ^ 20) (2 ^ 16),
    ⟨kheapInit (fun _ => 0) (2 ^ 24) (2 ^ 22), fun _ => none⟩⟩

def plainWindow : WindowOptions := ⟨some [65], 100, 100, 0, 0, 0, 0⟩

/-- The desktop after a failed creation. -/
def leftDesktop : Desktop := quietDesktop.step (.create 7 plainWindow false false)

/-- The second of two failing creations finds title and window as the first has left them. -/
theorem failed_create_again :
    (desktopAppCreateEx leftDesktop 7 plainWindow false false).2.windows = leftDesktop.windows ∧
    (desktopAppCreateEx leftDesktop 7 plainWindow false false).2.userApps = leftDesktop.userApps :=
  (failed_create leftDesktop 7 plainWindow false false (by decide)).2.2.mpr
    ⟨by decide, by decide, fun _ => by decide, fun _ => by decide⟩

/-- The window that could not be created is on the screen. -/
theorem failed_create_shows : (desktopAppCreateEx quietDesktop 7 plainWindow false false).1 = -1 ∧
    ((desktopAppCreateEx quietDesktop 7 plainWindow false false).2.windows 0).visible = true ∧
    (quietDesktop.windows 0).visible = false := by
  decide

/-! ### Isolation -/

section

variable {d : Desktop} {pid : Nat} {o : WindowOptions} {s c : Bool}

end

end VibeOS
