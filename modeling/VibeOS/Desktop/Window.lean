import VibeOS.Kernel.HeapRun
import VibeOS.Lib.CInt

/-!
# Windows of user processes

The part of `window.c` that owns the windows of user processes: sixteen slots with a surface and a content
buffer from the graphics heap, the window's geometry and the framebuffer that the renderer draws through.
The built-in windows have buffers of their own and only appear in the order of the windows. What is dirty
on the screen is left out, and so are the pixels.

Whether an allocation may succeed is part of the event: `gfx_alloc` can fail at any point.

Other names are those of `kernel/src/window.c`.
-/

namespace VibeOS

/-! ### Records -/

abbrev MAX_USER_APPS : Nat := 16

/-- A position in `user_apps`. -/
abbrev AppSlot := Fin MAX_USER_APPS

/-- The index of a slot's window, `WINDOW_APP_FIRST + slot`. -/
def winIdx (slot : AppSlot) : Nat := 4 + slot.val

def WINSYS_MAX_WIDTH : Int := 2048
def WINSYS_MAX_HEIGHT : Int := 1200
def WINSYS_WINDOW_FRAMELESS : UInt32 := 0x01
def WINSYS_WINDOW_NO_DOCK : UInt32 := 0x02
def WINSYS_WINDOW_POSITIONED : UInt32 := 0x04
def WINSYS_WINDOW_ALWAYS_ON_TOP : UInt32 := 0x08
def WINSYS_WINDOW_ASPECT_RATIO : UInt32 := 0x40
def WINSYS_WINDOW_SINGLE_INSTANCE : UInt32 := 0x80
def WINSYS_EVENT_RESIZE : UInt32 := 9

/-- Source: `kernel/include/winsys.h` `struct winsys_event` -/
structure WinsysEvent where
  type : UInt32
  x : Int
  y : Int
  buttons : UInt32
  key : UInt32
deriving DecidableEq

/-- Source: `kernel/include/winsys.h` `struct winsys_window_options` -/
structure WindowOptions where
  title : Option (List UInt8)
  width : Int
  height : Int
  flags : UInt32
  x : Int
  y : Int
  shadowInsetTop : Int

/-- Null pointers are `0`.
Source: `kernel/include/window.h` `struct user_app_slot` -/
structure UserAppSlot where
  surfaceStorage : Nat
  contentStorage : Nat
  surfaceCapPx : Int
  contentCapPx : Int
  contentWidth : Int
  contentHeight : Int
  dataWidth : Int
  created : Bool
  pid : Nat
  events : Fin 32 → WinsysEvent
  eventHead : Fin 32
  eventTail : Fin 32
  title : List UInt8
  menuCount : Nat

/-- Source: `kernel/include/window.h` `struct window_state` -/
structure WindowState where
  title : List UInt8
  x : Int
  y : Int
  width : Int
  height : Int
  flags : UInt32
  visible : Bool
  maximized : Bool
  shadowInsetTop : Int
  restoreX : Int
  restoreY : Int
  restoreWidth : Int
  restoreHeight : Int
deriving DecidableEq

/-- The pitch is always four bytes times the width.
Source: `kernel/include/framebuffer.h` `struct framebuffer` -/
structure Framebuffer where
  base : Nat
  width : Nat
  height : Nat
deriving DecidableEq

/-- The main heap, and the graphics heap with its live allocations. -/
structure GfxHeaps where
  main : KmallocHeap
  gfx : HeapRun Kheap

/-- The edges of a window that the mouse drags. -/
structure ResizeEdges where
  left : Bool
  right : Bool
  top : Bool
  bottom : Bool

/-- The window that is being resized, and where the drag began.
Source: `kernel/include/window.h` `struct desktop_state` -/
structure ResizeStart where
  window : AppSlot
  edges : ResizeEdges
  mouseX : Int
  mouseY : Int
  x : Int
  y : Int
  width : Int
  height : Int

/-- Source: `kernel/include/window.h` `struct desktop_state` -/
structure Desktop where
  screenWidth : Int
  screenHeight : Int
  userApps : AppSlot → UserAppSlot
  windows : AppSlot → WindowState
  windowFbs : AppSlot → Framebuffer
  zOrder : List Nat
  focusedWindow : Int
  menuTargetWindow : Int
  contextMenuOpen : Bool
  resizeStart : Option ResizeStart
  heaps : GfxHeaps

namespace Desktop

def modifyApp (d : Desktop) (slot : AppSlot) (f : UserAppSlot → UserAppSlot) : Desktop :=
  { d with userApps := Function.update d.userApps slot (f (d.userApps slot)) }

def modifyWindow (d : Desktop) (slot : AppSlot) (f : WindowState → WindowState) : Desktop :=
  { d with windows := Function.update d.windows slot (f (d.windows slot)) }

/-- Install a framebuffer; `fb_init` takes the sizes as unsigned numbers.
Source: `kernel/src/render.c` -/
def fbInit (d : Desktop) (slot : AppSlot) (base : Nat) (width height : Int) : Desktop :=
  let fb : Framebuffer := ⟨base, (width % 2 ^ 32).toNat, (height % 2 ^ 32).toNat⟩
  { d with windowFbs := Function.update d.windowFbs slot fb }

end Desktop

open Desktop
open Function (update update_self)

/-! ### Sizes of the interface -/

def largeUi (d : Desktop) : Bool := d.screenWidth ≥ 1920 || d.screenHeight ≥ 1080

def uiTitlebarHeight (d : Desktop) : Int := if largeUi d then 28 else 24

def uiTaskbarHeight (d : Desktop) : Int := if largeUi d then 88 else 72

def uiLeftWorkAreaInset : Int := 12

def windowFrameless (w : WindowState) : Bool := w.flags &&& WINSYS_WINDOW_FRAMELESS ≠ 0

/-! ### Slots -/

def findSlotByPid (d : Desktop) (pid : Nat) : Option AppSlot :=
  (List.finRange MAX_USER_APPS).find? fun i => (d.userApps i).created && (d.userApps i).pid == pid

/-- With all slots taken this is slot 0. -/
def findFreeSlot (d : Desktop) : AppSlot :=
  ((List.finRange MAX_USER_APPS).find? fun i => !(d.userApps i).created).getD ⟨0, by decide⟩

/-- A full queue drops the event. -/
def appEnqueueEventSlot (d : Desktop) (slot : AppSlot) (e : WinsysEvent) : Desktop :=
  let a := d.userApps slot
  if a.eventTail + 1 = a.eventHead then d
  else d.modifyApp slot fun a => { a with
    events := update a.events a.eventTail e, eventTail := a.eventTail + 1 }

/-! ### Order -/

lemma userApp_lt {i : Nat} (h : 4 ≤ i ∧ i < 20) : i - 4 < MAX_USER_APPS := by
  unfold MAX_USER_APPS
  omega

/-- What `focus_window` reads and writes of `struct desktop_state`; `flags i` is `windows[i].flags`. -/
structure WindowOrder where
  flags : Nat → UInt32
  zOrder : List Nat
  focusedWindow : Int
  menuTargetWindow : Int

namespace WindowOrder

def alwaysOnTop (o : WindowOrder) (index : Nat) : Bool := o.flags index &&& WINSYS_WINDOW_ALWAYS_ON_TOP ≠ 0

/-- The ordinary windows first, then those always on top, each in its old order.
Source: `normalize_z_order` -/
def normalize (o : WindowOrder) : WindowOrder :=
  let next := (o.zOrder.filter fun index => index < 20 && !o.alwaysOnTop index) ++
    o.zOrder.filter fun index => index < 20 && o.alwaysOnTop index
  { o with zOrder := next ++ o.zOrder.drop next.length }

/-- The window becomes the last of its class; a framed or docked one also gets the menu.
Source: `focus_window` -/
def focus (o : WindowOrder) (index : Int) : WindowOrder :=
  if index < 0 ∨ index ≥ 20 then { o with focusedWindow := -1 }
  else
    let i := index.toNat
    let o := { o with focusedWindow := index, menuTargetWindow :=
      if (o.flags i &&& WINSYS_WINDOW_NO_DOCK ≠ 0) && (o.flags i &&& WINSYS_WINDOW_FRAMELESS ≠ 0) then
        o.menuTargetWindow
      else index }
    if i ∈ o.zOrder then normalize { o with zOrder := o.zOrder.erase i ++ [i] } else o

end WindowOrder

/-- The built-in windows have no flags. -/
def Desktop.order (d : Desktop) : WindowOrder where
  flags i := if h : 4 ≤ i ∧ i < 20 then (d.windows ⟨i - 4, userApp_lt h⟩).flags else 0
  zOrder := d.zOrder
  focusedWindow := d.focusedWindow
  menuTargetWindow := d.menuTargetWindow

/-- The window of a user program is focused as every window is. -/
def focusWindow (d : Desktop) (slot : AppSlot) : Desktop :=
  let o := d.order.focus (winIdx slot)
  { d with zOrder := o.zOrder, focusedWindow := o.focusedWindow, menuTargetWindow := o.menuTargetWindow }

/-! ### Buffers -/

/-- `avail` says whether the heap has room to give.
Source: `kernel/src/alloc.c` -/
def gfxAlloc (h : GfxHeaps) (avail : Bool) (n : Nat) : Nat × GfxHeaps :=
  if !avail then (0, h)
  else
    match kheapAlloc h.gfx.heap n with
    | none => (0, h)
    | some (p, g) =>
      (p, { h with gfx := ⟨g, if p = 0 then h.gfx.live else update h.gfx.live p (some n)⟩ })

/-- Source: `kernel/src/alloc.c` -/
def gfxFree (h : GfxHeaps) (p : Nat) : GfxHeaps :=
  match kheapFree h.gfx.heap p with
  | none => h
  | some g => { h with gfx := ⟨g, update h.gfx.live p none⟩ }

/-- `kfree` of a window buffer: the pointer belongs to the other heap.
Source: `kernel/src/alloc.c` `kfree` -/
def kfreeBuffer (h : GfxHeaps) (p : Nat) : GfxHeaps :=
  match kfree h.main p with
  | none => h
  | some k => { h with main := k }

def ensureSurfaceBuffer (d : Desktop) (slot : AppSlot) (w h : Int) (avail : Bool) : Bool × Desktop :=
  let a := d.userApps slot
  let need := w * h
  if need ≤ 0 then (true, d)
  else if a.surfaceStorage ≠ 0 ∧ need ≤ a.surfaceCapPx then (true, d)
  else
    let r := gfxAlloc d.heaps avail (need.toNat * 4)
    if r.1 = 0 then (false, { d with heaps := r.2 })
    else
      let heaps := if a.surfaceStorage ≠ 0 then kfreeBuffer r.2 a.surfaceStorage else r.2
      (true, { d with heaps := heaps }.modifyApp slot fun a =>
        { a with surfaceStorage := r.1, surfaceCapPx := need })

/-- The old buffer goes first. -/
def ensureContentBuffer (d : Desktop) (slot : AppSlot) (w h : Int) (avail : Bool) : Bool × Desktop :=
  let a := d.userApps slot
  let need := w * h
  if need ≤ 0 then (true, d)
  else if a.contentStorage ≠ 0 ∧ need ≤ a.contentCapPx then (true, d)
  else
    let d := if a.contentStorage ≠ 0 then
      { d with heaps := kfreeBuffer d.heaps a.contentStorage }.modifyApp slot fun a =>
        { a with contentStorage := 0, contentCapPx := 0 }
      else d
    let r := gfxAlloc d.heaps avail (need.toNat * 4)
    if r.1 = 0 then (false, { d with heaps := r.2 })
    else
      (true, { d with heaps := r.2 }.modifyApp slot fun a =>
        { a with contentStorage := r.1, contentCapPx := need })

def surfaceStorageForWindow (d : Desktop) (slot : AppSlot) (avail : Bool) : Nat × Desktop :=
  let w := d.windows slot
  let d := if (d.userApps slot).created then (ensureSurfaceBuffer d slot w.width w.height avail).2 else d
  ((d.userApps slot).surfaceStorage, d)

def appContentSizeForWindow (d : Desktop) (w : WindowState) : Int × Int :=
  if windowFrameless w then (w.width, w.height)
  else (max 1 (w.width - 4), max 1 (w.height - (uiTitlebarHeight d + 4)))

def appWindowMaxSize (d : Desktop) : Int × Int :=
  (min (WINSYS_MAX_WIDTH + 4) (WINSYS_MAX_WIDTH + 64),
    min (WINSYS_MAX_HEIGHT + uiTitlebarHeight d + 4) (WINSYS_MAX_HEIGHT + 96))

def contentSize (d : Desktop) (slot : AppSlot) : Int × Int :=
  let r := appContentSizeForWindow d (d.windows slot)
  (min r.1 WINSYS_MAX_WIDTH, min r.2 WINSYS_MAX_HEIGHT)

def updateAppContentSizeSlot (d : Desktop) (slot : AppSlot) (avail : Bool) : Desktop :=
  let (cw, ch) := contentSize d slot
  let a := d.userApps slot
  if a.contentWidth ≠ cw ∨ a.contentHeight ≠ ch then
    let d := (ensureContentBuffer d slot cw ch avail).2
    let d := d.modifyApp slot fun a => { a with contentWidth := cw, contentHeight := ch }
    appEnqueueEventSlot d slot ⟨WINSYS_EVENT_RESIZE, cw, ch, 0, 0⟩
  else d

/-! ### Creation -/

/-- The size of the content that a request asks for. -/
def createSize (o : WindowOptions) : Int × Int :=
  let frameless := o.flags &&& WINSYS_WINDOW_FRAMELESS ≠ 0
  let width := max 16 o.width
  let height := max 16 o.height
  let width := if frameless then width else max 80 width
  let height := if frameless then height else max 60 height
  (min width WINSYS_MAX_WIDTH, min height WINSYS_MAX_HEIGHT)

def frameSize (d : Desktop) (o : WindowOptions) : Int × Int :=
  let (width, height) := createSize o
  if o.flags &&& WINSYS_WINDOW_FRAMELESS ≠ 0 then (width, height)
  else (width + 4, height + uiTitlebarHeight d + 4)

def ontoScreen (pos extent screen : Int) : Int := min (max pos 0) (max (screen - extent) 0)

def createWindow (d : Desktop) (slot : AppSlot) (o : WindowOptions) (w : WindowState) : WindowState :=
  let (frameW, frameH) := frameSize d o
  let positioned := o.flags &&& WINSYS_WINDOW_POSITIONED ≠ 0
  let x := if positioned then o.x else
    max (d.screenWidth.tdiv 2 - frameW.tdiv 2 + slot.val * 24) (uiLeftWorkAreaInset + 16)
  let y := if positioned then o.y else
    max (d.screenHeight.tdiv 2 - frameH.tdiv 2 + slot.val * 24) 16
  { w with
    title := ((o.title.getD []).take 63)
    width := frameW
    height := frameH
    flags := o.flags
    x := ontoScreen x frameW d.screenWidth
    y := ontoScreen y frameH d.screenHeight
    visible := true
    maximized := false
    shadowInsetTop := if o.shadowInsetTop > 0 ∧ o.shadowInsetTop < 255 then o.shadowInsetTop else 0 }

/-- The slot with the same title, for a window that must be the only one. -/
def singleInstance (d : Desktop) (o : WindowOptions) : Option AppSlot :=
  match o.title with
  | none => none
  | some title =>
    if o.flags &&& WINSYS_WINDOW_SINGLE_INSTANCE ≠ 0 then
      (List.finRange MAX_USER_APPS).find? fun i =>
        (d.userApps i).created && !(d.userApps i).title.isEmpty && (d.userApps i).title == title
    else none

/-- The slot that a new window of the process gets. -/
def createSlot (d : Desktop) (pid : Nat) : AppSlot := (findSlotByPid d pid).getD (findFreeSlot d)

/-- Fill in the slot of a new window, once its buffers are there. -/
def finishCreate (d : Desktop) (slot : AppSlot) (pid : Nat) (o : WindowOptions) : Desktop :=
  let d := d.modifyApp slot fun a => { a with
    created := true, pid := pid, contentWidth := (createSize o).1, contentHeight := (createSize o).2
    dataWidth := 0, eventHead := 0, eventTail := 0, menuCount := 0 }
  let w := d.windows slot
  focusWindow (d.fbInit slot (d.userApps slot).surfaceStorage w.width w.height) slot

def desktopAppCreateEx (d : Desktop) (pid : Nat) (o : WindowOptions) (surfaceAvail contentAvail : Bool) :
    Int × Desktop :=
  match singleInstance d o with
  | some slot =>
    (winIdx slot, focusWindow { d.modifyWindow slot fun w => { w with visible := true } with
      contextMenuOpen := false } slot)
  | none =>
    let slot := createSlot d pid
    let d := d.modifyApp slot fun a => { a with title := (o.title.getD []).take 63 }
    let d := d.modifyWindow slot (createWindow d slot o)
    let s := ensureSurfaceBuffer d slot (frameSize d o).1 (frameSize d o).2 surfaceAvail
    if !s.1 then (-1, s.2)
    else
      let c := ensureContentBuffer s.2 slot (createSize o).1 (createSize o).2 contentAvail
      if !c.1 then (-1, c.2)
      else (winIdx slot, finishCreate c.2 slot pid o)

/-- The desktop when the buffers of a new window are asked for: its title and its geometry are written. -/
def createStart (d : Desktop) (slot : AppSlot) (o : WindowOptions) : Desktop :=
  (d.modifyApp slot fun a => { a with title := (o.title.getD []).take 63 }).modifyWindow slot
    (createWindow (d.modifyApp slot fun a => { a with title := (o.title.getD []).take 63 }) slot o)

lemma desktopAppCreateEx_of_none {d : Desktop} {o : WindowOptions} (ho : singleInstance d o = none) (pid : Nat)
    (s c : Bool) :
    desktopAppCreateEx d pid o s c =
      (let r := ensureSurfaceBuffer (createStart d (createSlot d pid) o) (createSlot d pid) (frameSize d o).1
        (frameSize d o).2 s
      if !r.1 then ((-1 : Int), r.2)
      else
        let t := ensureContentBuffer r.2 (createSlot d pid) (createSize o).1 (createSize o).2 c
        if !t.1 then ((-1 : Int), t.2)
        else ((winIdx (createSlot d pid) : Int), finishCreate t.2 (createSlot d pid) pid o)) := by
  unfold desktopAppCreateEx
  rw [ho]
  rfl

lemma createStart_app (d : Desktop) (slot : AppSlot) (o : WindowOptions) :
    (createStart d slot o).userApps slot = { d.userApps slot with title := (o.title.getD []).take 63 } :=
  update_self _ _ _

/-! ### Closing -/

def desktopAppCloseForPid (d : Desktop) (pid : Nat) : Desktop :=
  match findSlotByPid d pid with
  | none => d
  | some slot =>
    let a := d.userApps slot
    let d := d.modifyWindow slot fun w => { w with visible := false }
    let heaps := if a.surfaceStorage ≠ 0 then gfxFree d.heaps a.surfaceStorage else d.heaps
    let heaps := if a.contentStorage ≠ 0 then gfxFree heaps a.contentStorage else heaps
    let d := { d with
      heaps := heaps
      windowFbs := update d.windowFbs slot { d.windowFbs slot with base := 0 }
      focusedWindow := if d.focusedWindow = winIdx slot then -1 else d.focusedWindow
      menuTargetWindow := if d.menuTargetWindow = winIdx slot then -1 else d.menuTargetWindow }
    d.modifyApp slot fun a => { a with
      surfaceStorage := 0, surfaceCapPx := if a.surfaceStorage ≠ 0 then 0 else a.surfaceCapPx
      contentStorage := 0, contentCapPx := if a.contentStorage ≠ 0 then 0 else a.contentCapPx
      created := false, pid := 0, contentWidth := 0, contentHeight := 0, dataWidth := 0
      eventHead := 0, eventTail := 0, menuCount := 0 }

/-! ### Geometry -/

def clampWindowToScreen (d : Desktop) (w : WindowState) : WindowState :=
  let x := max w.x 6
  let y := max w.y 8
  { w with
    x := if x + w.width > d.screenWidth - 16 then d.screenWidth - w.width - 16 else x
    y := if y + w.height > d.screenHeight - uiTaskbarHeight d then
      d.screenHeight - w.height - uiTaskbarHeight d else y }

/-- The geometry after a click on the maximize button. -/
def toggledWindow (d : Desktop) (w : WindowState) : WindowState :=
  clampWindowToScreen d <|
    if !w.maximized then
      let availw := d.screenWidth - uiLeftWorkAreaInset - 24
      let availh := d.screenHeight - uiTaskbarHeight d - 24
      { w with
        restoreX := w.x, restoreY := w.y, restoreWidth := w.width, restoreHeight := w.height
        width := min (appWindowMaxSize d).1 availw
        height := min (appWindowMaxSize d).2 availh
        x := uiLeftWorkAreaInset + 12
        y := 12
        maximized := true }
    else
      { w with
        x := w.restoreX, y := w.restoreY, width := w.restoreWidth, height := w.restoreHeight
        maximized := false }

/-- Give a window its new geometry: the framebuffer is set up again over what the slot has, whether its
surface could grow or not.
Source: `window_toggle_maximize`, `apply_window_resize` -/
def applyGeometry (d : Desktop) (slot : AppSlot) (w : WindowState) (surfaceAvail contentAvail : Bool) : Desktop :=
  let d := d.modifyWindow slot fun _ => w
  let r := surfaceStorageForWindow d slot surfaceAvail
  let d := r.2.fbInit slot r.1 w.width w.height
  if (d.userApps slot).created then updateAppContentSizeSlot d slot contentAvail else d

def windowToggleMaximize (d : Desktop) (slot : AppSlot) (surfaceAvail contentAvail : Bool) : Desktop :=
  applyGeometry d slot (toggledWindow d (d.windows slot)) surfaceAvail contentAvail

/-- A drag of a window's edges: where it started, and how far the mouse went. -/
structure ResizeDrag extends ResizeEdges where
  startX : Int
  startY : Int
  startWidth : Int
  startHeight : Int
  dx : Int
  dy : Int

/-- The drag that a position of the mouse makes of its start. -/
def ResizeStart.drag (s : ResizeStart) (mouseX mouseY : Int) : ResizeDrag :=
  ⟨s.edges, s.x, s.y, s.width, s.height, mouseX - s.mouseX, mouseY - s.mouseY⟩

/-- Position and size of a window while it is resized. -/
structure DragGeometry where
  x : Int
  y : Int
  width : Int
  height : Int
deriving DecidableEq

/-- A resize that keeps the ratio of the sides.
Source: `apply_window_resize` -/
def resizeKeepingRatio (d : Desktop) (r : ResizeDrag) : DragGeometry :=
  let w0 := r.startWidth
  let h0 := r.startHeight
  let minW : Int := if largeUi d then 180 else 140
  let minH : Int := if largeUi d then 140 else 110
  let (maxW, maxH) := appWindowMaxSize d
  let taskbarY := d.screenHeight - uiTaskbarHeight d
  let effMinW := max minW ((minH * w0 + h0 - 1).tdiv h0)
  let effMinH := max minH ((minW * h0 + w0 - 1).tdiv w0)
  let effMaxW := min maxW ((maxH * w0).tdiv h0)
  let effMaxH := min maxH ((maxW * h0).tdiv w0)
  -- what the screen leaves in the directions of the drag
  let limW := if r.left then min effMaxW (r.startX + w0 - (uiLeftWorkAreaInset + 6)) else effMaxW
  let limW := if r.right then min limW (d.screenWidth - 8 - r.startX) else limW
  let limH := if r.top then min effMaxH (r.startY + h0 - 8) else effMaxH
  let limH := if r.bottom then min limH (taskbarY - 4 - r.startY) else limH
  let limW := min limW ((limH * w0).tdiv h0)
  let limH := min limH ((limW * h0).tdiv w0)
  let limW := max limW effMinW
  let limH := max limH effMinH
  let wProposal := if r.left then w0 - r.dx else if r.right then w0 + r.dx else w0
  let hProposal := if r.top then h0 - r.dy else if r.bottom then h0 + r.dy else h0
  let hasH := r.left || r.right
  let hasV := r.top || r.bottom
  let useW := if hasH && hasV then decide (|r.dx| * h0 > |r.dy| * w0) else hasH
  let (w, h) :=
    if useW then
      let w := min (max wProposal effMinW) limW
      (w, (w * h0 + w0.tdiv 2).tdiv w0)
    else
      let h := min (max hProposal effMinH) limH
      ((h * w0 + h0.tdiv 2).tdiv h0, h)
  ⟨if r.left then r.startX + w0 - w else r.startX, if r.top then r.startY + h0 - h else r.startY, w, h⟩

/-- A resize of width and height on their own.
Source: `apply_window_resize` -/
def resizeFreely (d : Desktop) (r : ResizeDrag) : DragGeometry :=
  let minW : Int := if largeUi d then 180 else 140
  let minH : Int := if largeUi d then 140 else 110
  let (maxW, maxH) := appWindowMaxSize d
  let taskbarY := d.screenHeight - uiTaskbarHeight d
  let w := if r.right then r.startWidth + r.dx else r.startWidth
  let h := if r.bottom then r.startHeight + r.dy else r.startHeight
  let (x, w) := if r.left then (r.startX + r.dx, w - r.dx) else (r.startX, w)
  let (y, h) := if r.top then (r.startY + r.dy, h - r.dy) else (r.startY, h)
  let (x, w) := if w < minW then (if r.left then x - (minW - w) else x, minW) else (x, w)
  let (y, h) := if h < minH then (if r.top then y - (minH - h) else y, minH) else (y, h)
  let (x, w) := if w > maxW then (if r.left then x - (maxW - w) else x, maxW) else (x, w)
  let (y, h) := if h > maxH then (if r.top then y - (maxH - h) else y, maxH) else (y, h)
  let (x, w) := if x < uiLeftWorkAreaInset + 6 then
      (uiLeftWorkAreaInset + 6, if r.left then w - (uiLeftWorkAreaInset + 6 - x) else w)
    else (x, w)
  let (y, h) := if y < 8 then (8, if r.top then h - (8 - y) else h) else (y, h)
  let w := if x + w > d.screenWidth - 8 then d.screenWidth - 8 - x else w
  let h := if y + h > taskbarY - 4 then taskbarY - 4 - y else h
  ⟨x, y, max w minW, max h minH⟩

def resizeGeometry (d : Desktop) (w : WindowState) (r : ResizeDrag) : DragGeometry :=
  if w.flags &&& WINSYS_WINDOW_ASPECT_RATIO ≠ 0 then
    if r.startWidth > 0 ∧ r.startHeight > 0 then resizeKeepingRatio d r
    else ⟨r.startX, r.startY, r.startWidth, r.startHeight⟩
  else resizeFreely d r

def resizedWindow (d : Desktop) (w : WindowState) (r : ResizeDrag) : WindowState :=
  let g := resizeGeometry d w r
  { w with x := g.x, y := g.y, width := g.width, height := g.height }

def applyWindowResize (d : Desktop) (slot : AppSlot) (r : ResizeDrag) (surfaceAvail contentAvail : Bool) : Desktop :=
  let w := d.windows slot
  if w.maximized then d
  else if w = resizedWindow d w r then d
  else applyGeometry d slot (resizedWindow d w r) surfaceAvail contentAvail

/-! ### Presenting -/

/-- The slot a call of a process means by a window id.
Source: `desktop_app_present_rect`, `desktop_app_poll_event` -/
def callSlot (d : Desktop) (pid : Nat) (winId : Int) : Option AppSlot :=
  if h : 4 ≤ winId ∧ winId < 20 then
    let slot : AppSlot := ⟨(winId - 4).toNat, by unfold MAX_USER_APPS; omega⟩
    if (d.userApps slot).created ∧ (d.userApps slot).pid = pid then some slot else none
  else findSlotByPid d pid

/-- The part of a surface that a program presents. -/
structure Damage where
  x : Int
  y : Int
  width : Int
  height : Int
deriving DecidableEq

/-- The part of a present that lies in the content area, and whether it is the whole of it.
Source: `desktop_app_present_rect` -/
def presentDamage (a : UserAppSlot) (srcW srcH : Int) (r : Damage) : Bool × Damage :=
  let cw := min (min srcW a.contentWidth) WINSYS_MAX_WIDTH
  let ch := min (min srcH a.contentHeight) WINSYS_MAX_HEIGHT
  let full := r.width ≤ 0 || r.height ≤ 0
  let r := if full then ⟨0, 0, cw, ch⟩ else r
  let (x, w) := if r.x < 0 then (0, r.width + r.x) else (r.x, r.width)
  let (y, h) := if r.y < 0 then (0, r.height + r.y) else (r.y, r.height)
  (full, ⟨x, y, if wrap32 (x + w) > cw then cw - x else w, if wrap32 (y + h) > ch then ch - y else h⟩)

/-- The pixels of the content buffer that a present writes: `len` of them from `start` on, row by row. -/
def contentRows (a : UserAppSlot) (r : Damage) : List (Int × Int) :=
  (List.range r.height.toNat).map fun (row : Nat) => ((r.y + (row : Int)) * a.contentWidth + r.x, r.width)

def appContentOrigin (d : Desktop) (w : WindowState) : Int × Int :=
  if windowFrameless w then (0, 0) else (2, uiTitlebarHeight d + 2)

/-- The pixels of the surface that a partial present writes.
Source: `desktop_app_present_rect` -/
def surfaceRows (d : Desktop) (slot : AppSlot) (r : Damage) : List (Int × Int) :=
  let fb := d.windowFbs slot
  let origin := appContentOrigin d (d.windows slot)
  let fx := origin.1 + r.x
  let n := if fx + r.width > fb.width then fb.width - fx else r.width
  if fx ≥ 0 ∧ n > 0 then
    (List.range r.height.toNat).filterMap fun (row : Nat) =>
      let py : Int := origin.2 + r.y + (row : Int)
      if 0 ≤ py ∧ py < fb.height then some (py * fb.width + fx, n) else none
  else []

/-- The rows of the content buffer and of the surface that a present writes, and the state after it; `dirty`
says that a full rendering of the window is due anyway. -/
def desktopAppPresentRect (d : Desktop) (pid : Nat) (winId srcW srcH : Int) (r : Damage) (dirty : Bool) :
    Int × List (Int × Int) × List (Int × Int) × Desktop :=
  match callSlot d pid winId with
  | none => (-1, [], [], d)
  | some slot =>
    let a := d.userApps slot
    if a.contentStorage = 0 then (-1, [], [], d)
    else
      let p := presentDamage a srcW srcH r
      if p.2.width ≤ 0 ∨ p.2.height ≤ 0 then (0, [], [], d)
      else
        (0, contentRows a p.2, if p.1 || dirty then [] else surfaceRows d slot p.2,
          d.modifyApp slot fun a => { a with dataWidth := a.contentWidth })

def desktopAppPollEvent (d : Desktop) (pid : Nat) (winId : Int) : Option WinsysEvent × Desktop :=
  match callSlot d pid winId with
  | none => (none, d)
  | some slot =>
    let a := d.userApps slot
    if a.eventHead = a.eventTail then (none, d)
    else (some (a.events a.eventHead), d.modifyApp slot fun a => { a with eventHead := a.eventHead + 1 })

/-! ### Runs -/

/-- The button goes down on an edge of a window.
Source: `desktop_handle_input` -/
def beginResize (d : Desktop) (slot : AppSlot) (edges : ResizeEdges) (mouseX mouseY : Int) : Desktop :=
  let w := d.windows slot
  { d with resizeStart := some ⟨slot, edges, mouseX, mouseY, w.x, w.y, w.width, w.height⟩ }

/-- The mouse moves with the button down.
Source: `desktop_handle_input` -/
def dragResize (d : Desktop) (mouseX mouseY : Int) (surfaceAvail contentAvail : Bool) : Desktop :=
  match d.resizeStart with
  | none => d
  | some s => applyWindowResize d s.window (s.drag mouseX mouseY) surfaceAvail contentAvail

/-- A process passes its rectangle in four fields of 16 bits.
Source: `kernel/src/process.c` `SYS_WINDOW_PRESENT_RECT` -/
def sysDamage (dx dy dw dh : UInt16) : Damage := ⟨dx.toNat, dy.toNat, dw.toNat, dh.toNat⟩

/-- Calls of the programs and actions of the mouse; the flags say whether the heaps have room. -/
inductive WindowEvent where
  | create (pid : Nat) (options : WindowOptions) (surfaceAvail contentAvail : Bool)
  | press (slot : AppSlot) (edges : ResizeEdges) (mouseX mouseY : Int)
  | drag (mouseX mouseY : Int) (surfaceAvail contentAvail : Bool)
  | release
  | toggle (slot : AppSlot) (surfaceAvail contentAvail : Bool)
  | updateContent (slot : AppSlot) (contentAvail : Bool)
  | present (pid : Nat) (winId srcW srcH : Int) (dx dy dw dh : UInt16) (dirty : Bool)
  | poll (pid : Nat) (winId : Int)
  | close (pid : Nat)

def Desktop.step (d : Desktop) : WindowEvent → Desktop
  | .create pid options s c => (desktopAppCreateEx d pid options s c).2
  | .press slot edges mouseX mouseY => beginResize d slot edges mouseX mouseY
  | .drag mouseX mouseY s c => dragResize d mouseX mouseY s c
  | .release => { d with resizeStart := none }
  | .toggle slot s c => windowToggleMaximize d slot s c
  | .updateContent slot c => updateAppContentSizeSlot d slot c
  | .present pid winId srcW srcH dx dy dw dh dirty =>
    (desktopAppPresentRect d pid winId srcW srcH (sysDamage dx dy dw dh) dirty).2.2.2
  | .poll pid winId => (desktopAppPollEvent d pid winId).2
  | .close pid => desktopAppCloseForPid d pid

/-- The user windows as `desktop_init` leaves them, over fresh heaps. -/
def desktopInit (screenWidth screenHeight : Int) (heaps : GfxHeaps) : Desktop where
  screenWidth := screenWidth
  screenHeight := screenHeight
  userApps _ := ⟨0, 0, 0, 0, 0, 0, 0, false, 0, fun _ => ⟨0, 0, 0, 0, 0⟩, 0, 0, [], 0⟩
  windows i := ⟨[65, 80, 80], 320 + i.val * 24, 160 + i.val * 24, 480, 320, 0, false, false, 0, 0, 0, 0, 0⟩
  windowFbs _ := ⟨0, 480, 320⟩
  zOrder := List.range 20
  focusedWindow := 2
  menuTargetWindow := -1
  contextMenuOpen := false
  resizeStart := none
  heaps := heaps

end VibeOS
