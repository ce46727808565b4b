import VibeOS.Lib.PageTable
import VibeOS.Kernel.Sbrk

/-!
# The page tables of a process

`paging_map_user_process` fills the 4 KB tables of the user region with the pages of the image and of the stack, and
`paging_build_process_tables` makes a private top level, pointer table and first directory around them; the
directories of the upper three gigabytes are those of the boot tables. The tables are words of the memory that
`PageTable.translate` reads, at the addresses of a `Layout`.

The walk of an address of the user region ends in the image or in the stack, or nowhere (`translate_region`); every
other address leads where the boot tables lead (`translate_kernel`), and never with the user bit.

Other names are those of `kernel/src/paging.c`.
-/

namespace VibeOS.Paging

open PageTable Sbrk Function

/-! ### The tables -/

/-- The tables that the two functions read and write: the arrays of `boot.S`, and those of the process.
Source: `kernel/src/paging.c`, `kernel/src/process.c` -/
inductive TableId
  | pml4Table
  | pdpTable
  | pdTable0
  | pdTable1
  | pdTable2
  | pdTable3
  | pml4
  | pdp
  | pd0
  | userPageTables
  deriving DecidableEq

def TableId.pages : TableId → Nat
  | .userPageTables => PROCESS_USER_PAGE_TABLE_COUNT
  | _ => 1

abbrev Layout := TableId → Nat

/-- The boot directory of a gigabyte, 0 above the fourth. -/
def pdTableForIndex : Nat → Option TableId
  | 0 => some .pdTable0
  | 1 => some .pdTable1
  | 2 => some .pdTable2
  | 3 => some .pdTable3
  | _ => none

/-! ### `paging_map_user_process` -/

/-- Enter `n` pages from the `i`-th on, as long as the tables reach.
Source: `paging_map_user_process`, the second and the third loop -/
def mapFrames (pageTables pageTableCount firstPage physical : Nat) : (n i : Nat) → Words → Words
  | 0, _, mem => mem
  | n + 1, i, mem =>
    let page := firstPage + i
    let table := page / 512
    let entry := page % 512
    if table ≥ pageTableCount then mem
    else mapFrames pageTables pageTableCount firstPage physical n (i + 1)
      (update mem (pageTables + 8 * (table * 512 + entry)) ((physical + i * 0x1000) % 2 ^ 64 ||| 0x07))

def pagingMapUserProcess (t : Layout) (userVirtualBase userStackTop codePhysical codeSize stackPhysical stackSize
    pageTables pageTableCount : Nat) (mem : Words) : Words :=
  let codePages := (codeSize + 0xfff) % 2 ^ 64 / 0x1000
  let stackPages := (stackSize + 0xfff) % 2 ^ 64 / 0x1000
  let stackBasePage := pageIndex userVirtualBase ((userStackTop + 2 ^ 64 - stackSize) % 2 ^ 64)
  let m1 := fillTable pageTables (fun _ _ => 0) mem (pageTableCount * 512)
  let m2 := mapFrames pageTables pageTableCount 0 codePhysical codePages 0 m1
  let m3 := mapFrames pageTables pageTableCount stackBasePage stackPhysical stackPages 0 m2
  let m4 := update m3 (t .pml4Table) (m3 (t .pml4Table) ||| 0x04)
  update m4 (t .pdpTable) (m4 (t .pdpTable) ||| 0x04)

/-! ### `paging_build_process_tables` -/

/-- The private directory: a copy of the boot one with the user tables over it.
Source: `paging_build_process_tables`, the loops over `pd0` -/
def buildDirectory (t : Layout) (pd0 pdIndex userPageTables pageTableCount : Nat) (mem : Words) : Words :=
  let m1 := fillTable pd0 (fun m i => m (t .pdTable0 + 8 * i)) mem 512
  fillTable (pd0 + 8 * pdIndex) (fun _ i => (userPageTables + 8 * (i * 512)) ||| 0x07) m1 pageTableCount

/-- The private pointer table.
Source: `paging_build_process_tables`, the stores to `pdp` -/
def buildPointers (t : Layout) (pdp pd0 : Nat) (mem : Words) : Words :=
  let m1 := update mem pdp (pd0 ||| 0x07)
  let m2 := update m1 (pdp + 8) (t .pdTable1 ||| 0x03)
  let m3 := update m2 (pdp + 16) (t .pdTable2 ||| 0x03)
  let m4 := update m3 (pdp + 24) (t .pdTable3 ||| 0x03)
  fillTable (pdp + 8 * 4) (fun _ _ => 0) m4 (512 - 4)

/-- The private top level.
Source: `paging_build_process_tables`, the stores to `pml4` -/
def buildTop (pml4 pdp : Nat) (mem : Words) : Words :=
  fillTable (pml4 + 8 * 1) (fun _ _ => 0) (update mem pml4 (pdp ||| 0x07)) (512 - 1)

/-- Build the tables of a process around those of its user region; the value for CR3, 0 if an argument is null. -/
def pagingBuildProcessTables (t : Layout) (pml4 pdp pd0 userVirtualBase userPageTables pageTableCount : Nat)
    (mem : Words) : Nat × Words :=
  let pdIndex := userVirtualBase / 2 ^ 21 % 512
  if pml4 = 0 ∨ pdp = 0 ∨ pd0 = 0 ∨ userPageTables = 0 then (0, mem)
  else
    (pml4, buildTop pml4 pdp (buildPointers t pdp pd0 (buildDirectory t pd0 pdIndex userPageTables pageTableCount mem)))

/-- The two calls that load a process, with an image of `capacity` bytes in the frames at `code` and the stack in
those at `stack`.
Source: `kernel/src/process.c` `process_load_image_slot` -/
def loadTables (t : Layout) (code capacity stack : Nat) (mem : Words) : Nat × Words :=
  pagingBuildProcessTables t (t .pml4) (t .pdp) (t .pd0) PROCESS_USER_BASE (t .userPageTables)
    PROCESS_USER_PAGE_TABLE_COUNT
    (pagingMapUserProcess t PROCESS_USER_BASE (PROCESS_USER_BASE + PROCESS_USER_REGION_BYTES) code capacity stack
      PROCESS_USER_STACK_SIZE (t .userPageTables) PROCESS_USER_PAGE_TABLE_COUNT mem)

/-! ### Where the tables lie -/

/-- The tables are pages of physical memory, no two of which overlap. -/
structure Placed (t : Layout) : Prop where
  aligned : ∀ i, 4096 ∣ t i
  nonzero : ∀ i, t i ≠ 0
  below : ∀ i, t i + 4096 * i.pages ≤ 2 ^ 52
  apart : ∀ i j, i ≠ j → t i + 4096 * i.pages ≤ t j ∨ t j + 4096 * j.pages ≤ t i

def Out (t : Layout) (i : TableId) (a : Nat) : Prop := a < t i ∨ t i + 4096 * i.pages ≤ a

/-- The tables that loading a process does not write. -/
def TableId.Shared (i : TableId) : Prop := ∃ k, pdTableForIndex k = some i

/-- An entry that points to a table of the next level. -/
def PointsTo (e a : Nat) : Prop := present e = true ∧ large e = false ∧ frameOf e = a

/-- The boot tables, as `boot.S` lays them out and `paging_remap_framebuffer` changes them: one pointer table, four
directories, and directory entries that are large pages or point to tables of their own.
Source: `kernel/src/boot.S`, `kernel/src/paging.c` `paging_remap_framebuffer` -/
structure Boot (t : Layout) (mem : Words) : Prop where
  top : PointsTo (mem (t .pml4Table)) (t .pdpTable)
  top_rest : ∀ k, 0 < k → k < 512 → mem (t .pml4Table + 8 * k) = 0
  pointers : ∀ k i, pdTableForIndex k = some i → PointsTo (mem (t .pdpTable + 8 * k)) (t i)
  pointers_rest : ∀ k, 4 ≤ k → k < 512 → mem (t .pdpTable + 8 * k) = 0
  leaves : ∀ i, i.Shared → ∀ k < 512, present (mem (t i + 8 * k)) = true → large (mem (t i + 8 * k)) = false →
    ∀ j, ¬ j.Shared → frameOf (mem (t i + 8 * k)) + 4096 ≤ t j ∨ t j + 4096 * j.pages ≤ frameOf (mem (t i + 8 * k))

/-- The boot directories have only entries without the user bit. -/
def KernelOnly (t : Layout) (mem : Words) : Prop :=
  ∀ i : TableId, i.Shared → ∀ k < 512, user (mem (t i + 8 * k)) = false

variable {k a pdp pd0 : Nat}
variable {i : TableId}

lemma Placed.out {t : Layout} (h : Placed t) {j : TableId} (hij : i ≠ j) (hk : k < 512 * i.pages) :
    Out t j (t i + 8 * k) := by
  have hap := h.apart i j hij
  rw [Out]
  omega

lemma shared_ne {j : TableId} (hi : i.Shared) (hj : ¬ j.Shared) : i ≠ j := by
  rintro rfl
  exact hj hi

lemma shared_pages (hi : i.Shared) : i.pages = 1 := by
  obtain ⟨k, hk⟩ := hi
  unfold pdTableForIndex at hk
  split at hk
  all_goals cases hk
  all_goals rfl

lemma not_shared (h : i = .pml4Table ∨ i = .pdpTable ∨ i = .pml4 ∨ i = .pdp ∨ i = .pd0 ∨
    i = .userPageTables) : ¬ i.Shared := by
  rintro ⟨k, hk⟩
  unfold pdTableForIndex at hk
  split at hk
  all_goals cases hk
  all_goals simp at h

/-! ### The tables of the user region -/

section

variable {pageTables count first physical : Nat}

lemma mapFrames_of_outside : ∀ (n i : Nat) (mem : Words),
    a < pageTables + 8 * (first + i) ∨ pageTables + 8 * (first + i + n) ≤ a →
      mapFrames pageTables count first physical n i mem a = mem a
  | 0, _, _, _ => rfl
  | n + 1, i, mem, h => by
    rw [mapFrames]
    split_ifs with hc
    · rfl
    · rw [mapFrames_of_outside n (i + 1) _ (by omega), update_of_ne (by omega)]

lemma mapFrames_at : ∀ (n i j : Nat) (mem : Words), j < n → first + i + n ≤ 512 * count →
    mapFrames pageTables count first physical n i mem (pageTables + 8 * (first + i + j)) =
      ((physical + (i + j) * 0x1000) % 2 ^ 64 ||| 0x07)
  | 0, _, _, _, h, _ => by omega
  | n + 1, i, j, mem, h, hr => by
    rw [mapFrames, if_neg (by omega)]
    have hidx : (first + i) / 512 * 512 + (first + i) % 512 = first + i := by omega
    rw [hidx]
    cases j with
    | zero => rw [mapFrames_of_outside n (i + 1) _ (by omega), add_zero, add_zero, update_self]
    | succ j =>
      have hi : first + i + (j + 1) = first + (i + 1) + j := by omega
      have hj : i + (j + 1) = i + 1 + j := by omega
      rw [hi, hj]
      exact mapFrames_at n (i + 1) j _ (by omega) (by omega)

end

/-- The entry of a page of the user region, by the number of the page: the image from the bottom, the stack in the
upper 256 pages. -/
def regionEntry (code capacity stack page : Nat) : Nat :=
  if page < capacity / 4096 then code + 4096 * page + 7
  else if 0xFF00 ≤ page then stack + 4096 * (page - 0xFF00) + 7
  else 0

/-- What the two functions are given. -/
structure Frames (code capacity stack : Nat) : Prop where
  code_aligned : 4096 ∣ code
  stack_aligned : 4096 ∣ stack
  capacity_aligned : 4096 ∣ capacity
  capacity_le : capacity ≤ PROCESS_USER_IMAGE_SIZE
  code_below : code + capacity ≤ 2 ^ 52
  stack_below : stack + PROCESS_USER_STACK_SIZE ≤ 2 ^ 52

section load

variable {t : Layout} {mem : Words} {code capacity stack : Nat}

/-- The memory after the first of the two calls. -/
def mapped (t : Layout) (code capacity stack : Nat) (mem : Words) : Words :=
  pagingMapUserProcess t PROCESS_USER_BASE (PROCESS_USER_BASE + PROCESS_USER_REGION_BYTES) code capacity stack
    PROCESS_USER_STACK_SIZE (t .userPageTables) PROCESS_USER_PAGE_TABLE_COUNT mem

lemma mapped_eq (t : Layout) (code capacity stack : Nat) (mem : Words) : mapped t code capacity stack mem =
      (let m2 := mapFrames (t .userPageTables) 128 0 code ((capacity + 0xfff) % 2 ^ 64 / 0x1000) 0
        (fillTable (t .userPageTables) (fun _ _ => 0) mem (128 * 512))
      let m3 := mapFrames (t .userPageTables) 128 0xFF00 stack 0x100 0 m2
      let m4 := update m3 (t .pml4Table) (m3 (t .pml4Table) ||| 0x04)
      update m4 (t .pdpTable) (m4 (t .pdpTable) ||| 0x04)) := rfl

lemma codePages_eq (hf : Frames code capacity stack) : (capacity + 0xfff) % 2 ^ 64 / 0x1000 = capacity / 4096 := by
  have hc := hf.capacity_le
  have hs : PROCESS_USER_IMAGE_SIZE = 0xFF00000 := rfl
  obtain ⟨m, rfl⟩ := hf.capacity_aligned
  omega

lemma mapped_of_out (hf : Frames code capacity stack) (hu : Out t .userPageTables a)
    (h4 : Out t .pml4Table a) (h3 : Out t .pdpTable a) : mapped t code capacity stack mem a = mem a := by
  have hc := hf.capacity_le
  have hs : PROCESS_USER_IMAGE_SIZE = 0xFF00000 := rfl
  have hpu : TableId.userPageTables.pages = 128 := rfl
  have hp4 : TableId.pml4Table.pages = 1 := rfl
  have hp3 : TableId.pdpTable.pages = 1 := rfl
  rw [Out] at hu h4 h3
  rw [mapped_eq, codePages_eq hf]
  rw [update_of_ne (by omega), update_of_ne (by omega), mapFrames_of_outside _ _ _ (by omega),
    mapFrames_of_outside _ _ _ (by omega), fillTable_of_outside (by omega)]

/-- The tables of the user region hold the pages of the image and of the stack. -/
lemma mapped_region (ht : Placed t) (hf : Frames code capacity stack) (hk : k < 65536) :
    mapped t code capacity stack mem (t .userPageTables + 8 * k) = regionEntry code capacity stack k := by
  have hc := hf.capacity_le
  have hs : PROCESS_USER_IMAGE_SIZE = 0xFF00000 := rfl
  have hpu : TableId.userPageTables.pages = 128 := rfl
  have hp4 : TableId.pml4Table.pages = 1 := rfl
  have hp3 : TableId.pdpTable.pages = 1 := rfl
  have h4 := ht.out (i := .userPageTables) (j := .pml4Table) (by decide) (k := k) (by omega)
  have h3 := ht.out (i := .userPageTables) (j := .pdpTable) (by decide) (k := k) (by omega)
  rw [Out] at h4 h3
  have hcb := hf.code_below
  have hsb := hf.stack_below
  rw [mapped_eq, codePages_eq hf, regionEntry]
  rw [update_of_ne (by omega), update_of_ne (by omega)]
  by_cases himg : k < capacity / 4096
  · have hpage : t .userPageTables + 8 * k = t .userPageTables + 8 * (0 + 0 + k) := by omega
    rw [if_pos himg, mapFrames_of_outside _ _ _ (by omega), hpage, mapFrames_at _ _ _ _ himg (by omega),
      Nat.mod_eq_of_lt (by omega), or_flags (Nat.dvd_add hf.code_aligned (by omega)) (by omega)]
    omega
  · rw [if_neg himg]
    by_cases hst : 0xFF00 ≤ k
    · obtain ⟨j, rfl⟩ := Nat.exists_eq_add_of_le hst
      have hpage : t .userPageTables + 8 * (0xFF00 + j) = t .userPageTables + 8 * (0xFF00 + 0 + j) := by omega
      rw [if_pos hst, hpage, mapFrames_at _ _ _ _ (by omega) (by omega), Nat.mod_eq_of_lt (by omega),
        or_flags (Nat.dvd_add hf.stack_aligned (by omega)) (by omega)]
      omega
    · rw [if_neg hst, mapFrames_of_outside _ _ _ (by omega), mapFrames_of_outside _ _ _ (by omega),
        fillTable_at (g := fun _ => 0) (fun _ _ => rfl) (by omega)]

end load

/-! ### The tables around them -/

section

variable {t : Layout} {mem : Words}

lemma buildTop_of_outside {pml4 : Nat} (h : a < pml4 ∨ pml4 + 4096 ≤ a) : buildTop pml4 pdp mem a = mem a := by
  rw [buildTop, fillTable_of_outside (by omega), update_of_ne (by omega)]

lemma buildTop_zero (pml4 pdp : Nat) : buildTop pml4 pdp mem pml4 = (pdp ||| 7) := by
  rw [buildTop, fillTable_of_outside (by omega), update_self]

lemma buildTop_rest {pml4 : Nat} (h0 : 0 < k) (h : k < 512) : buildTop pml4 pdp mem (pml4 + 8 * k) = 0 := by
  have hk : pml4 + 8 * k = pml4 + 8 * 1 + 8 * (k - 1) := by omega
  rw [buildTop, hk, fillTable_at (g := fun _ => 0) (fun _ _ => rfl) (by omega)]

lemma buildPointers_of_outside (h : a < pdp ∨ pdp + 4096 ≤ a) : buildPointers t pdp pd0 mem a = mem a := by
  rw [buildPointers]
  rw [fillTable_of_outside (by omega), update_of_ne (by omega), update_of_ne (by omega),
    update_of_ne (by omega), update_of_ne (by omega)]

lemma buildPointers_zero (pdp pd0 : Nat) : buildPointers t pdp pd0 mem pdp = (pd0 ||| 7) := by
  rw [buildPointers]
  rw [fillTable_of_outside (by omega), update_of_ne (by omega), update_of_ne (by omega),
    update_of_ne (by omega), update_self]

lemma buildPointers_shared (h0 : 0 < k) (hi : pdTableForIndex k = some i) :
    buildPointers t pdp pd0 mem (pdp + 8 * k) = (t i ||| 3) := by
  rw [buildPointers]
  match k, h0, hi with
  | 1, _, rfl =>
    rw [fillTable_of_outside (by omega), update_of_ne (by omega), update_of_ne (by omega), mul_one, update_self]
  | 2, _, rfl => rw [fillTable_of_outside (by omega), update_of_ne (by omega), update_self]
  | 3, _, rfl => rw [fillTable_of_outside (by omega), update_self]

lemma buildPointers_rest (h4 : 4 ≤ k) (h : k < 512) : buildPointers t pdp pd0 mem (pdp + 8 * k) = 0 := by
  have hk : pdp + 8 * k = pdp + 8 * 4 + 8 * (k - 4) := by omega
  rw [buildPointers, hk]
  exact fillTable_at (g := fun _ => 0) (fun _ _ => rfl) (by omega)

lemma buildDirectory_of_outside {user : Nat} (h : a < pd0 ∨ pd0 + 4096 ≤ a) :
    buildDirectory t pd0 256 user 128 mem a = mem a := by
  rw [buildDirectory]
  rw [fillTable_of_outside (by omega), fillTable_of_outside (by omega)]

lemma buildDirectory_user {user : Nat} (hk : k < 128) :
    buildDirectory t pd0 256 user 128 mem (pd0 + 8 * (256 + k)) = (user + 4096 * k ||| 7) := by
  have hw : pd0 + 8 * (256 + k) = pd0 + 8 * 256 + 8 * k := by omega
  have hv : ∀ j, (user + 8 * (j * 512) ||| 7) = (user + 4096 * j ||| 7) := by
    intro j
    have hj : 8 * (j * 512) = 4096 * j := by omega
    rw [hj]
  rw [buildDirectory, hw]
  exact fillTable_at (g := fun j => user + 4096 * j ||| 7) (fun j _ => hv j) hk

lemma buildDirectory_rest {user : Nat} (ht : Placed t) (hk : k < 512) (hr : k < 256 ∨ 384 ≤ k) :
    buildDirectory t (t .pd0) 256 user 128 mem (t .pd0 + 8 * k) = mem (t .pdTable0 + 8 * k) := by
  rw [buildDirectory]
  rw [fillTable_of_outside (by omega)]
  refine fillTable_at (g := fun j => mem (t .pdTable0 + 8 * j)) (fun j hj => ?_) hk
  have hout := ht.out (i := .pdTable0) (j := .pd0) (by decide) (k := j) hj
  have hp : TableId.pd0.pages = 1 := rfl
  rw [Out] at hout
  exact fillTable_of_outside (by omega)

end

/-- The memory in which the tables of a process have been built over `mem`. -/
structure Loaded (t : Layout) (code capacity stack : Nat) (mem m : Words) : Prop where
  top : m (t .pml4) = t .pdp + 7
  top_rest : ∀ k, 0 < k → k < 512 → m (t .pml4 + 8 * k) = 0
  pointer : m (t .pdp) = t .pd0 + 7
  shared : ∀ k i, 0 < k → pdTableForIndex k = some i → m (t .pdp + 8 * k) = t i + 3
  pointers_rest : ∀ k, 4 ≤ k → k < 512 → m (t .pdp + 8 * k) = 0
  dir_user : ∀ k < 128, m (t .pd0 + 8 * (256 + k)) = t .userPageTables + 4096 * k + 7
  dir_rest : ∀ k < 512, k < 256 ∨ 384 ≤ k → m (t .pd0 + 8 * k) = mem (t .pdTable0 + 8 * k)
  region : ∀ k < 65536, m (t .userPageTables + 8 * k) = regionEntry code capacity stack k
  frame : ∀ a, (∀ j : TableId, ¬ j.Shared → Out t j a) → m a = mem a

section load

variable {t : Layout} {mem : Words} {code capacity stack : Nat}

lemma loadTables_eq (ht : Placed t) : loadTables t code capacity stack mem =
    (t .pml4, buildTop (t .pml4) (t .pdp) (buildPointers t (t .pdp) (t .pd0)
      (buildDirectory t (t .pd0) 256 (t .userPageTables) 128 (mapped t code capacity stack mem)))) := by
  have hz : ¬ (t .pml4 = 0 ∨ t .pdp = 0 ∨ t .pd0 = 0 ∨ t .userPageTables = 0) := by
    rintro (h | h | h | h)
    · exact ht.nonzero _ h
    · exact ht.nonzero _ h
    · exact ht.nonzero _ h
    · exact ht.nonzero _ h
  rw [loadTables, pagingBuildProcessTables, if_neg hz]
  rfl

/-- A table word other than those of the three upper levels is as the first call left it. -/
lemma built_of_out {pm : Words} (h4 : Out t .pml4 a) (h3 : Out t .pdp a) (h2 : Out t .pd0 a) :
    buildTop (t .pml4) (t .pdp) (buildPointers t (t .pdp) (t .pd0)
      (buildDirectory t (t .pd0) 256 (t .userPageTables) 128 pm)) a = pm a := by
  rw [buildTop_of_outside h4, buildPointers_of_outside h3, buildDirectory_of_outside h2]

lemma loadTables_loaded (ht : Placed t) (hf : Frames code capacity stack) :
    Loaded t code capacity stack mem (loadTables t code capacity stack mem).2 := by
  rw [loadTables_eq ht]
  dsimp only
  have hpdp : ∀ k < 512, Out t .pml4 (t .pdp + 8 * k) := fun k hk => ht.out (by decide) hk
  have hpd4 : ∀ k < 512, Out t .pml4 (t .pd0 + 8 * k) := fun k hk => ht.out (by decide) hk
  have hpd3 : ∀ k < 512, Out t .pdp (t .pd0 + 8 * k) := fun k hk => ht.out (by decide) hk
  constructor
  · rw [buildTop_zero, or_flags (ht.aligned _) (by omega)]
  · intro k h0 hk
    exact buildTop_rest h0 hk
  · have h0 : Out t .pml4 (t .pdp) := hpdp 0 (by omega)
    rw [buildTop_of_outside h0, buildPointers_zero, or_flags (ht.aligned _) (by omega)]
  · intro k i h0 hi
    have hk : k < 512 := by
      by_contra hge
      match k, hge, hi with
      | k + 4, _, hi => cases hi
    rw [buildTop_of_outside (hpdp k hk), buildPointers_shared h0 hi, or_flags (ht.aligned _) (by omega)]
  · intro k h4 hk
    rw [buildTop_of_outside (hpdp k hk), buildPointers_rest h4 hk]
  · intro k hk
    rw [buildTop_of_outside (hpd4 _ (by omega)), buildPointers_of_outside (hpd3 _ (by omega)), buildDirectory_user hk,
      or_flags (Nat.dvd_add (ht.aligned _) (by omega)) (by omega)]
  · intro k hk hr
    rw [buildTop_of_outside (hpd4 k hk), buildPointers_of_outside (hpd3 k hk), buildDirectory_rest ht hk hr]
    exact mapped_of_out hf (ht.out (by decide) hk) (ht.out (by decide) hk) (ht.out (by decide) hk)
  · intro k hk
    have hku : k < 512 * TableId.userPageTables.pages := hk
    rw [built_of_out (ht.out (by decide) hku) (ht.out (by decide) hku) (ht.out (by decide) hku)]
    exact mapped_region ht hf hk
  · intro a ha
    rw [built_of_out (ha _ (not_shared (by decide))) (ha _ (not_shared (by decide))) (ha _ (not_shared (by decide)))]
    exact mapped_of_out hf (ha _ (not_shared (by decide))) (ha _ (not_shared (by decide)))
      (ha _ (not_shared (by decide)))

end load

/-! ### The walk of a user address -/

def InImage (capacity va : Nat) : Prop := PROCESS_USER_BASE ≤ va ∧ va < PROCESS_USER_BASE + capacity

def InStack (va : Nat) : Prop :=
  PROCESS_USER_BASE + PROCESS_USER_REGION_BYTES - PROCESS_USER_STACK_SIZE ≤ va ∧
    va < PROCESS_USER_BASE + PROCESS_USER_REGION_BYTES

def InRegion (va : Nat) : Prop := PROCESS_USER_BASE ≤ va ∧ va < PROCESS_USER_BASE + PROCESS_USER_REGION_BYTES

def UserAccessible (mem : Words) (cr3 va : Nat) : Prop := ∃ pa, translate mem cr3 va = some (pa, true)

section walks

variable {t : Layout} {mem m : Words} {code capacity stack va : Nat}

lemma user_region_eq : PROCESS_USER_BASE = 0x20000000 ∧ PROCESS_USER_REGION_BYTES = 0x10000000 ∧
    PROCESS_USER_STACK_SIZE = 0x100000 ∧ PROCESS_USER_IMAGE_SIZE = 0xFF00000 := by decide

lemma Placed.lt (ht : Placed t) (i : TableId) : t i < 2 ^ 52 := by
  have hb := ht.below i
  have hp : 0 < i.pages := by
    cases i
    all_goals decide
  omega

lemma pointsTo_flags (ht : Placed t) (i : TableId) {f : Nat} (hp : f % 2 = 1) (hl : large f = false) (hf : f < 4096) :
    PointsTo (t i + f) (t i) :=
  ⟨present_flags (ht.aligned i) hp, by rw [large_flags (ht.aligned i), hl], frameOf_flags (ht.aligned i) (ht.lt i) hf⟩

lemma translate_pointers {cr3 e4 e3 pd : Nat} (hi : va / 2 ^ 39 % 512 = 0) (h4 : mem cr3 = e4)
    (hp4 : PointsTo e4 pdp) (h3 : mem (pdp + 8 * (va / 2 ^ 30 % 512)) = e3) (hp3 : PointsTo e3 pd) :
    translate mem cr3 va = dirWalk mem pd (user e4 && user e3) va := by
  have hw : cr3 + 8 * (va / 2 ^ 39 % 512) = cr3 := by omega
  have h : translate mem cr3 va = dirWalk mem (frameOf e3) (user e4 && user e3) va :=
    translate_of_entries (by rw [hw]; exact h4) hp4.1 (by rw [hp4.2.2]; exact h3) hp3.1 hp3.2.1
  rwa [hp3.2.2] at h

lemma translate_region (ht : Placed t) (hl : Loaded t code capacity stack mem m) (hva : InRegion va) :
    translate m (t .pml4) va = pageWalk m (t .userPageTables + 4096 * (va / 2 ^ 21 % 512 - 256)) true va := by
  obtain ⟨hb, hr, _, _⟩ := user_region_eq
  obtain ⟨hlo, hhi⟩ := hva
  have h3 : t .pdp + 8 * (va / 2 ^ 30 % 512) = t .pdp := by omega
  have hk : va / 2 ^ 21 % 512 = 256 + (va / 2 ^ 21 % 512 - 256) := by omega
  have hent := hl.dir_user (va / 2 ^ 21 % 512 - 256) (by omega)
  rw [← hk] at hent
  have hdvd : 4096 ∣ t .userPageTables + 4096 * (va / 2 ^ 21 % 512 - 256) := Nat.dvd_add (ht.aligned _) (by omega)
  have hbelow := ht.below .userPageTables
  have hp : TableId.userPageTables.pages = 128 := rfl
  have hu : user 7 = true := by decide
  rw [translate_pointers (by omega) hl.top (pointsTo_flags ht .pdp (by decide) (by decide) (by decide))
    (by rw [h3]; exact hl.pointer) (pointsTo_flags ht .pd0 (by decide) (by decide) (by decide)),
    dirWalk_of_table hent (present_flags hdvd (by decide)) (by rw [large_flags hdvd]; decide),
    frameOf_flags hdvd (by omega) (by decide), user_flags (ht.aligned _), user_flags (ht.aligned _),
    user_flags hdvd, hu]
  rfl

lemma region_entry (hl : Loaded t code capacity stack mem m) (hva : InRegion va) :
    m (t .userPageTables + 4096 * (va / 2 ^ 21 % 512 - 256) + 8 * (va / 2 ^ 12 % 512)) =
      regionEntry code capacity stack ((va - PROCESS_USER_BASE) / 4096) := by
  obtain ⟨hb, hr, _, _⟩ := user_region_eq
  obtain ⟨hlo, hhi⟩ := hva
  have hw : t .userPageTables + 4096 * (va / 2 ^ 21 % 512 - 256) + 8 * (va / 2 ^ 12 % 512) =
      t .userPageTables + 8 * ((va - PROCESS_USER_BASE) / 4096) := by omega
  rw [hw, hl.region _ (by omega)]

section

variable (ht : Placed t)

include ht

lemma translate_frame (hl : Loaded t code capacity stack mem m) (hva : InRegion va)
    (ha : 4096 ∣ a) (hlt : a < 2 ^ 52)
    (he : regionEntry code capacity stack ((va - PROCESS_USER_BASE) / 4096) = a + 7) :
    translate m (t .pml4) va = some (a + va % 2 ^ 12, true) := by
  have hent := region_entry hl hva
  rw [he] at hent
  have hu : user 7 = true := by decide
  rw [translate_region ht hl hva, pageWalk_of_entry hent (present_flags ha (by decide)),
    frameOf_flags ha hlt (by decide), user_flags ha, hu]
  rfl

lemma translate_image (hf : Frames code capacity stack) (hl : Loaded t code capacity stack mem m)
    (hva : InImage capacity va) : translate m (t .pml4) va = some (code + (va - PROCESS_USER_BASE), true) := by
  obtain ⟨hb, hr, _, hi⟩ := user_region_eq
  have hc := hf.capacity_le
  have hcb := hf.code_below
  obtain ⟨hlo, hhi⟩ := hva
  have hpage : (va - PROCESS_USER_BASE) / 4096 < capacity / 4096 := by
    obtain ⟨c, hcap⟩ := hf.capacity_aligned
    omega
  have he : regionEntry code capacity stack ((va - PROCESS_USER_BASE) / 4096) =
      code + 4096 * ((va - PROCESS_USER_BASE) / 4096) + 7 := by
    rw [regionEntry, if_pos hpage]
  rw [translate_frame ht hl ⟨hlo, by omega⟩ (Nat.dvd_add hf.code_aligned (by omega)) (by omega) he]
  have hpa : code + 4096 * ((va - PROCESS_USER_BASE) / 4096) + va % 2 ^ 12 = code + (va - PROCESS_USER_BASE) := by omega
  rw [hpa]

lemma translate_stack (hf : Frames code capacity stack) (hl : Loaded t code capacity stack mem m)
    (hva : InStack va) : translate m (t .pml4) va =
      some (stack + (va - (PROCESS_USER_BASE + PROCESS_USER_REGION_BYTES - PROCESS_USER_STACK_SIZE)), true) := by
  obtain ⟨hb, hr, hs, hi⟩ := user_region_eq
  have hc := hf.capacity_le
  have hsb := hf.stack_below
  obtain ⟨hlo, hhi⟩ := hva
  have he : regionEntry code capacity stack ((va - PROCESS_USER_BASE) / 4096) =
      stack + 4096 * ((va - PROCESS_USER_BASE) / 4096 - 0xFF00) + 7 := by
    rw [regionEntry, if_neg (by omega), if_pos (by omega)]
  rw [translate_frame ht hl ⟨by omega, hhi⟩ (Nat.dvd_add hf.stack_aligned (by omega)) (by omega) he]
  have hpa : stack + 4096 * ((va - PROCESS_USER_BASE) / 4096 - 0xFF00) + va % 2 ^ 12 =
      stack + (va - (PROCESS_USER_BASE + PROCESS_USER_REGION_BYTES - PROCESS_USER_STACK_SIZE)) := by omega
  rw [hpa]

lemma translate_hole (hl : Loaded t code capacity stack mem m)
    (hva : InRegion va) (himg : ¬ InImage capacity va) (hst : ¬ InStack va) : translate m (t .pml4) va = none := by
  obtain ⟨hb, hr, hs, hi⟩ := user_region_eq
  have hlo := hva.1
  have hhi := hva.2
  rw [InImage] at himg
  rw [InStack] at hst
  have he : regionEntry code capacity stack ((va - PROCESS_USER_BASE) / 4096) = 0 := by
    rw [regionEntry, if_neg (by omega), if_neg (by omega)]
  rw [translate_region ht hl hva, pageWalk_of_absent]
  rw [region_entry hl hva, he]
  decide

/-! ### The walk of any other address -/

/-- Outside the user region the walk fails in both sets of tables, or it reaches a directory with the entry of a boot
directory. -/
lemma translate_outside (hb : Boot t mem) (hl : Loaded t code capacity stack mem m)
    (hva : Canonical va) (hout : ¬ InRegion va) :
    (translate m (t .pml4) va = none ∧ translate mem (t .pml4Table) va = none) ∨
      ∃ i pd u u', i.Shared ∧ translate m (t .pml4) va = dirWalk m pd u va ∧
        translate mem (t .pml4Table) va = dirWalk mem (t i) u' va ∧
        m (pd + 8 * (va / 2 ^ 21 % 512)) = mem (t i + 8 * (va / 2 ^ 21 % 512)) := by
  obtain ⟨hbase, hr, _, _⟩ := user_region_eq
  rw [InRegion] at hout
  rw [Canonical] at hva
  by_cases h4 : va / 2 ^ 39 % 512 = 0
  · have hbt : t .pml4Table + 8 * (va / 2 ^ 39 % 512) = t .pml4Table := by omega
    have hpt : t .pml4 + 8 * (va / 2 ^ 39 % 512) = t .pml4 := by omega
    have htop := pointsTo_flags ht .pdp (f := 7) (by decide) (by decide) (by decide)
    by_cases h3 : 4 ≤ va / 2 ^ 30 % 512
    · refine .inl ⟨translate_of_absent_pointer (by rw [hpt]; exact hl.top) htop.1 ?_,
        translate_of_absent_pointer (by rw [hbt]) hb.top.1 ?_⟩
      · rw [htop.2.2]
        exact hl.pointers_rest _ h3 (by omega)
      · rw [hb.top.2.2]
        exact hb.pointers_rest _ h3 (by omega)
    · by_cases h0 : va / 2 ^ 30 % 512 = 0
      · have hbp := hb.pointers 0 .pdTable0 rfl
        have hz : ∀ a, a + 8 * (va / 2 ^ 30 % 512) = a := by
          intro a
          omega
        exact .inr ⟨.pdTable0, t .pd0, _, _, ⟨0, rfl⟩, translate_pointers h4 hl.top htop (by rw [hz]; exact hl.pointer)
            (pointsTo_flags ht .pd0 (by decide) (by decide) (by decide)),
          translate_pointers h4 rfl hb.top (by rw [hz]; rfl) hbp, hl.dir_rest _ (by omega) (by omega)⟩
      · obtain ⟨i, hi⟩ : ∃ i, pdTableForIndex (va / 2 ^ 30 % 512) = some i := by
          have h123 : va / 2 ^ 30 % 512 = 1 ∨ va / 2 ^ 30 % 512 = 2 ∨ va / 2 ^ 30 % 512 = 3 := by omega
          rcases h123 with h | h | h
          · exact ⟨.pdTable1, by rw [h]; rfl⟩
          · exact ⟨.pdTable2, by rw [h]; rfl⟩
          · exact ⟨.pdTable3, by rw [h]; rfl⟩
        have hsh : i.Shared := ⟨_, hi⟩
        refine .inr ⟨i, t i, _, _, hsh, translate_pointers h4 hl.top htop (hl.shared _ i (by omega) hi)
          (pointsTo_flags ht i (by decide) (by decide) (by decide)), translate_pointers h4 rfl hb.top rfl
          (hb.pointers _ i hi), hl.frame _ fun j hj => ?_⟩
        have hpages := shared_pages hsh
        exact ht.out (shared_ne hsh hj) (by omega)
  · exact .inl ⟨translate_of_absent (hl.top_rest _ (by omega) (by omega)),
      translate_of_absent (hb.top_rest _ (by omega) (by omega))⟩

lemma translate_kernel (hb : Boot t mem) (hl : Loaded t code capacity stack mem m)
    (hva : Canonical va) (hout : ¬ InRegion va) :
    (translate m (t .pml4) va).map Prod.fst = (translate mem (t .pml4Table) va).map Prod.fst := by
  obtain ⟨h, h'⟩ | ⟨i, pd, u, u', hsh, h, h', he⟩ := translate_outside ht hb hl hva hout
  · rw [h, h']
  · rw [h, h']
    refine dirWalk_congr he fun hp hlg => hl.frame _ fun j hj => ?_
    have hleaf := hb.leaves i hsh _ (Nat.mod_lt _ (by omega)) hp hlg j hj
    rw [Out]
    omega

lemma translate_kernel_user (hb : Boot t mem) (hk : KernelOnly t mem)
    (hl : Loaded t code capacity stack mem m) (hva : Canonical va) (hout : ¬ InRegion va) :
    ¬ UserAccessible m (t .pml4) va := by
  rintro ⟨pa, hpa⟩
  obtain ⟨h, _⟩ | ⟨i, pd, u, u', hsh, h, _, he⟩ := translate_outside ht hb hl hva hout
  · rw [h] at hpa
    cases hpa
  · rw [h] at hpa
    have hu : user (m (pd + 8 * (va / 2 ^ 21 % 512))) = false := by
      rw [he]
      exact hk i hsh _ (Nat.mod_lt _ (by omega))
    cases dirWalk_no_user hu hpa

end

end walks

/-! ### The address space of a process -/

/-- User mode can reach exactly its image and its stack, byte by byte in their frames, and the kernel's addresses
outside the user region are mapped as by the boot tables. -/
theorem user_reaches_image_and_stack {t : Layout} {mem : Words} {code capacity stack : Nat} (ht : Placed t)
    (hb : Boot t mem) (hk : KernelOnly t mem) (hf : Frames code capacity stack) (va : Nat) (hva : Canonical va) :
    let (cr3, m) := loadTables t code capacity stack mem
    (UserAccessible m cr3 va ↔ InImage capacity va ∨ InStack va) ∧
      (InImage capacity va → translate m cr3 va = some (code + (va - PROCESS_USER_BASE), true)) ∧
      (InStack va → translate m cr3 va =
        some (stack + (va - (PROCESS_USER_BASE + PROCESS_USER_REGION_BYTES - PROCESS_USER_STACK_SIZE)), true)) ∧
      (¬ InRegion va → (translate m cr3 va).map Prod.fst = (translate mem (t .pml4Table) va).map Prod.fst) := by
  have hl : Loaded t code capacity stack mem (loadTables t code capacity stack mem).2 := loadTables_loaded ht hf
  have hcr3 : (loadTables t code capacity stack mem).1 = t .pml4 := by rw [loadTables_eq ht]
  dsimp only
  rw [hcr3]
  refine ⟨⟨fun hu => ?_, ?_⟩, translate_image ht hf hl, translate_stack ht hf hl, translate_kernel ht hb hl hva⟩
  · by_contra hno
    obtain ⟨himg, hst⟩ := not_or.mp hno
    by_cases hreg : InRegion va
    · obtain ⟨pa, hpa⟩ := hu
      rw [translate_hole ht hl hreg himg hst] at hpa
      cases hpa
    · exact translate_kernel_user ht hb hk hl hva hreg hu
  · rintro (himg | hst)
    · exact ⟨_, translate_image ht hf hl himg⟩
    · exact ⟨_, translate_stack ht hf hl hst⟩

/-! ### A machine with its boot tables -/

/-- The tables in sixteen pages and the user tables behind them. -/
def bootLayout : Layout
  | .pml4Table => 0x1000
  | .pdpTable => 0x2000
  | .pdTable0 => 0x3000
  | .pdTable1 => 0x4000
  | .pdTable2 => 0x5000
  | .pdTable3 => 0x6000
  | .pml4 => 0x7000
  | .pdp => 0x8000
  | .pd0 => 0x9000
  | .userPageTables => 0x10000

/-- The boot tables: four gigabytes of large pages, each mapped to itself.
Source: `kernel/src/boot.S` -/
def bootWords : Words := fun a =>
  if a = 0x1000 then 0x2003
  else if 0x2000 ≤ a ∧ a < 0x2020 then 0x3003 + 512 * (a - 0x2000)
  else if 0x3000 ≤ a ∧ a < 0x7000 then (a - 0x3000) / 8 * 0x200000 + 0x83
  else 0

lemma bootLayout_placed : Placed bootLayout where
  aligned i := by
    cases i
    all_goals decide
  nonzero i := by
    cases i
    all_goals decide
  below i := by
    cases i
    all_goals decide
  apart i j := by
    cases i
    all_goals cases j
    all_goals decide

lemma bootWords_directory (hi : i.Shared) (hk : k < 512) :
    ∃ n, bootWords (bootLayout i + 8 * k) = n * 0x200000 + 0x83 := by
  have hrange : 0x3000 ≤ bootLayout i ∧ bootLayout i ≤ 0x6000 := by
    obtain ⟨j, hj⟩ := hi
    unfold pdTableForIndex at hj
    split at hj
    all_goals cases hj
    all_goals decide
  refine ⟨(bootLayout i + 8 * k - 0x3000) / 8, ?_⟩
  rw [bootWords, if_neg (by omega), if_neg (by omega), if_pos (by omega)]

lemma bootWords_boot : Boot bootLayout bootWords where
  top := ⟨by decide, by decide, by decide⟩
  top_rest k h0 hk := by
    have hw : bootLayout .pml4Table + 8 * k = 0x1000 + 8 * k := rfl
    rw [hw, bootWords, if_neg (by omega), if_neg (by omega), if_neg (by omega)]
  pointers k i hi := by
    unfold pdTableForIndex at hi
    split at hi
    all_goals cases hi
    all_goals exact ⟨by decide, by decide, by decide⟩
  pointers_rest k h4 hk := by
    have hw : bootLayout .pdpTable + 8 * k = 0x2000 + 8 * k := rfl
    rw [hw, bootWords, if_neg (by omega), if_neg (by omega), if_neg (by omega)]
  leaves i hi k hk _ hl := by
    obtain ⟨n, hn⟩ := bootWords_directory hi hk
    rw [hn, large, beq_eq_false_iff_ne] at hl
    omega

lemma bootWords_kernelOnly : KernelOnly bootLayout bootWords := by
  intro i hi k hk
  obtain ⟨n, hn⟩ := bootWords_directory hi hk
  rw [hn, user, beq_eq_false_iff_ne]
  omega

/-- An image of one page on these tables: its bytes are reached, and the kernel is not. -/
theorem user_reaches_one_page :
    let (cr3, m) := loadTables bootLayout 0x400000 0x1000 0x800000 bootWords
    translate m cr3 0x20000005 = some (0x400005, true) ∧ ¬ UserAccessible m cr3 0x100000 := by
  have hf : Frames 0x400000 0x1000 0x800000 :=
    ⟨by decide, by decide, by decide, by decide, by decide, by decide⟩
  obtain ⟨_, himg, _, _⟩ := user_reaches_image_and_stack bootLayout_placed bootWords_boot bootWords_kernelOnly hf
    0x20000005 (.inl (by decide))
  obtain ⟨hiff, _, _, _⟩ := user_reaches_image_and_stack bootLayout_placed bootWords_boot bootWords_kernelOnly hf
    0x100000 (.inl (by decide))
  have hno : ¬ (InImage 0x1000 0x100000 ∨ InStack 0x100000) := by
    rw [InImage, InStack]
    decide
  exact ⟨himg ⟨by decide, by decide⟩, fun hu => hno (hiff.mp hu)⟩

end VibeOS.Paging
