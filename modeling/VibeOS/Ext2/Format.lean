import VibeOS.Ext2.Run

/-!
# A freshly formatted filesystem

`Inv (ext2Format heap device)` for every device with room for the metadata (`inv_format`). The root
directory is made by hand in `formatRoot`; the other directories and the seed files are made with
the ordinary operations, so `format_induction` carries any invariant of the safe steps from
`formatRoot` to the formatted filesystem.
-/

namespace VibeOS

open List
open Buf Ext2Filesystem Ownership

/-- The number of blocks `ext2_format` computes for a device. -/
def deviceBlocks (device : Ramdisk) : Nat := device.size / EXT2_BLOCK_SIZE % 2 ^ 32

/-- A device that `ext2_format` can format: its block size divides 1024, there is an inode for the
root directory, and the in-memory bitmap of `(blocks_count + 7) / 8` bytes does not wrap around. -/
structure HasRoom (device : Ramdisk) : Prop where
  dvd : device.blockSize ∣ 1024
  blocks : 8 ≤ deviceBlocks device
  bitmap : deviceBlocks device + 7 < 2 ^ 32

lemma ptr_zero (k : Nat) : Inode.zero.ptr k = 0 := by
  rw [Inode.ptr]
  split_ifs <;> rfl

section format

variable (heap : Heap) (device : Ramdisk)

/-! ### The geometry -/

lemma blocksCount_formatEmpty : (formatEmpty heap device).blocksCount = deviceBlocks device := by
  rfl

lemma inodesCount_formatEmpty : (formatEmpty heap device).inodesCount = min 1024 (deviceBlocks device / 4) := by
  have hb : (UInt32.ofNat (device.size / EXT2_BLOCK_SIZE) / 4).toNat = deviceBlocks device / 4 := by
    rfl
  have h1024 : (1024 : UInt32).toNat = 1024 := rfl
  change (if 1024 > UInt32.ofNat (device.size / EXT2_BLOCK_SIZE) / 4
    then UInt32.ofNat (device.size / EXT2_BLOCK_SIZE) / 4 else 1024).toNat = _
  split_ifs with hc
  · rw [gt_iff_lt, UInt32.lt_iff_toNat_lt] at hc
    omega
  · rw [gt_iff_lt, UInt32.lt_iff_toNat_lt] at hc
    omega

lemma firstDataBlock_formatEmpty : (formatEmpty heap device).firstDataBlock =
      2 + bbBlks (formatEmpty heap device) + 1 + inodeTableBlocks (formatEmpty heap device) := by
  have hn : (formatSuperblock device).inodesCount.toNat ≤ 1024 :=
    (inodesCount_formatEmpty heap device).le.trans (min_le_left _ _)
  change (2 + ((formatSuperblock device).blocksCount + 8 * 1024 - 1) / (8 * 1024) + 1 +
    ((formatSuperblock device).inodesCount * 256 + 1024 - 1) / 1024).toNat =
    2 + ((formatSuperblock device).blocksCount.toNat + 8 * 1024 - 1) % 2 ^ 32 / (8 * 1024) + 1 +
    ((formatSuperblock device).inodesCount.toNat * 256 + 1024 - 1) / 1024
  generalize (formatSuperblock device).inodesCount = n at hn ⊢
  have hb := (formatSuperblock device).blocksCount.toNat_lt
  generalize (formatSuperblock device).blocksCount = b at hb ⊢
  simp only [UInt32.toNat_add, UInt32.toNat_div, UInt32.toNat_sub, UInt32.toNat_mul,
    UInt32.reduceToNat, UInt32.reduceMul]
  omega

/-- The empty filesystem with its root directory in block `b`, still in memory. -/
abbrev rootNode (b : Nat) : Ext2Filesystem := dirNode (formatEmpty heap device) 2 b 2 0o755

variable {device} (hroom : HasRoom device)

include hroom

lemma geometry_formatEmpty : Geometry (formatEmpty heap device) where
  bs_eq := rfl
  dev_dvd := hroom.dvd
  inodes_ge := by
    have h := hroom.blocks
    rw [inodesCount_formatEmpty]
    omega
  inodes_le := by
    rw [inodesCount_formatEmpty]
    omega
  first_eq := firstDataBlock_formatEmpty heap device
  first_lt := by
    have hbs : (formatEmpty heap device).bs = 1024 := rfl
    have h := hroom.blocks
    rw [firstDataBlock_formatEmpty, bbBlks, inodeTableBlocks, hbs, inodesCount_formatEmpty,
      blocksCount_formatEmpty, INODE_SIZE]
    omega

/-! ### Before the root directory -/

omit hroom in
lemma blockUsed_formatEmpty (b : Nat) : (formatEmpty heap device).blockUsed b =
    decide (b < (formatEmpty heap device).firstDataBlock) := by
  refine (Bitmap.bit_foldl_setBit _ _ _).trans ?_
  simp only [Bitmap.bit_zero, Bool.or_false, mem_range]
  rfl

omit hroom in
lemma inodeUsed_formatEmpty (n : Nat) : (formatEmpty heap device).inodeUsed n = false := by
  rw [inodeUsed]
  change (_ && Bitmap.bit Buf.zero _) = false
  rw [Bitmap.bit_zero, Bool.and_false]

omit hroom in
lemma inode_formatEmpty {n : Nat} (h1 : 1 ≤ n) (h2 : n ≤ (formatEmpty heap device).inodesCount) :
    (formatEmpty heap device).inode n = Inode.zero := by
  rw [inode, inodeIdx_of_pos h1]
  exact if_pos (Nat.lt_of_lt_of_le (by omega) h2)

omit hroom in
lemma own_formatEmpty (σ : Slot) : own (formatEmpty heap device) σ = 0 := by
  induction σ with
  | root i k =>
    rw [own]
    split_ifs with hc
    · rw [inode_formatEmpty heap hc.1 hc.2.1, ptr_zero]
    · rfl
  | child p j ih => exact own_child_of_zero ih j

omit hroom in
lemma owned_formatEmpty : Owned (formatEmpty heap device) where
  range σ h := absurd (own_formatEmpty heap σ) h
  marked σ h := absurd (own_formatEmpty heap σ) h
  inj σ _ _ h := absurd (own_formatEmpty heap σ) h

lemma freeInode_root : FreeInode (formatEmpty heap device) 2 :=
  ⟨by omega, (geometry_formatEmpty heap hroom).inodes_ge, inodeUsed_formatEmpty heap 2⟩

/-! ### The root directory -/

/-- The root directory is made as any other, then the whole inode table is written. -/
lemma formatRoot_eq : ∃ b, FreeBlock (formatEmpty heap device) b ∧
    formatRoot heap device = (List.range (inodeTableBlocks (formatEmpty heap device))).foldl
      (fun f i => ext2WriteBlock f (2 + bbBlks (formatEmpty heap device) + 1 + i)
        (inodeTableBlock (flush (rootNode heap device b)) i))
      (flush (rootNode heap device b)) := by
  have hg := geometry_formatEmpty heap hroom
  rcases allocBlock_cases (markInode (formatEmpty heap device) 2) (hg.of_shape rfl) with
    ⟨-, hfull⟩ | ⟨b, hlo, hhi, hfree, -, halloc⟩
  · have h := hfull (formatEmpty heap device).firstDataBlock le_rfl hg.first_lt
    have hu : (formatEmpty heap device).blockUsed (formatEmpty heap device).firstDataBlock = false := by
      rw [blockUsed_formatEmpty]
      simp
    rw [blockUsed_markInode, hu] at h
    cases h
  · refine ⟨b, ⟨⟨hlo, hhi⟩, hfree⟩, ?_⟩
    have hstep : ∀ r, ext2AllocBlock (markInode (formatEmpty heap device) 2) = r → formatRoot heap device =
          let fs := flush (ext2WriteBlock
            (r.2.setInode 2 ((rootInode (formatEmpty heap device)).setPtr 0 r.1)) r.1
            (dotBlock (formatEmpty heap device).bs 2 2))
          (List.range (inodeTableBlocks (formatEmpty heap device))).foldl
            (fun f i => ext2WriteBlock f (2 + bbBlks (formatEmpty heap device) + 1 + i)
              (inodeTableBlock fs i)) fs := by
      rintro r rfl
      rfl
    have hroot : (rootInode (formatEmpty heap device)).setPtr 0 b = dirInode (formatEmpty heap device) 2 b 0o755 := rfl
    rw [hstep _ halloc, hroot]
    rfl

/-- The state with a root directory differs from it only in the metadata blocks. -/
lemma writeBack_formatRoot : Geometry (formatEmpty heap device) ∧ FreeInode (formatEmpty heap device) 2 ∧
    Owned (formatEmpty heap device) ∧ ∃ b, FreeBlock (formatEmpty heap device) b ∧
      WriteBack (rootNode heap device b) (formatRoot heap device) := by
  refine ⟨geometry_formatEmpty heap hroom, freeInode_root heap hroom, owned_formatEmpty heap, ?_⟩
  obtain ⟨b, hb, heq⟩ := formatRoot_eq heap hroom
  have hg : Geometry (rootNode heap device b) := (geometry_formatEmpty heap hroom).of_shape rfl
  have hflush := WriteBack.flush hg
  refine ⟨b, hb, hflush.trans ?_⟩
  have hg' := hg.of_shape hflush.shape
  have hmem := foldl_writeBlock_memory (fun i => 2 + bbBlks (formatEmpty heap device) + 1 + i) (inodeTableBlock
    (flush (rootNode heap device b))) (List.range (inodeTableBlocks (formatEmpty heap device)))
    (flush (rootNode heap device b))
  rw [heq]
  refine ⟨hmem.1, hmem.2.1, hmem.2.2.1, hmem.2.2.2.1, hmem.2.2.2.2, fun m hm => ?_⟩
  refine readBlock_foldl_writeBlock _ _ _ _ hg' fun i hi => ?_
  have hi' := mem_range.mp hi
  have hfirst : _ = (formatEmpty heap device).firstDataBlock := firstDataBlock_of_shape hflush.shape
  have hfirst' := firstDataBlock_formatEmpty heap device
  omega

lemma inv_formatRoot : Inv (formatRoot heap device) ∧ (treeOf (formatRoot heap device)).Full 2 := by
  obtain ⟨hg, hn, ho, b, hb, hw⟩ := writeBack_formatRoot heap hroom
  have hused : ∀ m, (rootNode heap device b).inodeUsed m = true ↔ m = 2 := by
    intro m
    rw [inodeUsed_dirNode hn, inodeUsed_formatEmpty, Bool.or_false, decide_eq_true_eq]
  obtain ⟨hok, hup, hlinks⟩ : _ ∧ _ ∧ dirLinks (rootNode heap device b) 2 = [] :=
    dirOk_dirNode hg hn hb (fun k _ _ => by rw [inode_formatEmpty heap hn.1 hn.2.1, ptr_zero])
      (by decide) (by decide)
  have htree := Forest.ok_of_lone (f := treeOf (rootNode heap device b)) hused
    (by change (Ext2Filesystem.inode _ 2).isDir = true; rw [inode_dirNode, isDir_dirInode]) hup hlinks
  have hinv : Inv (rootNode heap device b) := by
    refine ⟨hg.of_shape rfl, fun m hm => ?_, owned_dirNode hg ho hn hb, fun m h1 h2 hm k _ _ => ?_,
      fun d hd _ => ?_, htree.1⟩
    · rw [blockUsed_dirNode, blockUsed_formatEmpty]
      have hm' : m < (formatEmpty heap device).firstDataBlock := hm
      simp [hm']
    · have hne : m ≠ 2 := fun h => by
        rw [(hused m).mpr h] at hm
        cases hm
      rw [inode_dirNode_of_ne hn h1 hne, inode_formatEmpty heap h1 h2, ptr_zero]
    · rw [(hused d).mp hd]
      exact hok
  exact ⟨hw.agree.inv hinv, htree.2.of_sim (hw.agree.sim hinv.owned)⟩

end format

/-! ### Directories and seed files -/

lemma used_create {fs : Ext2Filesystem} (hi : Inv fs) (path : Path) (mode : UInt16)
    (h : (ext2Create fs path.bytes mode).1 ≠ 0) :
    (ext2Create fs path.bytes mode).2.inodeUsed (ext2Create fs path.bytes mode).1 = true := by
  rcases create_spec hi path mode with ⟨fs', heq, -⟩ | ⟨n, p, name, fs1, -, -, -, -, heq, -, -, hw, hsim⟩
  · rw [heq] at h
    exact absurd rfl h
  · rw [heq, hw.inodeUsed]
    refine (hsim.used n).trans ?_
    simp [Forest.link, Forest.alloc]

lemma seeds_paths : ∀ seed ∈ seeds, (0 : UInt8) ∉ seed.1 ∧ seed.1.length < 256 := by decide

section induction

variable {I : Ext2Filesystem → Prop} (hI : ∀ fs, I fs → Inv fs)
  (hmkdir : ∀ fs path mode, I fs → I (Op.apply fs (.mkdir path mode)))
  (hcreate : ∀ fs path mode, I fs → I (Op.apply fs (.create path mode)))
  (hwrite : ∀ fs n data, I fs → fs.inodeUsed n = true → I (Op.apply fs (.write n 0 data)))

include hI hcreate hwrite in
lemma seed_induction {fs : Ext2Filesystem} {seed : List UInt8 × List UInt8 × UInt16}
    (hmem : seed ∈ seeds) (hfs : I fs) : I (writeSeed fs seed) := by
  have hpath := seeds_paths seed hmem
  have h := hcreate fs ⟨seed.1, hpath.1, hpath.2⟩ seed.2.2 hfs
  have heq : writeSeed fs seed = if (ext2Create fs seed.1 seed.2.2).1 ≠ 0 then
      (ext2Write (ext2Create fs seed.1 seed.2.2).2 (ext2Create fs seed.1 seed.2.2).1 0
        seed.2.1).2 else (ext2Create fs seed.1 seed.2.2).2 := rfl
  rw [heq]
  split_ifs with hne
  · exact hwrite _ _ _ h (used_create (hI fs hfs) ⟨seed.1, hpath.1, hpath.2⟩ _ hne)
  · exact h

include hI hmkdir hcreate hwrite in
/-- What the root directory satisfies and the operations that `ext2_format` uses keep holds of the
formatted filesystem. -/
lemma format_induction {heap : Heap} {device : Ramdisk} (hroot : I (formatRoot heap device)) :
    I (ext2Format heap device) := by
  have hdir : ∀ fs path, (0 : UInt8) ∉ path → path.length < 256 → I fs → I (ext2Mkdir fs path 0o755).2 :=
    fun fs path h1 h2 => hmkdir fs ⟨path, h1, h2⟩ 0o755
  have hfold : ∀ l fs, l ⊆ seeds → I fs → I (l.foldl writeSeed fs) := by
    intro l
    induction l with
    | nil => exact fun fs _ hfs => hfs
    | cons seed l ih =>
      intro fs hsub hfs
      exact ih _ (fun x hx => hsub (mem_cons_of_mem _ hx)) (seed_induction hI hcreate hwrite (hsub mem_cons_self) hfs)
  have hhome := hdir _ (cstring "/home") (by decide) (by decide) hroot
  have hbin := hdir _ (cstring "/bin") (by decide) (by decide) hhome
  have hetc := hdir _ (cstring "/etc") (by decide) (by decide) hbin
  rw [ext2Format]
  exact hfold seeds _ (List.Subset.refl _) hetc

end induction

lemma inv_format (heap : Heap) {device : Ramdisk} (hroom : HasRoom device) : Inv (ext2Format heap device) :=
  format_induction (fun _ h => h)
    (fun _ path mode h => inv_apply h (.mkdir path mode) trivial)
    (fun _ path mode h => inv_apply h (.create path mode) trivial)
    (fun _ n data h hn => inv_apply h (.write n 0 data) (.inl hn)) (inv_formatRoot heap hroom).1

lemma inv_run (heap : Heap) {device : Ramdisk} (hroom : HasRoom device) {ops : List Op}
    (hnice : Along Op.apply Op.Nice (ext2Format heap device) ops) : Inv (run Op.apply (ext2Format heap device) ops) :=
  run_invariant (I := Inv) (fun _ op hi => inv_apply hi op) (inv_format heap hroom) hnice

/-! ### A small device -/

/-- A device of 56 blocks, with 14 inodes. The numbers 12, 13 and 14 are free after formatting: `ext2_format` asks for
`/home`, `/bin` and `/etc`, but `ext2_mkdir` makes no directory below the root. -/
def smallDevice : Ramdisk := ⟨Buf.zero, 56 * 1024, 512⟩

def zeroHeap : Heap := ⟨Buf.zero, fun _ => Inode.zero⟩

def Path.ofString (s : String) (h1 : (0 : UInt8) ∉ cstring s := by decide)
    (h2 : (cstring s).length < 256 := by decide) : Path := ⟨cstring s, h1, h2⟩

/-- Make `/home`, as inode 12 of the small device: `ext2_mkdir` keeps the name behind a second slash. -/
def Op.home : Op := .mkdir (.ofString "//home") 0o755

def Path.a : Path := .ofString "/a"

lemma hasRoom_smallDevice : HasRoom smallDevice := by
  refine ⟨⟨2, rfl⟩, ?_, ?_⟩ <;> decide

end VibeOS
