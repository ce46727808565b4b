import VibeOS.Ext2.Ops

/-!
# Block I/O, and what each primitive step changes

A filesystem is seen through five functions: `inode`, `inodeUsed`, `blockUsed`, `ext2ReadBlock`
and the superblock. Every primitive step of `ext2_fs.c` changes one of them at one place, and the
lemmas here say so (`readBlock_writeBlock`, `inode_setInode`, `allocBlock_cases` and so on); later
proofs work with these and never unfold the steps. What never changes after formatting is
collected in `shape`, and `Geometry` is what `ext2_format` establishes about it.
-/

namespace VibeOS

open List

open Buf Ext2Filesystem

/-! ### The part of the state that never changes -/

/-- The superblock without its two counters. -/
def Superblock.static (sb : Superblock) : Superblock := { sb with freeBlocks := 0, freeInodes := 0 }

/-- Everything that stays as `ext2_format` left it. -/
def Ext2Filesystem.shape (fs : Ext2Filesystem) : Superblock × Nat × Nat :=
  (fs.superblock.static, fs.device.blockSize, fs.device.size)

/-- The geometry `ext2_format` establishes on a device with room for the metadata. -/
structure Geometry (fs : Ext2Filesystem) : Prop where
  bs_eq : fs.bs = 1024
  dev_dvd : fs.device.blockSize ∣ 1024
  inodes_ge : 2 ≤ fs.inodesCount
  inodes_le : fs.inodesCount ≤ 1024
  first_eq : fs.firstDataBlock = 2 + bbBlks fs + 1 + inodeTableBlocks fs
  first_lt : fs.firstDataBlock < fs.blocksCount

section shape

variable {fs fs' : Ext2Filesystem}

section

variable (h : fs'.shape = fs.shape)

include h

lemma bs_of_shape : fs'.bs = fs.bs :=
  congrArg (fun s => s.1.blockSize.toNat) h

lemma inodesCount_of_shape : fs'.inodesCount = fs.inodesCount :=
  congrArg (fun s => s.1.inodesCount.toNat) h

lemma blocksCount_of_shape : fs'.blocksCount = fs.blocksCount :=
  congrArg (fun s => s.1.blocksCount.toNat) h

lemma firstDataBlock_of_shape : fs'.firstDataBlock = fs.firstDataBlock :=
  congrArg (fun s => s.1.firstDataBlock.toNat) h

lemma devBlockSize_of_shape : fs'.device.blockSize = fs.device.blockSize :=
  congrArg (fun s => s.2.1) h

lemma bbBlks_of_shape : bbBlks fs' = bbBlks fs := by
  rw [bbBlks, bbBlks, blocksCount_of_shape h, bs_of_shape h]

lemma inodeTableBlocks_of_shape : inodeTableBlocks fs' = inodeTableBlocks fs := by
  rw [inodeTableBlocks, inodeTableBlocks, inodesCount_of_shape h, bs_of_shape h]

end

lemma Geometry.of_shape (hg : Geometry fs) (h : fs'.shape = fs.shape) : Geometry fs' where
  bs_eq := by rw [bs_of_shape h, hg.bs_eq]
  dev_dvd := by rw [devBlockSize_of_shape h]; exact hg.dev_dvd
  inodes_ge := by rw [inodesCount_of_shape h]; exact hg.inodes_ge
  inodes_le := by rw [inodesCount_of_shape h]; exact hg.inodes_le
  first_eq := by
    rw [firstDataBlock_of_shape h, bbBlks_of_shape h, inodeTableBlocks_of_shape h, hg.first_eq]
  first_lt := by rw [firstDataBlock_of_shape h, blocksCount_of_shape h]; exact hg.first_lt

lemma Geometry.ptrs_eq (hg : Geometry fs) : fs.ptrs = 256 := by rw [ptrs, hg.bs_eq]

lemma Geometry.mapLimit_eq (hg : Geometry fs) : mapLimit fs = 65804 := by
  rw [mapLimit, hg.ptrs_eq]

lemma Geometry.first_ge (hg : Geometry fs) : 4 ≤ fs.firstDataBlock := by
  have h1 := hg.first_eq
  have h2 := hg.inodes_ge
  rw [inodeTableBlocks, hg.bs_eq, INODE_SIZE] at h1
  omega

lemma Geometry.blocksCount_lt (fs : Ext2Filesystem) : fs.blocksCount < 2 ^ 32 :=
  fs.superblock.blocksCount.toNat_lt

end shape

/-! ### Reading and writing blocks -/

/-- A block buffer holds `1024` bytes; what the model's function has past them reads as zero. -/
def trunc (b : Buf) : Buf := fun k => if k < 1024 then b k else 0

lemma trunc_of_lt {b : Buf} {k : Nat} (h : k < 1024) : trunc b k = b k := if_pos h

variable {fs : Ext2Filesystem}

lemma readBlock_of_ge (hg : Geometry fs) {n k : Nat} (h : 1024 ≤ k) :
    ext2ReadBlock fs n k = 0 := by
  rw [ext2ReadBlock, ramdiskRead, hg.bs_eq, if_neg (by omega)]

lemma readBlock_of_lt (hg : Geometry fs) {n k : Nat} (h : k < 1024) :
    ext2ReadBlock fs n k = fs.device.data (n * 1024 + k) := by
  rw [ext2ReadBlock, ramdiskRead, hg.bs_eq, if_pos h, Nat.div_mul_cancel (Dvd.dvd.mul_left hg.dev_dvd n)]

@[simp] lemma shape_writeBlock (fs : Ext2Filesystem) (n : Nat) (b : Buf) :
    (ext2WriteBlock fs n b).shape = fs.shape := rfl

@[simp] lemma inode_writeBlock (fs : Ext2Filesystem) (n : Nat) (b : Buf) (m : Nat) :
    (ext2WriteBlock fs n b).inode m = fs.inode m := rfl

@[simp] lemma inodeUsed_writeBlock (fs : Ext2Filesystem) (n : Nat) (b : Buf) (m : Nat) :
    (ext2WriteBlock fs n b).inodeUsed m = fs.inodeUsed m := rfl

lemma readBlock_writeBlock (hg : Geometry fs) (n m : Nat) (b : Buf) :
    ext2ReadBlock (ext2WriteBlock fs n b) m = if m = n then trunc b else ext2ReadBlock fs m := by
  have hg' : Geometry (ext2WriteBlock fs n b) := hg.of_shape rfl
  funext k
  by_cases hk : k < 1024
  · rw [readBlock_of_lt hg' hk]
    simp only [ext2WriteBlock, ramdiskWrite, hg.bs_eq, Nat.div_mul_cancel (Dvd.dvd.mul_left hg.dev_dvd n)]
    by_cases hmn : m = n
    · subst hmn
      rw [if_pos rfl, trunc_of_lt hk, blit_add hk]
    · rw [if_neg hmn, blit_of_not_mem (by omega), readBlock_of_lt hg hk]
  · rw [readBlock_of_ge hg' (by omega)]
    split_ifs
    · rw [trunc, if_neg hk]
    · rw [readBlock_of_ge hg (by omega)]

lemma readBlock_writeBlock_self (hg : Geometry fs) (n : Nat) (b : Buf) :
    ext2ReadBlock (ext2WriteBlock fs n b) n = trunc b := by
  rw [readBlock_writeBlock hg, if_pos rfl]

lemma readBlock_writeBlock_of_ne (hg : Geometry fs) {n m : Nat} (b : Buf)
    (h : m ≠ n) : ext2ReadBlock (ext2WriteBlock fs n b) m = ext2ReadBlock fs m := by
  rw [readBlock_writeBlock hg, if_neg h]

/-! ### Inodes -/

lemma inodeIdx_of_pos {n : Nat} (h : 1 ≤ n) : inodeIdx n = n - 1 := if_neg (by omega)

lemma ptr_eq_of_block {a b : Inode} (h : a.block = b.block) : a.ptr = b.ptr := by
  funext i
  rw [Inode.ptr, Inode.ptr, h]

lemma isDir_eq_of_mode {a b : Inode} (h : a.mode = b.mode) : a.isDir = b.isDir := by
  rw [Inode.isDir, Inode.isDir, h]

lemma ptr_setPtr_self (ino : Inode) {i p : Nat} (hi : i < 15) (hp : p < 2 ^ 32) : (ino.setPtr i p).ptr i = p := by
  simp only [Inode.ptr, Inode.setPtr, hi, dif_pos, if_true]
  exact UInt32.toNat_ofNat_of_lt' hp

lemma ptr_setPtr_of_ne (ino : Inode) {i j p : Nat} (h : j ≠ i) : (ino.setPtr i p).ptr j = ino.ptr j := by
  simp only [Inode.ptr, Inode.setPtr, h, if_false]

@[simp] lemma shape_setInode (fs : Ext2Filesystem) (n : Nat) (ino : Inode) : (fs.setInode n ino).shape = fs.shape := rfl

@[simp] lemma blockUsed_setInode (fs : Ext2Filesystem) (n : Nat) (ino : Inode) (b : Nat) :
    (fs.setInode n ino).blockUsed b = fs.blockUsed b := rfl

@[simp] lemma inodeUsed_setInode (fs : Ext2Filesystem) (n : Nat) (ino : Inode) (m : Nat) :
    (fs.setInode n ino).inodeUsed m = fs.inodeUsed m := rfl

@[simp] lemma readBlock_setInode (fs : Ext2Filesystem) (n : Nat) (ino : Inode) (b : Nat) :
    ext2ReadBlock (fs.setInode n ino) b = ext2ReadBlock fs b := rfl

@[simp] lemma inode_setInode_self (fs : Ext2Filesystem) (n : Nat) (ino : Inode) :
    (fs.setInode n ino).inode n = ino := by simp [setInode, inode]

lemma inode_setInode_of_ne (fs : Ext2Filesystem) {n m : Nat} (ino : Inode) (hn : 1 ≤ n)
    (hm : 1 ≤ m) (h : m ≠ n) : (fs.setInode n ino).inode m = fs.inode m := by
  have : inodeIdx m ≠ inodeIdx n := by
    rw [inodeIdx_of_pos hn, inodeIdx_of_pos hm]; omega
  simp [setInode, inode, this]

lemma inodeUsed_range {n : Nat} (h : fs.inodeUsed n) : 1 ≤ n ∧ n ≤ fs.inodesCount := by
  simp only [inodeUsed, Bool.and_eq_true, decide_eq_true_eq] at h
  exact h.1

/-! ### Allocation -/

def markBlock (fs : Ext2Filesystem) (b : Nat) : Ext2Filesystem :=
  { fs with
    blockBitmap := Bitmap.setBit fs.blockBitmap b
    superblock := { fs.superblock with freeBlocks := fs.superblock.freeBlocks - 1 } }

def markInode (fs : Ext2Filesystem) (n : Nat) : Ext2Filesystem :=
  { fs with
    inodeBitmap := Bitmap.setBit fs.inodeBitmap (n - 1)
    superblock := { fs.superblock with freeInodes := fs.superblock.freeInodes - 1 } }

/-- What `ext2_alloc_block` does: nothing, or it takes a clear block of the data area. -/
lemma allocBlock_cases (fs : Ext2Filesystem) (hg : Geometry fs) : (ext2AllocBlock fs = (0, fs) ∧
        ∀ b, fs.firstDataBlock ≤ b → b < fs.blocksCount → fs.blockUsed b) ∨
    ∃ b, fs.firstDataBlock ≤ b ∧ b < fs.blocksCount ∧ fs.blockUsed b = false ∧
      (∀ k, fs.firstDataBlock ≤ k → k < b → fs.blockUsed k) ∧ ext2AllocBlock fs = (b, markBlock fs b) := by
  have hlt := hg.first_lt
  have hge := hg.first_ge
  rw [ext2AllocBlock, if_neg (by omega)]
  rcases h : Bitmap.firstClear fs.blockBitmap fs.firstDataBlock (fs.blocksCount - fs.firstDataBlock) with _ | b
  · left
    refine ⟨rfl, fun b h1 h2 => ?_⟩
    exact Bitmap.firstClear_none h b h1 (by omega)
  · right
    obtain ⟨h1, h2, h3, h4⟩ := Bitmap.firstClear_some h
    exact ⟨b, h1, by omega, h3, h4, rfl⟩

/-- What `ext2_alloc_inode_num` does: nothing, or it takes a clear inode past the reserved ones. -/
lemma allocInodeNum_cases (fs : Ext2Filesystem) : (ext2AllocInodeNum fs = (0, fs) ∧
        ∀ n, 12 ≤ n → n ≤ fs.inodesCount → fs.inodeUsed n) ∨
    ∃ n, 12 ≤ n ∧ n ≤ fs.inodesCount ∧ fs.inodeUsed n = false ∧ ext2AllocInodeNum fs = (n, markInode fs n) := by
  rw [ext2AllocInodeNum]
  rcases h : Bitmap.firstClear fs.inodeBitmap 11 (fs.inodesCount - 11) with _ | i
  · left
    refine ⟨rfl, fun n h1 h2 => ?_⟩
    have := Bitmap.firstClear_none h (n - 1) (by omega) (by omega)
    simp [inodeUsed, this, h2, show 1 ≤ n by omega]
  · right
    obtain ⟨h1, h2, h3, -⟩ := Bitmap.firstClear_some h
    refine ⟨i + 1, by omega, by omega, ?_, rfl⟩
    simp [inodeUsed, h3]

section mark

variable (fs : Ext2Filesystem) (b n : Nat)

@[simp] lemma shape_markBlock : (markBlock fs b).shape = fs.shape := rfl

@[simp] lemma inode_markBlock (m : Nat) : (markBlock fs b).inode m = fs.inode m := rfl

lemma blockUsed_markBlock (m : Nat) : (markBlock fs b).blockUsed m = (decide (m = b) || fs.blockUsed m) :=
  Bitmap.bit_setBit _ _ _

@[simp] lemma shape_markInode : (markInode fs n).shape = fs.shape := rfl

@[simp] lemma inode_markInode (m : Nat) : (markInode fs n).inode m = fs.inode m := rfl

@[simp] lemma blockUsed_markInode (m : Nat) : (markInode fs n).blockUsed m = fs.blockUsed m := rfl

@[simp] lemma readBlock_markInode (m : Nat) : ext2ReadBlock (markInode fs n) m = ext2ReadBlock fs m := rfl

lemma inodeUsed_markInode {n : Nat} (h1 : 1 ≤ n) (h2 : n ≤ fs.inodesCount) (m : Nat) :
    (markInode fs n).inodeUsed m = (decide (m = n) || fs.inodeUsed m) := by
  have hc : (markInode fs n).inodesCount = fs.inodesCount := rfl
  simp only [inodeUsed, hc]
  by_cases hm : 1 ≤ m ∧ m ≤ fs.inodesCount
  · have : decide (m - 1 = n - 1) = decide (m = n) := by
      rw [decide_eq_decide]; omega
    simp only [hm, and_self, decide_true, Bool.true_and, markInode, Bitmap.bit_setBit, this]
  · have hne : m ≠ n := by rintro rfl; exact hm ⟨h1, h2⟩
    simp [hm, hne]

@[simp] lemma shape_freeBlock : (ext2FreeBlock fs b).shape = fs.shape := by
  rw [ext2FreeBlock]; split_ifs <;> rfl

@[simp] lemma inode_freeBlock (m : Nat) : (ext2FreeBlock fs b).inode m = fs.inode m := by
  rw [ext2FreeBlock]; split_ifs <;> rfl

@[simp] lemma inodeUsed_freeBlock (m : Nat) : (ext2FreeBlock fs b).inodeUsed m = fs.inodeUsed m := by
  rw [ext2FreeBlock]; split_ifs <;> rfl

@[simp] lemma readBlock_freeBlock (m : Nat) : ext2ReadBlock (ext2FreeBlock fs b) m = ext2ReadBlock fs m := by
  rw [ext2FreeBlock]; split_ifs <;> rfl

lemma blockUsed_freeBlock {b : Nat} (h : b < fs.blocksCount) (m : Nat) :
    (ext2FreeBlock fs b).blockUsed m = (decide (m ≠ b) && fs.blockUsed m) := by
  rw [ext2FreeBlock, if_pos h]
  exact Bitmap.bit_clearBit _ _ _

@[simp] lemma shape_freeInodeNum : (ext2FreeInodeNum fs n).shape = fs.shape := by
  rw [ext2FreeInodeNum]; split_ifs <;> rfl

@[simp] lemma inode_freeInodeNum (m : Nat) : (ext2FreeInodeNum fs n).inode m = fs.inode m := by
  rw [ext2FreeInodeNum]; split_ifs <;> rfl

@[simp] lemma blockUsed_freeInodeNum (m : Nat) : (ext2FreeInodeNum fs n).blockUsed m = fs.blockUsed m := by
  rw [ext2FreeInodeNum]; split_ifs <;> rfl

@[simp] lemma readBlock_freeInodeNum (m : Nat) : ext2ReadBlock (ext2FreeInodeNum fs n) m = ext2ReadBlock fs m := by
  rw [ext2FreeInodeNum]; split_ifs <;> rfl

lemma inodeUsed_freeInodeNum {n : Nat} (h1 : 1 ≤ n) (h2 : n ≤ fs.inodesCount) (m : Nat) :
    (ext2FreeInodeNum fs n).inodeUsed m = (decide (m ≠ n) && fs.inodeUsed m) := by
  have hc : (ext2FreeInodeNum fs n).inodesCount = fs.inodesCount :=
    inodesCount_of_shape (shape_freeInodeNum fs n)
  have hb : (ext2FreeInodeNum fs n).inodeBitmap = Bitmap.clearBit fs.inodeBitmap (n - 1) := by
    rw [ext2FreeInodeNum, if_pos ⟨by omega, h2⟩]
  simp only [inodeUsed, hc, hb]
  by_cases hm : 1 ≤ m ∧ m ≤ fs.inodesCount
  · have : decide (m - 1 ≠ n - 1) = decide (m ≠ n) := by
      rw [decide_eq_decide]; omega
    simp only [hm, and_self, decide_true, Bool.true_and, Bitmap.bit_clearBit, this]
  · simp [hm]

end mark

/-! ### Write-back touches metadata blocks only -/

section

variable {fs : Ext2Filesystem}

lemma inodeBlockNum_lt (hg : Geometry fs) {n : Nat} (h1 : 1 ≤ n) (h2 : n ≤ fs.inodesCount) :
    inodeBlockNum fs n < fs.firstDataBlock := by
  rw [hg.first_eq, inodeBlockNum, inodeTableBlocks, inodeIdx_of_pos h1, hg.bs_eq, INODE_SIZE]
  omega

@[simp] lemma shape_writeInode (n : Nat) : (ext2WriteInode fs n).shape = fs.shape := by
  rw [ext2WriteInode]; split_ifs <;> rfl

@[simp] lemma inode_writeInode (n m : Nat) : (ext2WriteInode fs n).inode m = fs.inode m := by
  rw [ext2WriteInode]; split_ifs <;> rfl

lemma readBlock_writeInode (hg : Geometry fs) (n : Nat) {b : Nat} (hb : fs.firstDataBlock ≤ b) :
    ext2ReadBlock (ext2WriteInode fs n) b = ext2ReadBlock fs b := by
  rw [ext2WriteInode]
  split_ifs with h
  · rfl
  · have := inodeBlockNum_lt hg (n := n) (by omega) (by omega)
    exact readBlock_writeBlock_of_ne hg _ (by omega)

@[simp] lemma shape_writeSuperblock : (ext2WriteSuperblock fs).shape = fs.shape := rfl

@[simp] lemma inode_writeSuperblock (m : Nat) : (ext2WriteSuperblock fs).inode m = fs.inode m := rfl

lemma readBlock_writeSuperblock (hg : Geometry fs) {b : Nat} (hb : fs.firstDataBlock ≤ b) :
    ext2ReadBlock (ext2WriteSuperblock fs) b = ext2ReadBlock fs b := by
  have := hg.first_ge
  exact readBlock_writeBlock_of_ne hg _ (by omega)

lemma foldl_writeBlock_memory (pos : Nat → Nat) (buf : Nat → Buf) (l : List Nat)
    (fs : Ext2Filesystem) :
    let fs' := l.foldl (fun f i => ext2WriteBlock f (pos i) (buf i)) fs
    fs'.shape = fs.shape ∧ fs'.superblock = fs.superblock ∧ fs'.blockBitmap = fs.blockBitmap ∧
      fs'.inodeBitmap = fs.inodeBitmap ∧ fs'.inodeTable = fs.inodeTable := by
  induction l generalizing fs with
  | nil => exact ⟨rfl, rfl, rfl, rfl, rfl⟩
  | cons i l ih => exact ih (ext2WriteBlock fs (pos i) (buf i))

lemma readBlock_foldl_writeBlock (pos : Nat → Nat) (buf : Nat → Buf) (l : List Nat)
    (fs : Ext2Filesystem) (hg : Geometry fs) {b : Nat} (hb : ∀ i ∈ l, b ≠ pos i) :
    ext2ReadBlock (l.foldl (fun f i => ext2WriteBlock f (pos i) (buf i)) fs) b = ext2ReadBlock fs b := by
  induction l generalizing fs with
  | nil => rfl
  | cons i l ih =>
    rw [foldl_cons, ih _ (hg.of_shape (shape_writeBlock fs (pos i) (buf i))) fun j hj => hb j
      (mem_cons_of_mem _ hj), readBlock_writeBlock_of_ne hg _ (hb i mem_cons_self)]

lemma writeBitmaps_memory (fs : Ext2Filesystem) :
    (ext2WriteBitmaps fs).shape = fs.shape ∧ (ext2WriteBitmaps fs).superblock = fs.superblock ∧
      (ext2WriteBitmaps fs).blockBitmap = fs.blockBitmap ∧ (ext2WriteBitmaps fs).inodeBitmap = fs.inodeBitmap ∧
      (ext2WriteBitmaps fs).inodeTable = fs.inodeTable :=
  foldl_writeBlock_memory (fun i => 2 + i) (blockBitmapBlock fs) (List.range (bbBlks fs)) fs

@[simp] lemma shape_writeBitmaps : (ext2WriteBitmaps fs).shape = fs.shape :=
  (writeBitmaps_memory fs).1

@[simp] lemma inode_writeBitmaps (m : Nat) : (ext2WriteBitmaps fs).inode m = fs.inode m := by
  rw [inode, inode, (writeBitmaps_memory fs).2.2.2.2]

lemma readBlock_writeBitmaps (hg : Geometry fs) {b : Nat} (hb : fs.firstDataBlock ≤ b) :
    ext2ReadBlock (ext2WriteBitmaps fs) b = ext2ReadBlock fs b := by
  have hfirst := hg.first_eq
  have hshape := (foldl_writeBlock_memory (fun i => 2 + i) (blockBitmapBlock fs) (List.range (bbBlks fs)) fs).1
  rw [ext2WriteBitmaps, readBlock_writeBlock_of_ne (hg.of_shape hshape) _ (by omega),
    readBlock_foldl_writeBlock _ _ _ _ hg]
  intro i hi
  have := mem_range.mp hi
  omega

end

/-- Writing metadata back: memory and the data area stay as they are. -/
structure WriteBack (fs fs' : Ext2Filesystem) : Prop where
  shape : fs'.shape = fs.shape
  superblock : fs'.superblock = fs.superblock
  blockBitmap : fs'.blockBitmap = fs.blockBitmap
  inodeBitmap : fs'.inodeBitmap = fs.inodeBitmap
  inodeTable : fs'.inodeTable = fs.inodeTable
  data : ∀ b, fs.firstDataBlock ≤ b → ext2ReadBlock fs' b = ext2ReadBlock fs b

namespace WriteBack

variable {fs fs' fs'' : Ext2Filesystem}

lemma trans (h1 : WriteBack fs fs') (h2 : WriteBack fs' fs'') : WriteBack fs fs'' where
  shape := by rw [h2.shape, h1.shape]
  superblock := by rw [h2.superblock, h1.superblock]
  blockBitmap := by rw [h2.blockBitmap, h1.blockBitmap]
  inodeBitmap := by rw [h2.inodeBitmap, h1.inodeBitmap]
  inodeTable := by rw [h2.inodeTable, h1.inodeTable]
  data b hb := by
    rw [h2.data b (by rw [firstDataBlock_of_shape h1.shape]; exact hb), h1.data b hb]

lemma inode (h : WriteBack fs fs') (m : Nat) : fs'.inode m = fs.inode m := by
  rw [Ext2Filesystem.inode, Ext2Filesystem.inode, h.inodeTable]

lemma inodeUsed (h : WriteBack fs fs') (m : Nat) : fs'.inodeUsed m = fs.inodeUsed m := by
  rw [Ext2Filesystem.inodeUsed, Ext2Filesystem.inodeUsed, h.inodeBitmap, inodesCount_of_shape h.shape]

lemma blockUsed (h : WriteBack fs fs') (b : Nat) : fs'.blockUsed b = fs.blockUsed b := by
  rw [Ext2Filesystem.blockUsed, Ext2Filesystem.blockUsed, h.blockBitmap]

lemma writeInode (hg : Geometry fs) (n : Nat) : WriteBack fs (ext2WriteInode fs n) := by
  refine ⟨shape_writeInode n, ?_, ?_, ?_, ?_, fun b hb => readBlock_writeInode hg n hb⟩ <;>
    · rw [ext2WriteInode]
      split_ifs <;> rfl

lemma writeSuperblock (hg : Geometry fs) : WriteBack fs (ext2WriteSuperblock fs) :=
  ⟨rfl, rfl, rfl, rfl, rfl, fun _ hb => readBlock_writeSuperblock hg hb⟩

lemma writeBitmaps (hg : Geometry fs) : WriteBack fs (ext2WriteBitmaps fs) :=
  have h := writeBitmaps_memory fs
  ⟨h.1, h.2.1, h.2.2.1, h.2.2.2.1, h.2.2.2.2, fun _ hb => readBlock_writeBitmaps hg hb⟩

lemma flush (hg : Geometry fs) : WriteBack fs (ext2WriteBitmaps (ext2WriteSuperblock fs)) :=
  (writeSuperblock hg).trans (writeBitmaps (hg.of_shape rfl))

end WriteBack

end VibeOS
