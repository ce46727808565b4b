import VibeOS.Ext2.Block

/-!
# What each operation can do

One inversion lemma for each path-level operation: `create_cases`, `mkdir_cases`, `unlink_cases`
and `write_cases` list every way the call can end, with the intermediate states named. All later
results about the operations start from these and never unfold the operations.
-/

namespace VibeOS

open Buf Ext2Filesystem

def flush (fs : Ext2Filesystem) : Ext2Filesystem := ext2WriteBitmaps (ext2WriteSuperblock fs)

def fileInode (old : Inode) (mode : UInt16) : Inode :=
  { old.setPtr 0 0 with
    mode := withType mode EXT2_S_IFREG
    uid := 0
    gid := 0
    size := 0
    linksCount := 1
    blocks := 0 }

/-- A new file before it has a name.
Source: `kernel/src/ext2_fs.c` `ext2_create` -/
def fileNode (fs : Ext2Filesystem) (n : Nat) (mode : UInt16) : Ext2Filesystem :=
  (markInode fs n).setInode n (fileInode (fs.inode n) mode)

def dirInode (fs : Ext2Filesystem) (n b : Nat) (mode : UInt16) : Inode :=
  { (fs.inode n).setPtr 0 b with
    mode := withType mode EXT2_S_IFDIR
    uid := 0
    gid := 0
    size := fs.superblock.blockSize
    linksCount := 2
    blocks := fs.superblock.blockSize / 512 }

/-- A new directory before it has a name.
Source: `kernel/src/ext2_fs.c` `ext2_mkdir` -/
def dirNode (fs : Ext2Filesystem) (n b parent : Nat) (mode : UInt16) : Ext2Filesystem :=
  ext2WriteBlock ((markBlock (markInode fs n) b).setInode n (dirInode fs n b mode)) b
    (dotBlock fs.bs n parent)

def incLinks (fs : Ext2Filesystem) (n : Nat) : Ext2Filesystem :=
  fs.setInode n { fs.inode n with linksCount := (fs.inode n).linksCount + 1 }

def FreeInode (fs : Ext2Filesystem) (n : Nat) : Prop :=
  1 ≤ n ∧ n ≤ fs.inodesCount ∧ fs.inodeUsed n = false

/-- A block `ext2_alloc_block` may hand out. -/
def FreeBlock (fs : Ext2Filesystem) (b : Nat) : Prop :=
  (fs.firstDataBlock ≤ b ∧ b < fs.blocksCount) ∧ fs.blockUsed b = false

/-- The request names a new entry `name` of the inode `p` its parent path leads to. -/
structure NewName (fs : Ext2Filesystem) (path : List UInt8) (p : Nat) (name : List UInt8) : Prop where
  name_eq : (splitParent path).2 = name
  name_ne : name ≠ []
  lookup : ext2LookupInode fs (splitParent path).1 = p
  parent_ne : p ≠ 0
  absent : findEntryInDir fs p name = 0

lemma create_cases (fs : Ext2Filesystem) (path : List UInt8) (mode : UInt16) : ext2Create fs path mode = (0, fs) ∨
    (∃ n, FreeInode fs n ∧ ext2Create fs path mode = (0, ext2FreeInodeNum (fileNode fs n mode) n)) ∨
    ∃ n p name fs1, FreeInode fs n ∧ path.head? = some slash ∧ NewName fs path p name ∧
      addEntryToDir (fileNode fs n mode) p n name 1 = some fs1 ∧
      ext2Create fs path mode = (n, flush (ext2WriteInode fs1 n)) := by
  by_cases h1 : path.head? ≠ some slash
  · left
    rw [ext2Create, if_pos h1]
  rcases hsplit : splitParent path with ⟨pp, name⟩
  by_cases h2 : name = []
  · left
    simp only [ext2Create, if_neg h1, hsplit, if_pos h2]
  by_cases h3 : ext2LookupInode fs pp = 0
  · left
    simp only [ext2Create, if_neg h1, hsplit, if_neg h2, if_pos h3]
  by_cases h4 : findEntryInDir fs (ext2LookupInode fs pp) name ≠ 0
  · left
    simp only [ext2Create, if_neg h1, hsplit, if_neg h2, if_neg h3, if_pos h4]
  have hnew : NewName fs path (ext2LookupInode fs pp) name :=
    ⟨by rw [hsplit], h2, by rw [hsplit], h3, not_not.mp h4⟩
  rcases allocInodeNum_cases fs with ⟨ha, -⟩ | ⟨n, hn1, hn2, hn3, ha⟩
  · left
    simp only [ext2Create, if_neg h1, hsplit, if_neg h2, if_neg h3, if_neg h4, ha, if_true]
  · right
    have hn0 : n ≠ 0 := by omega
    rcases hadd : addEntryToDir (fileNode fs n mode) (ext2LookupInode fs pp) n name 1 with _ | fs1
    · refine .inl ⟨n, ⟨by omega, hn2, hn3⟩, ?_⟩
      simp only [ext2Create, if_neg h1, hsplit, if_neg h2, if_neg h3, if_neg h4, ha, if_neg hn0]
      split <;> next h => cases hadd.symm.trans h <;> rfl
    · refine .inr ⟨n, _, name, fs1, ⟨by omega, hn2, hn3⟩, not_not.mp h1, hnew, hadd, ?_⟩
      simp only [ext2Create, if_neg h1, hsplit, if_neg h2, if_neg h3, if_neg h4, ha, if_neg hn0]
      split <;> next h => cases hadd.symm.trans h <;> rfl

variable {fs : Ext2Filesystem}

lemma create_existing {path : List UInt8} (mode : UInt16)
    (h : findEntryInDir fs (ext2LookupInode fs (splitParent path).1) (splitParent path).2 ≠ 0) :
    ext2Create fs path mode = (0, fs) := by
  rw [ext2Create]
  split_ifs with h1
  · rfl
  · dsimp only
    split_ifs <;> rfl

lemma mkdir_cases (hg : Geometry fs) (path : List UInt8) (mode : UInt16) :
    ext2Mkdir fs path mode = (0, fs) ∨ (∃ n, FreeInode fs n ∧
      ext2Mkdir fs path mode = (0, ext2FreeInodeNum (markInode fs n) n)) ∨ (∃ n b p, FreeInode fs n ∧ FreeBlock fs b ∧
      ext2Mkdir fs path mode = (0, ext2FreeInodeNum (ext2FreeBlock (dirNode fs n b p mode) b) n)) ∨
    ∃ n b p name fs1, FreeInode fs n ∧ FreeBlock fs b ∧ path.head? = some slash ∧
      (stripTrailing path).length < 256 ∧ NewName fs (stripTrailing path) p name ∧
      addEntryToDir (dirNode fs n b p mode) p n name 2 = some fs1 ∧ ext2Mkdir fs path mode =
        (n, flush (ext2WriteInode (ext2WriteInode (incLinks fs1 p) n) p)) := by
  by_cases h1 : path.head? ≠ some slash
  · left
    rw [ext2Mkdir, if_pos h1]
  by_cases h0 : (stripTrailing path).length ≥ 256
  · left
    rw [ext2Mkdir, if_neg h1, if_pos h0]
  rcases hsplit : splitDir (stripTrailing path) with ⟨pp, name⟩
  by_cases h2 : name = []
  · left
    simp only [ext2Mkdir, if_neg h1, if_neg h0, hsplit, if_pos h2]
  have hparent : splitParent (stripTrailing path) = (pp, name) := by
    rcases splitDir_cases (stripTrailing path) with h | h
    · rw [← h, hsplit]
    · rw [hsplit] at h
      exact absurd h h2
  by_cases h3 : ext2LookupInode fs pp = 0
  · left
    simp only [ext2Mkdir, if_neg h1, if_neg h0, hsplit, if_neg h2, if_pos h3]
  by_cases h4 : findEntryInDir fs (ext2LookupInode fs pp) name ≠ 0
  · left
    simp only [ext2Mkdir, if_neg h1, if_neg h0, hsplit, if_neg h2, if_neg h3, if_pos h4]
  have hnew : NewName fs (stripTrailing path) (ext2LookupInode fs pp) name :=
    ⟨by rw [hparent], h2, by rw [hparent], h3, not_not.mp h4⟩
  simp only [ext2Mkdir, if_neg h1, if_neg h0, hsplit, if_neg h2, if_neg h3, if_neg h4]
  rcases allocInodeNum_cases fs with ⟨ha, -⟩ | ⟨n, hn1, hn2, hn3, ha⟩
  · left
    simp only [ha, if_true]
  right
  have hn0 : n ≠ 0 := by omega
  rcases allocBlock_cases (markInode fs n) (hg.of_shape rfl) with
    ⟨hb, -⟩ | ⟨b, hb1, hb2, hfree, -, hb⟩
  · left
    refine ⟨n, ⟨by omega, hn2, hn3⟩, ?_⟩
    simp only [ha, if_neg hn0, hb, if_true]
  right
  have hb0 : b ≠ 0 := by
    have h5 : (markInode fs n).firstDataBlock = fs.firstDataBlock := rfl
    have h6 := hg.first_ge
    omega
  have hfb : FreeBlock fs b := ⟨⟨hb1, hb2⟩, hfree⟩
  rcases hadd : addEntryToDir (dirNode fs n b (ext2LookupInode fs pp) mode)
    (ext2LookupInode fs pp) n name 2 with _ | fs1
  · refine .inl ⟨n, b, ext2LookupInode fs pp, ⟨by omega, hn2, hn3⟩, hfb, ?_⟩
    simp only [ha, if_neg hn0, hb, if_neg hb0]
    split <;> next h => cases hadd.symm.trans h <;> rfl
  · refine .inr ⟨n, b, _, name, fs1, ⟨by omega, hn2, hn3⟩, hfb, not_not.mp h1, by omega, hnew, hadd, ?_⟩
    simp only [ha, if_neg hn0, hb, if_neg hb0]
    split <;> next h => cases hadd.symm.trans h <;> rfl

lemma mkdir_existing {path : List UInt8} (mode : UInt16)
    (h : findEntryInDir fs (ext2LookupInode fs (splitParent (stripTrailing path)).1)
      (splitParent (stripTrailing path)).2 ≠ 0) : ext2Mkdir fs path mode = (0, fs) := by
  rw [ext2Mkdir]
  split_ifs with h1 h2
  · rfl
  · rfl
  · dsimp only
    rcases splitDir_cases (stripTrailing path) with hs | hs
    · rw [hs]
      split_ifs <;> rfl
    · rw [if_pos hs]

/-- The request names the entry `name` of the inode `p`, and it was found to name `t`. -/
structure OldName (fs : Ext2Filesystem) (path : List UInt8) (p : Nat) (name : List UInt8) (t : Nat)
    (fs1 : Ext2Filesystem) : Prop where
  absolute : path.head? = some slash
  name_eq : (splitParent path).2 = name
  name_ne : name ≠ []
  lookup : ext2LookupInode fs (splitParent path).1 = p
  parent_ne : p ≠ 0
  removed : removeInBlocks fs (fs.inode p) name (List.range 12) = some (t, fs1)

variable (fs)

lemma unlink_cases (path : List UInt8) : ext2Unlink fs path = (-1, fs) ∨ ∃ p name t fs1, OldName fs path p name t fs1 ∧
      ((dirNotEmpty fs1 (fs1.inode t) ∧ ext2Unlink fs path = (-2, fs1)) ∨
        dirNotEmpty fs1 (fs1.inode t) = false ∧ ext2Unlink fs path = (0, unlinkTarget fs1 t)) := by
  by_cases h1 : path.head? ≠ some slash
  · left
    rw [ext2Unlink, if_pos h1]
  rcases hsplit : splitParent path with ⟨pp, name⟩
  by_cases h2 : name = []
  · left
    simp only [ext2Unlink, if_neg h1, hsplit, if_pos h2]
  by_cases h3 : ext2LookupInode fs pp = 0
  · left
    simp only [ext2Unlink, if_neg h1, hsplit, if_neg h2, if_pos h3]
  rcases hrem : removeInBlocks fs (fs.inode (ext2LookupInode fs pp)) name (List.range 12) with
    _ | ⟨t, fs1⟩
  · left
    simp only [ext2Unlink, if_neg h1, hsplit, if_neg h2, if_neg h3, hrem]
  · right
    refine ⟨_, name, t, fs1, ⟨not_not.mp h1, by rw [hsplit], h2, by rw [hsplit], h3, hrem⟩, ?_⟩
    rcases hne : dirNotEmpty fs1 (fs1.inode t) with _ | _
    · right
      simp only [ext2Unlink, if_neg h1, hsplit, if_neg h2, if_neg h3, hrem, hne, true_and]
      rfl
    · left
      simp only [ext2Unlink, if_neg h1, hsplit, if_neg h2, if_neg h3, hrem, hne, true_and, if_true]

/-- The size `ext2_write` leaves in memory. -/
def growSize (n size : Nat) : Ext2Filesystem :=
  if size > (fs.inode n).size.toNat then
    fs.setInode n { fs.inode n with size := UInt32.ofNat size }
  else fs

lemma write_cases (n : Nat) (offset : UInt32) (data : List UInt8) :
    ((n ≥ fs.inodesCount ∨ (fs.inode n).isDir = true) ∧ ext2Write fs n offset data = (-1, fs)) ∨
    ∃ done fs1, n < fs.inodesCount ∧ (fs.inode n).isDir = false ∧
      writeLoop n offset.toNat data (mapLimit fs + 1) fs 0 = (done, fs1) ∧ ext2Write fs n offset data =
        ((done : Int), flush (ext2WriteInode (growSize fs1 n (offset.toNat + done)) n)) := by
  by_cases h1 : n ≥ fs.inodesCount
  · exact .inl ⟨.inl h1, by rw [ext2Write, if_pos h1]⟩
  by_cases h2 : (fs.inode n).isDir = true
  · exact .inl ⟨.inr h2, by rw [ext2Write, if_neg h1, if_pos h2]⟩
  · right
    rcases hloop : writeLoop n offset.toNat data (mapLimit fs + 1) fs 0 with ⟨done, fs1⟩
    refine ⟨done, fs1, by omega, by simpa using h2, rfl, ?_⟩
    simp only [ext2Write, if_neg h1, if_neg h2, hloop]
    rfl

lemma truncate_cases (path : List UInt8) : ext2Truncate fs path = (-1, fs) ∨
    ∃ n, ext2LookupInode fs path = n ∧ n ≠ 0 ∧ n < fs.inodesCount ∧ ext2Truncate fs path =
        (0, ext2WriteInode (fs.setInode n { fs.inode n with size := 0 }) n) := by
  by_cases h : ext2LookupInode fs path = 0 ∨ ext2LookupInode fs path ≥ fs.inodesCount
  · left
    simp only [ext2Truncate, if_pos h]
  · right
    refine ⟨_, rfl, by tauto, by omega, ?_⟩
    simp only [ext2Truncate, if_neg h]

variable {fs}

end VibeOS
