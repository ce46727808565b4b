import VibeOS.Lib.Ownership
import VibeOS.Ext2.Block

/-!
# Pointer slots: who owns which block

A `Slot` is a place that holds a block pointer: one of the fourteen pointers of an inode that the
code uses, or an entry of a pointer table that another slot points to. `own fs σ` is the block
number stored there. The stale `block[0]` a failed `ext2_mkdir` leaves behind in an inode that is
not in use does not count: both ways of reusing the inode overwrite it.

`Grows n T fs fs'` is what growing file `n` may do to a filesystem: take unmarked blocks into empty slots of `n`,
and touch no block that was in use except those of the slots `T`.
-/

namespace VibeOS

open Buf Ext2Filesystem Ownership

/-! ### Slots -/

/-- A place for a block number, in an inode or in a table of pointers. -/
inductive Slot where
  /-- `inode_table[i - 1].block[k]` -/
  | root (i k : Nat)
  /-- Entry `j` of the pointer table that slot `p` points to. -/
  | child (p : Slot) (j : Nat)
  deriving DecidableEq

namespace Slot

def inode : Slot → Nat
  | root i _ => i
  | child p _ => p.inode

/-- The number of table levels below a slot: `0` for a data block. -/
def level : Slot → Nat
  | root _ k => if k = 12 then 1 else if k = 13 then 2 else 0
  | child p _ => p.level - 1

end Slot

/-- The block number a slot holds, `0` for none. -/
def own (fs : Ext2Filesystem) : Slot → Nat
  | .root i k =>
    if 1 ≤ i ∧ i ≤ fs.inodesCount ∧ k < 14 ∧ (k = 0 → fs.inodeUsed i = true) then
      (fs.inode i).ptr k
    else 0
  | .child p j => if 0 < p.level ∧ j < 256 ∧ own fs p ≠ 0 then ext2PtrGet fs (own fs p) j else 0

/-- The slot of logical block `bi` of file `n`.
Source: `kernel/src/ext2_fs.c` `ext2_bmap_alloc` -/
def dataSlot (n bi : Nat) : Slot :=
  if bi < 12 then .root n bi
  else if bi < 268 then .child (.root n 12) (bi - 12)
  else .child (.child (.root n 13) ((bi - 268) / 256)) ((bi - 268) % 256)

variable {k j t m : Nat}
variable {p σ0 : Slot}

section own

variable {fs fs' : Ext2Filesystem}

lemma own_root_of_used {i : Nat} (h : fs.inodeUsed i) (hk : k < 14) : own fs (.root i k) = (fs.inode i).ptr k := by
  have hr := inodeUsed_range h
  rw [own, if_pos ⟨hr.1, hr.2, hk, fun _ => h⟩]

lemma own_child_of_zero (h : own fs p = 0) (j : Nat) : own fs (.child p j) = 0 := by
  rw [own, if_neg (by simp [h])]

lemma own_child_of_table (hp : 0 < p.level) (hj : j < 256)
    (h : own fs p ≠ 0) : own fs (.child p j) = ext2PtrGet fs (own fs p) j := by
  rw [own, if_pos ⟨hp, hj, h⟩]

lemma ptrGet_congr (h : ext2ReadBlock fs' t = ext2ReadBlock fs t) : ext2PtrGet fs' t j = ext2PtrGet fs t j := by
  rw [ext2PtrGet, ext2PtrGet, h]

/-- Slots are unchanged when the inodes' pointers and the contents of the pointer tables are. -/
lemma own_congr (hroot : ∀ i k, own fs' (.root i k) = own fs (.root i k))
    (htab : ∀ τ : Slot, 0 < τ.level → own fs τ ≠ 0 →
      ext2ReadBlock fs' (own fs τ) = ext2ReadBlock fs (own fs τ)) (σ : Slot) : own fs' σ = own fs σ := by
  induction σ with
  | root i k => exact hroot i k
  | child p j ih =>
    rw [own, own, ih]
    split_ifs with hc
    · exact ptrGet_congr (htab p hc.1 hc.2.2)
    · rfl

lemma own_root_congr (hshape : fs'.shape = fs.shape) (hused : ∀ m, fs'.inodeUsed m = fs.inodeUsed m)
    (hptr : ∀ i, 1 ≤ i → (fs'.inode i).ptr = (fs.inode i).ptr) (i k : Nat) :
    own fs' (.root i k) = own fs (.root i k) := by
  rw [own, own, inodesCount_of_shape hshape, hused]
  split_ifs with hc
  · rw [hptr i hc.1]
  · rfl

lemma Slot.ne_child (p : Slot) (j : Nat) : p ≠ .child p j := fun h => by
  have := congrArg sizeOf h
  simp only [Slot.child.sizeOf_spec] at this
  omega

/-- Filling one empty slot. A new table must start out zeroed. For the new value of the slot the
table that holds it may be taken to be unchanged. -/
lemma own_assign {b : Nat} (h0 : own fs σ0 = 0) (h0' : (∀ p j, σ0 = .child p j → own fs' p = own fs p) → own fs' σ0 = b)
    (hroot : ∀ i k, Slot.root i k ≠ σ0 → own fs' (.root i k) = own fs (.root i k))
    (htab : ∀ (p : Slot) (j : Nat), Slot.child p j ≠ σ0 → 0 < p.level → j < 256 → own fs p ≠ 0 →
      ext2PtrGet fs' (own fs p) j = ext2PtrGet fs (own fs p) j)
    (hzero : 0 < σ0.level → ∀ j < 256, ext2PtrGet fs' b j = 0) (σ : Slot) :
    own fs' σ = if σ = σ0 then b else own fs σ := by
  induction σ with
  | root i k =>
    split_ifs with heq
    · rw [heq]
      exact h0' fun p j hσ => by rw [← heq] at hσ; cases hσ
    · exact hroot i k heq
  | child p j ih =>
    split_ifs with heq
    · rw [heq]
      refine h0' fun q i hσ => ?_
      obtain ⟨rfl, rfl⟩ : p = q ∧ j = i := by rw [← heq] at hσ; injection hσ; exact ⟨‹_›, ‹_›⟩
      rw [ih, if_neg (hσ ▸ Slot.ne_child p j)]
    · by_cases hp : p = σ0
      · -- entries of the new table
        have hz : own fs (.child p j) = 0 := own_child_of_zero (hp ▸ h0) j
        rw [hz, own, ih]
        split_ifs with hc
        · exact hzero (hp ▸ hc.1) j hc.2.1
        · rfl
      · rw [own, own, ih]
        split_ifs with hc
        · exact htab p j heq hc.1 hc.2.1 hc.2.2
        · rfl

end own

/-! ### The ownership invariant -/

/-- No block is owned twice; owned blocks are marked and lie in the data area. -/
def Owned (fs : Ext2Filesystem) : Prop :=
  Exclusive (own fs) fs.blockUsed fs.firstDataBlock fs.blocksCount

/-- `free_blocks` is the number of clear bits of the block bitmap. -/
def FreeBlocksOk (fs : Ext2Filesystem) : Prop :=
  Bitmap.Counts fs.blockBitmap fs.blocksCount fs.superblock.freeBlocks

/-- `free_inodes` is the number of clear bits of the inode bitmap. -/
def FreeInodesOk (fs : Ext2Filesystem) : Prop :=
  Bitmap.Counts fs.inodeBitmap fs.inodesCount fs.superblock.freeInodes

section counters

variable {fs : Ext2Filesystem} {b n : Nat}

lemma FreeBlocksOk.markBlock (h : FreeBlocksOk fs) (hb : b < fs.blocksCount)
    (hfree : fs.blockUsed b = false) : FreeBlocksOk (markBlock fs b) :=
  Bitmap.Counts.set h hb hfree

lemma FreeInodesOk.markInode (h : FreeInodesOk fs) (hn : 1 ≤ n) (hn' : n ≤ fs.inodesCount)
    (hfree : fs.inodeUsed n = false) : FreeInodesOk (markInode fs n) :=
  Bitmap.Counts.set h (show n - 1 < fs.inodesCount by omega)
    (by simpa [inodeUsed, hn, hn'] using hfree)

end counters

namespace WriteBack

variable {fs fs' : Ext2Filesystem} (h : WriteBack fs fs')

include h

lemma own_eq (ho : Owned fs) (σ : Slot) : own fs' σ = own fs σ :=
  own_congr (own_root_congr h.shape h.inodeUsed fun i _ => by rw [h.inode i])
    (fun τ _ hτ => h.data _ (ho.range τ hτ).1) σ

lemma owned (ho : Owned fs) : Owned fs' := by
  rw [Owned, firstDataBlock_of_shape h.shape, blocksCount_of_shape h.shape]
  exact Exclusive.congr ho (h.own_eq ho) h.blockUsed

lemma freeBlocksOk (hc : FreeBlocksOk fs) : FreeBlocksOk fs' := by
  rw [FreeBlocksOk, h.superblock, h.blockBitmap, blocksCount_of_shape h.shape]
  exact hc

lemma freeInodesOk (hc : FreeInodesOk fs) : FreeInodesOk fs' := by
  rw [FreeInodesOk, h.superblock, h.inodeBitmap, inodesCount_of_shape h.shape]
  exact hc

end WriteBack

/-! ### Growing a file -/

/-- What growing inode `n` may do, apart from overwriting the blocks of the slots `T`. -/
structure Grows (n : Nat) (T : Slot → Prop) (fs fs' : Ext2Filesystem) : Prop where
  shape : fs'.shape = fs.shape
  inodeBitmap : fs'.inodeBitmap = fs.inodeBitmap
  freeInodes : fs'.superblock.freeInodes = fs.superblock.freeInodes
  inode_ne : ∀ m, 1 ≤ m → m ≠ n → fs'.inode m = fs.inode m
  attrs : ∃ size blocks block, fs'.inode n = { fs.inode n with size := size, blocks := blocks, block := block }
  own_mono : ∀ σ, own fs σ ≠ 0 → own fs' σ = own fs σ
  own_new : ∀ σ, own fs' σ ≠ own fs σ → σ.inode = n ∧ fs.blockUsed (own fs' σ) = false
  used_mono : ∀ b, fs.blockUsed b = true → fs'.blockUsed b = true
  used_new : ∀ b, fs'.blockUsed b = true → fs.blockUsed b = true ∨ ∃ σ, own fs σ = 0 ∧ own fs' σ = b ∧ b ≠ 0
  owned : Owned fs'
  count : FreeBlocksOk fs → FreeBlocksOk fs'
  data : ∀ b, b ≠ 0 → fs.firstDataBlock ≤ b → fs.blockUsed b = true →
    (∀ τ, T τ → own fs' τ ≠ b) → ext2ReadBlock fs' b = ext2ReadBlock fs b

/-- Growing a file also leaves its size and all metadata blocks alone: both are written back later. -/
structure GrowsFile (n : Nat) (T : Slot → Prop) (fs fs' : Ext2Filesystem) : Prop extends
    Grows n T fs fs' where
  size : (fs'.inode n).size = (fs.inode n).size
  metadata : ∀ b, b < fs.firstDataBlock → ext2ReadBlock fs' b = ext2ReadBlock fs b

/-- The pointer tables of file `n`. -/
def tablesOf (n : Nat) (τ : Slot) : Prop := τ.inode = n ∧ 0 < τ.level

def blocksOf (n : Nat) (τ : Slot) : Prop := τ.inode = n

namespace Grows

variable {n : Nat} {T T' : Slot → Prop} {fs fs' fs'' : Ext2Filesystem}

lemma of_writeBack (ho : Owned fs) (h : WriteBack fs fs') : Grows n T fs fs' where
  shape := h.shape
  inodeBitmap := h.inodeBitmap
  freeInodes := by rw [h.superblock]
  inode_ne m _ _ := h.inode m
  attrs := ⟨_, _, _, h.inode n⟩
  own_mono σ _ := h.own_eq ho σ
  own_new σ hσ := absurd (h.own_eq ho σ) hσ
  used_mono b hb := by rwa [h.blockUsed]
  used_new b hb := .inl (by rwa [h.blockUsed] at hb)
  owned := h.owned ho
  count := h.freeBlocksOk
  data b _ hb _ _ := h.data b hb

lemma refl (h : Owned fs) : Grows n T fs fs := of_writeBack h ⟨rfl, rfl, rfl, rfl, rfl, fun _ _ => rfl⟩

lemma mono (h : Grows n T fs fs') (hT : ∀ τ, T τ → T' τ) : Grows n T' fs fs' :=
  { h with data := fun b hb0 hb hu hτ => h.data b hb0 hb hu fun τ hτT => hτ τ (hT τ hτT) }

lemma inodeUsed (h : Grows n T fs fs') (m : Nat) : fs'.inodeUsed m = fs.inodeUsed m := by
  rw [Ext2Filesystem.inodeUsed, Ext2Filesystem.inodeUsed, h.inodeBitmap, inodesCount_of_shape h.shape]

lemma mode (h : Grows n T fs fs') : (fs'.inode n).mode = (fs.inode n).mode := by
  obtain ⟨_, _, _, h⟩ := h.attrs
  rw [h]

lemma trans (h1 : Grows n T fs fs') (h2 : Grows n T fs' fs'') : Grows n T fs fs'' where
  shape := by rw [h2.shape, h1.shape]
  inodeBitmap := by rw [h2.inodeBitmap, h1.inodeBitmap]
  freeInodes := by rw [h2.freeInodes, h1.freeInodes]
  inode_ne m hm hne := by rw [h2.inode_ne m hm hne, h1.inode_ne m hm hne]
  attrs := by
    obtain ⟨x1, y1, z1, e1⟩ := h1.attrs
    obtain ⟨x2, y2, z2, e2⟩ := h2.attrs
    exact ⟨x2, y2, z2, by rw [e2, e1]⟩
  own_mono σ hσ := by
    have h := h1.own_mono σ hσ
    rw [h2.own_mono σ (by rw [h]; exact hσ), h]
  own_new σ hσ := by
    by_cases he : own fs'' σ = own fs' σ
    · rw [he] at hσ ⊢
      exact h1.own_new σ hσ
    · obtain ⟨hn, hb⟩ := h2.own_new σ he
      refine ⟨hn, ?_⟩
      by_contra hc
      rw [h1.used_mono _ (by simpa using hc)] at hb
      cases hb
  used_mono b hb := h2.used_mono b (h1.used_mono b hb)
  used_new b hb := by
    rcases h2.used_new b hb with hb' | ⟨σ, hσ, hσ', hb0⟩
    · rcases h1.used_new b hb' with hb'' | ⟨σ, hσ, hσ', hb0⟩
      · exact .inl hb''
      · exact .inr ⟨σ, hσ, by rw [h2.own_mono σ (by rw [hσ']; exact hb0), hσ'], hb0⟩
    · by_cases he : own fs σ = 0
      · exact .inr ⟨σ, he, hσ', hb0⟩
      · rw [h1.own_mono σ he] at hσ
        exact absurd hσ he
  owned := h2.owned
  count h := h2.count (h1.count h)
  data b hb0 hb hu hτ := by
    have hb' : fs'.firstDataBlock ≤ b := by rw [firstDataBlock_of_shape h1.shape]; exact hb
    rw [h2.data b hb0 hb' (h1.used_mono b hu) hτ, h1.data b hb0 hb hu]
    intro τ hτT he
    exact hτ τ hτT (by rw [h2.own_mono τ (by rw [he]; exact hb0), he])

lemma of_assign (hg : Geometry fs) (ho : Owned fs) (σ0 : Slot) {b : Nat} (hσ : σ0.inode = n)
    (h0 : own fs σ0 = 0) (hb : fs.firstDataBlock ≤ b ∧ b < fs.blocksCount) (hfree : fs.blockUsed b = false)
    (hown : ∀ σ, own fs' σ = if σ = σ0 then b else own fs σ)
    (hshape : fs'.shape = fs.shape) (hsb : fs'.superblock = (markBlock fs b).superblock)
    (hbm : fs'.blockBitmap = (markBlock fs b).blockBitmap) (hib : fs'.inodeBitmap = fs.inodeBitmap)
    (hne : ∀ m, 1 ≤ m → m ≠ n → fs'.inode m = fs.inode m) (hattrs : ∃ size blocks block,
      fs'.inode n = { fs.inode n with size := size, blocks := blocks, block := block })
    (hdata : ∀ m, fs.firstDataBlock ≤ m → fs.blockUsed m → (∀ τ, T τ → own fs' τ ≠ m) →
      ext2ReadBlock fs' m = ext2ReadBlock fs m) : Grows n T fs fs' := by
  have hused : ∀ x, fs'.blockUsed x = (decide (x = b) || fs.blockUsed x) := fun x => by
    rw [← blockUsed_markBlock, blockUsed, hbm, blockUsed]
  have hfirst := hg.first_ge
  have hb0 : b ≠ 0 := by omega
  constructor
  case shape => exact hshape
  case inodeBitmap => exact hib
  case freeInodes => rw [hsb]; rfl
  case inode_ne => exact hne
  case attrs => exact hattrs
  case own_mono =>
    intro σ hσ'
    rw [hown, if_neg]
    rintro rfl
    exact hσ' h0
  case own_new =>
    intro σ hσ'
    rw [hown] at hσ' ⊢
    split_ifs at hσ' ⊢ with heq
    · exact ⟨heq ▸ hσ, hfree⟩
    · exact absurd rfl hσ'
  case used_mono => intro x hx; rw [hused, hx, Bool.or_true]
  case used_new =>
    intro x hx
    rw [hused, Bool.or_eq_true, decide_eq_true_eq] at hx
    rcases hx with rfl | hx
    · exact .inr ⟨σ0, h0, by rw [hown, if_pos rfl], hb0⟩
    · exact .inl hx
  case owned =>
    rw [Owned, firstDataBlock_of_shape hshape, blocksCount_of_shape hshape]
    exact Exclusive.assign ho hb hb0 hfree hown hused
  case count =>
    intro hc
    rw [FreeBlocksOk, blocksCount_of_shape hshape, hsb, hbm]
    exact hc.set hb.2 hfree
  case data => exact fun m _ => hdata m

end Grows

namespace GrowsFile

variable {n : Nat} {T : Slot → Prop} {fs fs' fs'' : Ext2Filesystem}

lemma refl (h : Owned fs) : GrowsFile n T fs fs := ⟨Grows.refl h, rfl, fun _ _ => rfl⟩

lemma trans (h1 : GrowsFile n T fs fs') (h2 : GrowsFile n T fs' fs'') : GrowsFile n T fs fs'' where
  toGrows := h1.toGrows.trans h2.toGrows
  size := by rw [h2.size, h1.size]
  metadata b hb := by
    rw [h2.metadata b (by rw [firstDataBlock_of_shape h1.shape]; exact hb), h1.metadata b hb]

lemma toBlocks (h : GrowsFile n (tablesOf n) fs fs') : GrowsFile n (blocksOf n) fs fs' :=
  { h with toGrows := h.toGrows.mono fun _ hτ => hτ.1 }

end GrowsFile

/-! ### The steps of `ext2_bmap_alloc` -/

section

variable {fs : Ext2Filesystem}

lemma ptrGet_of_zero (h : ext2ReadBlock fs t = trunc Buf.zero) : ext2PtrGet fs t j = 0 := by
  have : trunc Buf.zero = Buf.zero := by
    funext k
    rw [trunc]
    split_ifs <;> rfl
  rw [ext2PtrGet, h, this, getU32_zero]
  rfl

lemma ptrGet_ptrSet (hg : Geometry fs) {i v : Nat} (hj : j < 256) (hv : v < 2 ^ 32) :
    ext2PtrGet (ext2PtrSet fs t i v) t j = if j = i then v else ext2PtrGet fs t j := by
  have htrunc : ∀ k < 4, 4 * j + k < 1024 := fun k hk => by omega
  have hread : (trunc ((ext2ReadBlock fs t).putU32 (4 * i) (UInt32.ofNat v))).getU32 (4 * j) =
      ((ext2ReadBlock fs t).putU32 (4 * i) (UInt32.ofNat v)).getU32 (4 * j) :=
    getU32_congr fun k hk => trunc_of_lt (htrunc k hk)
  rw [ext2PtrGet, ext2PtrSet, readBlock_writeBlock_self hg, hread]
  split_ifs with hji
  · rw [hji, getU32_putU32, UInt32.toNat_ofNat_of_lt' hv]
  · rw [ext2PtrGet, getU32_congr fun k hk => ?_]
    rw [putU32, blit_of_not_mem (by omega)]

/-- The state after a fresh block `b` has been marked and, for a table, zeroed. -/
def freshBlock (fs : Ext2Filesystem) (b : Nat) (table : Bool) : Ext2Filesystem :=
  if table then zeroBlock (markBlock fs b) b else markBlock fs b

section freshBlock

variable (fs) (b : Nat) (table : Bool)

lemma freshBlock_memory : (freshBlock fs b table).superblock = (markBlock fs b).superblock ∧
      (freshBlock fs b table).blockBitmap = (markBlock fs b).blockBitmap ∧
      (freshBlock fs b table).inodeBitmap = fs.inodeBitmap ∧ (freshBlock fs b table).shape = fs.shape ∧
      ∀ m, (freshBlock fs b table).inode m = fs.inode m := by
  rw [freshBlock]
  split_ifs <;> exact ⟨rfl, rfl, rfl, rfl, fun _ => rfl⟩

lemma readBlock_freshBlock (hg : Geometry fs) (hm : m ≠ b) :
    ext2ReadBlock (freshBlock fs b table) m = ext2ReadBlock fs m := by
  rw [freshBlock]
  split_ifs
  · exact readBlock_writeBlock_of_ne (hg.of_shape (shape_markBlock fs b)) _ hm
  · rfl

lemma ptrGet_freshBlock (hg : Geometry fs) (j : Nat) : ext2PtrGet (freshBlock fs b true) b j = 0 :=
  ptrGet_of_zero (readBlock_writeBlock_self (hg.of_shape (shape_markBlock fs b)) _ _)

end freshBlock

lemma inode_addSectors (n : Nat) : (addSectors fs n).inode n =
    { fs.inode n with blocks := (fs.inode n).blocks + fs.superblock.blockSize / 512 } := by
  rw [addSectors, inode_setInode_self]

lemma inode_addSectors_of_ne {n : Nat} (hn : 1 ≤ n) (hm : 1 ≤ m) (h : m ≠ n) :
    (addSectors fs n).inode m = fs.inode m := by
  rw [addSectors, inode_setInode_of_ne _ _ hn hm h]

/-- The state after a fresh block went into `block[k]`. -/
def growRoot (fs : Ext2Filesystem) (n k b : Nat) (table : Bool) : Ext2Filesystem :=
  addSectors ((freshBlock fs b table).setInode n
    (((freshBlock fs b table).inode n).setPtr k b)) n

/-- The state after a fresh block went into entry `j` of table `t`. -/
def growEntry (fs : Ext2Filesystem) (n t j b : Nat) (table : Bool) : Ext2Filesystem :=
  addSectors (ext2PtrSet (freshBlock fs b table) t j b) n

lemma ensureRoot_cases (hg : Geometry fs) (n k : Nat) (table : Bool) :
    ((fs.inode n).ptr k ≠ 0 ∧ ensureRoot fs n k table = ((fs.inode n).ptr k, fs)) ∨
    ((fs.inode n).ptr k = 0 ∧ ensureRoot fs n k table = (0, fs)) ∨
    (fs.inode n).ptr k = 0 ∧ ∃ b, (fs.firstDataBlock ≤ b ∧ b < fs.blocksCount) ∧
      fs.blockUsed b = false ∧ ensureRoot fs n k table = (b, growRoot fs n k b table) := by
  by_cases hp : (fs.inode n).ptr k = 0
  · right
    rw [ensureRoot, if_pos hp]
    rcases allocBlock_cases fs hg with ⟨ha, -⟩ | ⟨b, hb1, hb2, hfree, -, ha⟩
    · left
      simp [ha, hp]
    · right
      have hb0 : b ≠ 0 := by have := hg.first_ge; omega
      refine ⟨hp, b, ⟨hb1, hb2⟩, hfree, ?_⟩
      simp [ha, hb0, growRoot, freshBlock]
  · left
    exact ⟨hp, by rw [ensureRoot, if_neg hp]⟩

lemma ensureEntry_cases (hg : Geometry fs) (n t j : Nat) (table : Bool) :
    (ext2PtrGet fs t j ≠ 0 ∧ ensureEntry fs n t j table = (ext2PtrGet fs t j, fs)) ∨
    (ext2PtrGet fs t j = 0 ∧ ensureEntry fs n t j table = (0, fs)) ∨
    ext2PtrGet fs t j = 0 ∧ ∃ b, (fs.firstDataBlock ≤ b ∧ b < fs.blocksCount) ∧
      fs.blockUsed b = false ∧ ensureEntry fs n t j table = (b, growEntry fs n t j b table) := by
  by_cases hp : ext2PtrGet fs t j = 0
  · right
    rw [ensureEntry, if_pos hp]
    rcases allocBlock_cases fs hg with ⟨ha, -⟩ | ⟨b, hb1, hb2, hfree, -, ha⟩
    · left
      simp [ha, hp]
    · right
      have hb0 : b ≠ 0 := by have := hg.first_ge; omega
      refine ⟨hp, b, ⟨hb1, hb2⟩, hfree, ?_⟩
      simp [ha, hb0, growEntry, freshBlock]
  · left
    exact ⟨hp, by rw [ensureEntry, if_neg hp]⟩

section grow

variable {n b : Nat} {table : Bool} (hg : Geometry fs) (ho : Owned fs)
  (hn : fs.inodeUsed n = true) (hb : fs.firstDataBlock ≤ b ∧ b < fs.blocksCount)
  (hfree : fs.blockUsed b = false)

include hg hb in
lemma fresh_ne_zero : b ≠ 0 ∧ b < 2 ^ 32 := by
  have h1 := hg.first_ge
  have h2 := Geometry.blocksCount_lt fs
  omega

include hg ho hb hfree in
lemma own_ne_fresh (σ : Slot) : own fs σ ≠ b :=
  ho.ne_of_unmarked hfree (fresh_ne_zero hg hb).1 σ

include hn in
lemma growRoot_inode (b k : Nat) (table : Bool) : (∃ blocks, (growRoot fs n k b table).inode n =
      { (fs.inode n).setPtr k b with blocks := blocks }) ∧
    ∀ m, 1 ≤ m → m ≠ n → (growRoot fs n k b table).inode m = fs.inode m := by
  have hr := inodeUsed_range hn
  obtain ⟨-, -, -, -, hino⟩ := freshBlock_memory fs b table
  constructor
  · rw [growRoot, inode_addSectors, inode_setInode_self, hino]
    exact ⟨_, rfl⟩
  · intro m hm hmn
    rw [growRoot, inode_addSectors_of_ne hr.1 hm hmn, inode_setInode_of_ne _ _ hr.1 hm hmn, hino]

include hg ho hn hb hfree in
lemma own_assignRoot (fs' : Ext2Filesystem) (hk : k < 14) (hp : (fs.inode n).ptr k = 0) (hshape : fs'.shape = fs.shape)
    (hib : fs'.inodeBitmap = fs.inodeBitmap) (hpk : (fs'.inode n).ptr k = b)
    (hpj : ∀ j, j ≠ k → (fs'.inode n).ptr j = (fs.inode n).ptr j) (hne : ∀ m, 1 ≤ m → m ≠ n → fs'.inode m = fs.inode m)
    (hread : ∀ m, fs.firstDataBlock ≤ m → m ≠ b → ext2ReadBlock fs' m = ext2ReadBlock fs m)
    (hzero : 0 < (Slot.root n k).level → ∀ j < 256, ext2PtrGet fs' b j = 0) (σ : Slot) :
    own fs' σ = if σ = .root n k then b else own fs σ := by
  have hcount : fs'.inodesCount = fs.inodesCount := inodesCount_of_shape hshape
  have hused : ∀ m, fs'.inodeUsed m = fs.inodeUsed m := fun m => by
    rw [inodeUsed, inodeUsed, hcount, hib]
  refine own_assign ?_ ?_ ?_ ?_ hzero σ
  · rw [own_root_of_used hn hk, hp]
  · intro _
    rw [own_root_of_used (by rw [hused]; exact hn) hk, hpk]
  · intro i k' hik
    rw [own, own, hcount, hused]
    split_ifs with hc
    · by_cases hi : i = n
      · subst hi
        exact hpj k' fun h => hik (by rw [h])
      · rw [hne i hc.1 hi]
    · rfl
  · intro p j _ _ _ hp0
    exact ptrGet_congr (hread _ (ho.range p hp0).1 (own_ne_fresh hg ho hb hfree p))

include hg ho hn hb hfree in
lemma own_growRoot (hk : k < 14) (hp : (fs.inode n).ptr k = 0)
    (htable : 0 < (Slot.root n k).level → table) (σ : Slot) :
    own (growRoot fs n k b table) σ = if σ = .root n k then b else own fs σ := by
  obtain ⟨⟨_, hinode⟩, hne⟩ := growRoot_inode hn b k table
  obtain ⟨-, -, hib, hshape, -⟩ := freshBlock_memory fs b table
  have hshape : (growRoot fs n k b table).shape = fs.shape := hshape
  refine own_assignRoot hg ho hn hb hfree _ hk hp hshape hib ?_ ?_ hne ?_ ?_ σ
  · rw [hinode]
    exact ptr_setPtr_self _ (by omega) (fresh_ne_zero hg hb).2
  · intro j hj
    rw [hinode]
    exact ptr_setPtr_of_ne _ hj
  · intro m _ hm
    exact readBlock_freshBlock fs b table hg hm
  · intro hl j _
    rw [htable hl]
    exact ptrGet_freshBlock fs b hg j

include hg ho hn hb hfree in
lemma own_growEntry (hp : 0 < p.level) (hj : j < 256) (hpo : own fs p ≠ 0)
    (hz : ext2PtrGet fs (own fs p) j = 0) (htable : 0 < (Slot.child p j).level → table) (σ : Slot) :
    own (growEntry fs n (own fs p) j b table) σ = if σ = .child p j then b else own fs σ := by
  have hr := inodeUsed_range hn
  have hb' := fresh_ne_zero hg hb
  obtain ⟨-, -, hib, hshape, hino⟩ := freshBlock_memory fs b table
  have hg' : Geometry (freshBlock fs b table) := hg.of_shape hshape
  set fs' := growEntry fs n (own fs p) j b table with hfs'
  -- the inodes keep their pointers
  have hroot : ∀ i k, own fs' (.root i k) = own fs (.root i k) := by
    refine own_root_congr hshape (fun m => ?_) fun i hi => ?_
    · rw [inodeUsed, inodeUsed, show fs'.inodesCount = fs.inodesCount from inodesCount_of_shape hshape]
      exact congrArg (fun bm => _ && Bitmap.bit bm _) hib
    · by_cases hin : i = n
      · subst hin
        rw [hfs', growEntry, inode_addSectors]
        exact ptr_eq_of_block (by rw [ext2PtrSet, inode_writeBlock, hino])
      · rw [hfs', growEntry, inode_addSectors_of_ne hr.1 hi hin, ext2PtrSet, inode_writeBlock, hino]
  -- a table that is not the one written keeps its entries
  have hother : ∀ q, own fs q ≠ own fs p → ∀ i, ext2PtrGet fs' (own fs q) i = ext2PtrGet fs (own fs q) i := by
    intro q hq i
    refine ptrGet_congr ?_
    change ext2ReadBlock (ext2PtrSet (freshBlock fs b table) (own fs p) j b) _ = _
    rw [ext2PtrSet, readBlock_writeBlock_of_ne hg' _ hq,
      readBlock_freshBlock fs b table hg (own_ne_fresh hg ho hb hfree q)]
  have hthis : ∀ i < 256, ext2PtrGet fs' (own fs p) i = if i = j then b else ext2PtrGet fs (own fs p) i := by
    intro i hi
    change ext2PtrGet (ext2PtrSet (freshBlock fs b table) (own fs p) j b) (own fs p) i = _
    rw [ptrGet_ptrSet hg' hi hb'.2, ptrGet_congr (readBlock_freshBlock fs b table hg (own_ne_fresh hg ho hb hfree p))]
  refine own_assign ?_ ?_ ?_ ?_ ?_ σ
  · rw [own_child_of_table hp hj hpo, hz]
  · intro hpp
    have hpp := hpp p j rfl
    rw [own_child_of_table hp hj (by rw [hpp]; exact hpo), hpp, hthis j hj, if_pos rfl]
  · intro i k _
    exact hroot i k
  · intro q i hqi hq hi hqo
    by_cases hqp : own fs q = own fs p
    · obtain rfl : q = p := ho.inj q p hqp hqo
      rw [hthis i hi, if_neg fun h => hqi (by rw [h])]
    · exact hother q hqp i
  · intro hl i hi
    obtain rfl := htable hl
    change ext2PtrGet (ext2PtrSet (freshBlock fs b true) (own fs p) j b) b i = 0
    have hne := own_ne_fresh hg ho hb hfree p
    rw [ext2PtrSet, ptrGet_congr (readBlock_writeBlock_of_ne hg' _ hne.symm), ptrGet_freshBlock fs b hg i]

include hfree in
lemma ne_fresh_of_used (hm : fs.blockUsed m) : m ≠ b := by
  rintro rfl
  rw [hfree] at hm
  cases hm

include hg ho hn hb hfree in
lemma grows_growRoot (hk : k < 14) (hp : (fs.inode n).ptr k = 0)
    (htable : 0 < (Slot.root n k).level → table) : GrowsFile n (tablesOf n) fs (growRoot fs n k b table) := by
  obtain ⟨⟨_, hinode⟩, hne⟩ := growRoot_inode hn b k table
  obtain ⟨hsb, hbm, hib, hshape, -⟩ := freshBlock_memory fs b table
  refine ⟨Grows.of_assign hg ho (.root n k) rfl ?_ hb hfree
    (own_growRoot hg ho hn hb hfree hk hp htable) hshape hsb hbm hib hne ⟨_, _, _, hinode⟩ ?_,
    by rw [hinode]; rfl, fun m hm => ?_⟩
  · rw [own_root_of_used hn hk, hp]
  · intro m _ hm _
    exact readBlock_freshBlock fs b table hg (ne_fresh_of_used hfree hm)
  · exact readBlock_freshBlock fs b table hg (by omega)

include hg ho hn hb hfree in
lemma grows_growEntry (hpn : p.inode = n) (hp : 0 < p.level) (hj : j < 256)
    (hpo : own fs p ≠ 0) (hz : ext2PtrGet fs (own fs p) j = 0) (htable : 0 < (Slot.child p j).level → table) :
    GrowsFile n (tablesOf n) fs (growEntry fs n (own fs p) j b table) := by
  have hr := inodeUsed_range hn
  obtain ⟨hsb, hbm, hib, hshape, hino⟩ := freshBlock_memory fs b table
  have hown := own_growEntry hg ho hn hb hfree hp hj hpo hz htable
  have hread : ∀ m, m ≠ own fs p → m ≠ b →
      ext2ReadBlock (growEntry fs n (own fs p) j b table) m = ext2ReadBlock fs m := by
    intro m hmp hmb
    change ext2ReadBlock (ext2PtrSet (freshBlock fs b table) (own fs p) j b) m = _
    rw [ext2PtrSet, readBlock_writeBlock_of_ne (hg.of_shape hshape) _ hmp, readBlock_freshBlock fs b table hg hmb]
  have hinode : (growEntry fs n (own fs p) j b table).inode n = { fs.inode n with
      blocks := (fs.inode n).blocks +
        (ext2PtrSet (freshBlock fs b table) (own fs p) j b).superblock.blockSize / 512 } := by
    rw [growEntry, inode_addSectors, ext2PtrSet, inode_writeBlock, hino]
  refine ⟨Grows.of_assign hg ho (.child p j) hpn ?_ hb hfree hown hshape hsb hbm hib ?_
    ⟨_, _, _, hinode⟩ ?_, by rw [hinode], fun m hm => hread m ?_ (by omega)⟩
  · rw [own_child_of_table hp hj hpo, hz]
  · intro m hm hmn
    rw [growEntry, inode_addSectors_of_ne hr.1 hm hmn, ext2PtrSet, inode_writeBlock, hino]
  · intro m _ hm hτ
    refine hread m (fun hmp => ?_) (ne_fresh_of_used hfree hm)
    refine hτ p ⟨hpn, hp⟩ ?_
    rw [hown, if_neg (Slot.ne_child p j), hmp]
  · have := (ho.range p hpo).1
    omega

end grow

section ensure

variable {n : Nat} (table : Bool) (hg : Geometry fs) (ho : Owned fs)
  (hn : fs.inodeUsed n = true)

include hg ho hn

lemma grows_ensureRoot (hk : k < 14) (htable : 0 < (Slot.root n k).level → table) :
    GrowsFile n (tablesOf n) fs (ensureRoot fs n k table).2 ∧
      (ensureRoot fs n k table).1 = own (ensureRoot fs n k table).2 (.root n k) := by
  rcases ensureRoot_cases hg n k table with ⟨-, h⟩ | ⟨hz, h⟩ | ⟨hz, b, hb, hfree, h⟩
  · rw [h]
    exact ⟨GrowsFile.refl ho, by rw [own_root_of_used hn hk]⟩
  · rw [h]
    exact ⟨GrowsFile.refl ho, by rw [own_root_of_used hn hk, hz]⟩
  · rw [h]
    exact ⟨grows_growRoot hg ho hn hb hfree hk hz htable,
      by rw [own_growRoot hg ho hn hb hfree hk hz htable, if_pos rfl]⟩

lemma grows_ensureEntry (hpn : p.inode = n) (hp : 0 < p.level)
    (hj : j < 256) (hpo : own fs p ≠ 0) (htable : 0 < (Slot.child p j).level → table) :
    GrowsFile n (tablesOf n) fs (ensureEntry fs n (own fs p) j table).2 ∧ (ensureEntry fs n (own fs p) j table).1 =
        own (ensureEntry fs n (own fs p) j table).2 (.child p j) := by
  rcases ensureEntry_cases hg n (own fs p) j table with ⟨-, h⟩ | ⟨hz, h⟩ | ⟨hz, b, hb, hfree, h⟩
  · rw [h]
    exact ⟨GrowsFile.refl ho, by rw [own_child_of_table hp hj hpo]⟩
  · rw [h]
    exact ⟨GrowsFile.refl ho, by rw [own_child_of_table hp hj hpo, hz]⟩
  · rw [h]
    exact ⟨grows_growEntry hg ho hn hb hfree hpn hp hj hpo hz htable,
      by rw [own_growEntry hg ho hn hb hfree hp hj hpo hz htable, if_pos rfl]⟩

/-- `ext2_bmap_alloc` returns the block that logical block `bi` has afterwards, and changes nothing
but the file's pointers. -/
lemma grows_bmapAlloc (bi : Nat) : GrowsFile n (tablesOf n) fs (ext2BmapAlloc fs n bi).2 ∧ (ext2BmapAlloc fs n bi).1 =
        if bi < 65804 then own (ext2BmapAlloc fs n bi).2 (dataSlot n bi) else 0 := by
  rw [ext2BmapAlloc, hg.ptrs_eq]
  by_cases h1 : bi < 12
  · have h := grows_ensureRoot false hg ho hn (show bi < 14 by omega)
      (by rw [Slot.level, if_neg (by omega), if_neg (by omega)]; omega)
    simp only [h1, if_true, dataSlot, show bi < 65804 by omega]
    exact h
  by_cases h2 : bi < 12 + 256
  · have h := grows_ensureRoot true hg ho hn (show 12 < 14 by omega) fun _ => rfl
    simp only [h1, h2, if_true, if_false, dataSlot, show bi < 65804 by omega]
    rcases hr : ensureRoot fs n 12 true with ⟨t, fs1⟩
    rw [hr] at h
    obtain ⟨hgr, ht⟩ := h
    simp only at hgr ht
    subst ht
    by_cases h0 : own fs1 (.root n 12) = 0
    · simp only [h0, if_true]
      exact ⟨hgr, (own_child_of_zero h0 _).symm⟩
    · simp only [h0, if_false]
      have h := grows_ensureEntry (n := n) false (hg.of_shape hgr.shape) hgr.owned
        (by rw [hgr.inodeUsed]; exact hn) (p := .root n 12) rfl Nat.one_pos
        (show bi - 12 < 256 by omega) h0 (by simp [Slot.level])
      exact ⟨hgr.trans h.1, h.2⟩
  by_cases h3 : bi < 12 + 256 + 256 * 256
  · have h := grows_ensureRoot true hg ho hn (show 13 < 14 by omega) fun _ => rfl
    simp only [h1, h2, h3, if_true, if_false, dataSlot]
    rcases hr : ensureRoot fs n 13 true with ⟨t, fs1⟩
    rw [hr] at h
    obtain ⟨hgr, ht⟩ := h
    simp only at hgr ht
    subst ht
    by_cases h0 : own fs1 (.root n 13) = 0
    · simp only [h0, if_true]
      exact ⟨hgr, (own_child_of_zero (own_child_of_zero h0 _) _).symm⟩
    · simp only [h0, if_false]
      have h := grows_ensureEntry (n := n) true (hg.of_shape hgr.shape) hgr.owned
        (by rw [hgr.inodeUsed]; exact hn) (p := .root n 13) rfl Nat.two_pos
        (show (bi - 12 - 256) / 256 < 256 by omega) h0 (fun _ => rfl)
      rcases hr2 : ensureEntry fs1 n (own fs1 (.root n 13)) ((bi - 12 - 256) / 256) true with ⟨t, fs2⟩
      rw [hr2] at h
      obtain ⟨hgr2, ht⟩ := h
      simp only at hgr2 ht
      subst ht
      have hgr12 := hgr.trans hgr2
      simp only [show bi - 268 = bi - 12 - 256 by omega]
      by_cases h0 : own fs2 (.child (.root n 13) ((bi - 12 - 256) / 256)) = 0
      · simp only [h0, if_true]
        exact ⟨hgr12, (own_child_of_zero h0 _).symm⟩
      · simp only [h0, if_false]
        have h := grows_ensureEntry (n := n) false (hg.of_shape hgr12.shape) hgr12.owned
          (by rw [hgr12.inodeUsed]; exact hn)
          (p := .child (.root n 13) ((bi - 12 - 256) / 256)) rfl (by simp [Slot.level])
          (show (bi - 12 - 256) % 256 < 256 by omega) h0 (by simp [Slot.level])
        exact ⟨hgr12.trans h.1, h.2⟩
  · simp only [h1, h2, h3, if_false]
    exact ⟨GrowsFile.refl ho, trivial⟩

end ensure

/-! ### Writing data blocks -/

@[simp] lemma dataSlot_inode (n bi : Nat) : (dataSlot n bi).inode = n := by
  rw [dataSlot]
  split_ifs <;> rfl

lemma dataSlot_level (n bi : Nat) : (dataSlot n bi).level = 0 := by
  rw [dataSlot]
  split_ifs with h1 h2
  · rw [Slot.level, if_neg (by omega), if_neg (by omega)]
  · rfl
  · rfl

lemma own_writeBlock (hg : Geometry fs) (ho : Owned fs) (hl : σ0.level = 0) (buf : Buf) (σ : Slot) :
    own (ext2WriteBlock fs (own fs σ0) buf) σ = own fs σ := by
  refine own_congr (own_root_congr (shape_writeBlock fs _ _) (fun _ => rfl) fun _ _ => rfl) (fun τ hτ hτ0 => ?_) σ
  refine readBlock_writeBlock_of_ne hg _ fun h => ?_
  rw [ho.inj τ σ0 h hτ0, hl] at hτ
  exact absurd hτ (lt_irrefl 0)

lemma grows_writeBlock (hg : Geometry fs) (ho : Owned fs) {n : Nat}
    (hn : σ0.inode = n) (hl : σ0.level = 0) (h0 : own fs σ0 ≠ 0) (buf : Buf) :
    GrowsFile n (blocksOf n) fs (ext2WriteBlock fs (own fs σ0) buf) := by
  have hown := own_writeBlock hg ho hl buf
  have ho' : Owned (ext2WriteBlock fs (own fs σ0) buf) := Exclusive.congr ho hown fun _ => rfl
  have hrefl : Grows n (blocksOf n) fs fs := Grows.refl ho
  refine ⟨{ hrefl with
    own_mono := fun σ _ => hown σ, own_new := fun σ hσ => absurd (hown σ) hσ, used_new := fun _ h => .inl h,
    owned := ho', data := fun b _ _ _ hτ => readBlock_writeBlock_of_ne hg buf fun hb =>
      hτ σ0 hn (by rw [hown, hb]) }, rfl, fun b hb => readBlock_writeBlock_of_ne hg buf ?_⟩
  have := (ho.range σ0 h0).1
  omega

/-- The block one round of the write loop stores over `old`. -/
def writeChunk (bs : Nat) (old : Buf) (offset : Nat) (data : List UInt8) (done : Nat) : Buf :=
  (if (offset + done) % bs ≠ 0 ∨ data.length - done < bs then old else Buf.zero).blit
    ((offset + done) % bs) (min (data.length - done) (bs - (offset + done) % bs))
    fun k => data.getD (done + k) 0

lemma writeLoop_succ (n offset : Nat) (data : List UInt8) (fuel done : Nat)
    (hlt : done < data.length) :
    writeLoop n offset data (fuel + 1) fs done =
      let r := ext2BmapAlloc fs n ((offset + done) / fs.bs % 2 ^ 32)
      if r.1 = 0 then (done, r.2)
      else writeLoop n offset data fuel
        (ext2WriteBlock r.2 r.1 (writeChunk fs.bs (ext2ReadBlock r.2 r.1) offset data done))
        (done + min (data.length - done) (fs.bs - (offset + done) % fs.bs)) := by
  rw [writeLoop, if_pos hlt]
  rfl

lemma grows_writeLoop {n : Nat} (offset : Nat) (data : List UInt8) (fuel : Nat) :
    ∀ (fs : Ext2Filesystem) (_ : Geometry fs) (_ : Owned fs) (_ : fs.inodeUsed n)
      (done : Nat), GrowsFile n (blocksOf n) fs (writeLoop n offset data fuel fs done).2 := by
  induction fuel with
  | zero => intro fs _ ho _ done; exact GrowsFile.refl ho
  | succ fuel ih =>
    intro fs hg ho hn done
    by_cases hlt : done < data.length
    · obtain ⟨hgr, hres⟩ := grows_bmapAlloc hg ho hn ((offset + done) / fs.bs % 2 ^ 32)
      rw [writeLoop_succ _ _ _ _ _ hlt]
      rcases hb : ext2BmapAlloc fs n ((offset + done) / fs.bs % 2 ^ 32) with ⟨b, fs1⟩
      rw [hb] at hgr hres
      have hgr := hgr.toBlocks
      dsimp only at hgr hres ⊢
      split_ifs with hb0
      · exact hgr
      · rw [if_pos (by by_contra hc; exact hb0 (by rw [hres, if_neg hc]))] at hres
        rw [hres] at hb0 ⊢
        have hw := fun buf => grows_writeBlock (hg.of_shape hgr.shape) hgr.owned
          (dataSlot_inode n ((offset + done) / fs.bs % 2 ^ 32)) (dataSlot_level n _) hb0 buf
        refine hgr.trans ((hw _).trans (ih _ ?_ (hw _).owned ?_ _))
        · exact hg.of_shape (by rw [shape_writeBlock, hgr.shape])
        · rw [inodeUsed_writeBlock, hgr.inodeUsed]
          exact hn
    · rw [writeLoop, if_neg hlt]
      exact GrowsFile.refl ho

end

end VibeOS
