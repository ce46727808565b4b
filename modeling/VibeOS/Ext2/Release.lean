import VibeOS.Ext2.Invariant

/-!
# Giving inodes and blocks back

`unlinkTarget` frees the direct blocks of an inode one by one and then the inode itself.
`Releases t fs fs'` is what it does as a whole, and `Inv.release` shows that it keeps the invariant
when no directory names the inode any more. The single- and double-indirect blocks stay with the
unused inode.

The two ways a request can fail after taking an inode, `agree_createFailed` and
`agree_mkdirFailed`, restore everything that anybody looks at.
-/

namespace VibeOS

open List
open Buf Ext2Filesystem Ownership

/-! ### Freeing the direct blocks -/

section

variable {fs : Ext2Filesystem} {t : Nat}

variable (fs)

/-- The state after block pointer `i` of inode `t` has been given back. -/
def freePtr (t i : Nat) : Ext2Filesystem :=
  (ext2FreeBlock fs ((fs.inode t).ptr i)).setInode t ((fs.inode t).setPtr i 0)

lemma inode_freePtr (t i : Nat) : (freePtr fs t i).inode t = (fs.inode t).setPtr i 0 := inode_setInode_self _ _ _

lemma readBlock_freePtr (t i b : Nat) : ext2ReadBlock (freePtr fs t i) b = ext2ReadBlock fs b := by
  rw [freePtr, readBlock_setInode, readBlock_freeBlock]

lemma shape_freePtr (t i : Nat) : (freePtr fs t i).shape = fs.shape := by
  rw [freePtr, shape_setInode, shape_freeBlock]

lemma inodeUsed_freePtr (t i m : Nat) : (freePtr fs t i).inodeUsed m = fs.inodeUsed m := by
  rw [freePtr, inodeUsed_setInode, inodeUsed_freeBlock]

variable {fs}

section

variable (ho : Owned fs) (ht : fs.inodeUsed t = true) {i : Nat} (hi : i < 12)
  (hz : (fs.inode t).ptr i ≠ 0)

include ho ht hi hz in
lemma ptr_range : (fs.firstDataBlock ≤ (fs.inode t).ptr i ∧ (fs.inode t).ptr i < fs.blocksCount) ∧
    fs.blockUsed ((fs.inode t).ptr i) = true := by
  rw [← own_root_of_used ht (show i < 14 by omega)] at hz ⊢
  exact ⟨ho.range _ hz, ho.marked _ hz⟩

include ho ht hi hz in
lemma blockUsed_freePtr (b : Nat) :
    (freePtr fs t i).blockUsed b = (decide (b ≠ (fs.inode t).ptr i) && fs.blockUsed b) := by
  rw [freePtr, blockUsed_setInode, blockUsed_freeBlock fs (ptr_range ho ht hi hz).1.2]

include ht hi in
lemma own_freePtr (σ : Slot) : own (freePtr fs t i) σ = if σ = .root t i then 0 else own fs σ := by
  have hr := inodeUsed_range ht
  have ht' : (freePtr fs t i).inodeUsed t = true := by rw [inodeUsed_freePtr, ht]
  have hcount : (freePtr fs t i).inodesCount = fs.inodesCount :=
    inodesCount_of_shape (shape_freePtr fs t i)
  have h0 : own (freePtr fs t i) (.root t i) = 0 := by
    rw [own_root_of_used ht' (by omega), inode_freePtr]
    exact ptr_setPtr_self _ (by omega) (by norm_num)
  have hlevel : (Slot.root t i).level = 0 := by
    rw [Slot.level, if_neg (by omega), if_neg (by omega)]
  -- filling the slot again would lead back to `fs`
  have hback : own fs σ = if σ = .root t i then (fs.inode t).ptr i else own (freePtr fs t i) σ := by
    refine own_assign h0 (fun _ => own_root_of_used ht (by omega)) (fun j k hjk => ?_)
      (fun p j _ _ _ _ => ptrGet_congr (readBlock_freePtr fs t i _).symm)
      (fun h => by rw [hlevel] at h; omega) σ
    rw [own, own, hcount, inodeUsed_freePtr]
    split_ifs with hc
    · by_cases hjt : j = t
      · subst hjt
        rw [inode_freePtr, ptr_setPtr_of_ne _ fun h => hjk (by rw [h])]
      · rw [freePtr, inode_setInode_of_ne _ _ hr.1 hc.1 hjt, inode_freeBlock]
    · rfl
  split_ifs at hback ⊢ with hσ
  · rw [hσ, h0]
  · exact hback.symm

include ho ht hi hz in
lemma owned_freePtr : Owned (freePtr fs t i) := by
  have hshape := shape_freePtr fs t i
  rw [Owned, firstDataBlock_of_shape hshape, blocksCount_of_shape hshape]
  refine Exclusive.release ho (own_freePtr ht hi) fun b => ?_
  rw [blockUsed_freePtr ho ht hi hz, own_root_of_used ht (by omega)]

end

lemma ptr_freePtr (fs : Ext2Filesystem) (t : Nat) {i : Nat} (hi : i < 12) (k : Nat) :
    ((freePtr fs t i).inode t).ptr k = if k = i then 0 else (fs.inode t).ptr k := by
  rw [inode_freePtr]
  split_ifs with hk
  · rw [hk]
    exact ptr_setPtr_self _ (by omega) (by norm_num)
  · exact ptr_setPtr_of_ne _ hk

lemma freeDirect_cons (fs : Ext2Filesystem) (t i : Nat) (l : List Nat) : freeDirect fs t (i :: l) =
      if (fs.inode t).ptr i ≠ 0 then freeDirect (freePtr fs t i) t l else freeDirect fs t l := rfl

/-- What freeing the direct blocks `l` of inode `t` does. -/
structure FreesDirect (t : Nat) (l : List Nat) (fs fs' : Ext2Filesystem) : Prop where
  shape : fs'.shape = fs.shape
  device : fs'.device = fs.device
  inodeBitmap : fs'.inodeBitmap = fs.inodeBitmap
  freeInodes : fs'.superblock.freeInodes = fs.superblock.freeInodes
  inode_ne : ∀ m, 1 ≤ m → m ≠ t → fs'.inode m = fs.inode m
  ptr : ∀ k, (fs'.inode t).ptr k = if k ∈ l then 0 else (fs.inode t).ptr k
  blockUsed : ∀ b, fs'.blockUsed b = true ↔ fs.blockUsed b = true ∧
    ∀ k ∈ l, (fs.inode t).ptr k ≠ 0 → b ≠ (fs.inode t).ptr k
  own_mem : ∀ k ∈ l, own fs' (.root t k) = 0
  own_other : ∀ σ, (∀ k ∈ l, σ ≠ .root t k) → own fs' σ = own fs σ
  owned : Owned fs'
  count : FreeBlocksOk fs → FreeBlocksOk fs'

lemma freeDirect_spec {l : List Nat} (hl : ∀ i ∈ l, i < 12) :
    ∀ fs : Ext2Filesystem, Owned fs → fs.inodeUsed t → FreesDirect t l fs (freeDirect fs t l) := by
  induction l with
  | nil =>
    intro fs ho _
    exact ⟨rfl, rfl, rfl, rfl, fun _ _ _ => rfl, fun k => by simp [freeDirect],
      fun b => by simp [freeDirect], forall_mem_nil _, fun _ _ => rfl, ho, fun h => h⟩
  | cons i l ih =>
    intro fs ho ht
    have hi : i < 12 := hl i mem_cons_self
    have ih := ih fun j hj => hl j (mem_cons_of_mem _ hj)
    rw [freeDirect_cons]
    split_ifs with hz
    · have h1 := ih (freePtr fs t i) (owned_freePtr ho ht hi hz)
        (by rw [inodeUsed_freePtr, ht])
      have hfree : (ext2FreeBlock fs ((fs.inode t).ptr i)) = { fs with
          blockBitmap := Bitmap.clearBit fs.blockBitmap ((fs.inode t).ptr i),
          superblock := { fs.superblock with freeBlocks := fs.superblock.freeBlocks + 1 } } := by
        rw [ext2FreeBlock, if_pos (ptr_range ho ht hi hz).1.2]
      constructor
      case shape => rw [h1.shape, shape_freePtr]
      case device => rw [h1.device, freePtr, hfree]; rfl
      case inodeBitmap => rw [h1.inodeBitmap, freePtr, hfree]; rfl
      case freeInodes => rw [h1.freeInodes, freePtr, hfree]; rfl
      case inode_ne =>
        intro m hm hmt
        rw [h1.inode_ne m hm hmt, freePtr, inode_setInode_of_ne _ _ (inodeUsed_range ht).1 hm hmt, inode_freeBlock]
      case ptr =>
        intro k
        rw [h1.ptr, ptr_freePtr fs t hi]
        by_cases hk : k = i <;> by_cases hkl : k ∈ l <;> simp [hk, hkl]
      case blockUsed =>
        intro b
        rw [h1.blockUsed, blockUsed_freePtr ho ht hi hz, Bool.and_eq_true, decide_eq_true_eq]
        simp only [ptr_freePtr fs t hi, forall_mem_cons]
        constructor
        · rintro ⟨⟨hbi, hb⟩, hl'⟩
          refine ⟨hb, fun _ => hbi, fun k hk hkz => ?_⟩
          by_cases hki : k = i
          · rw [hki]
            exact hbi
          · simpa [hki] using hl' k hk (by simpa [hki] using hkz)
        · rintro ⟨hb, hbi, hl'⟩
          refine ⟨⟨hbi hz, hb⟩, fun k hk hkz => ?_⟩
          by_cases hki : k = i
          · simp [hki] at hkz
          · simp only [hki, if_false] at hkz ⊢
            exact hl' k hk hkz
      case own_mem =>
        intro k hk
        by_cases hkl : k ∈ l
        · exact h1.own_mem k hkl
        · have hki : k = i := (mem_cons.mp hk).resolve_right hkl
          rw [h1.own_other _ fun j hj heq => hkl (by injection heq with _ h; rw [h]; exact hj),
            own_freePtr ht hi, if_pos (by rw [hki])]
      case own_other =>
        intro σ hσ
        rw [h1.own_other σ fun k hk => hσ k (mem_cons_of_mem _ hk), own_freePtr ht hi, if_neg (hσ i mem_cons_self)]
      case owned => exact h1.owned
      case count =>
        intro hc
        refine h1.count ?_
        have hr := ptr_range ho ht hi hz
        rw [FreeBlocksOk, freePtr, hfree]
        exact hc.clear hr.1.2 hr.2 (Geometry.blocksCount_lt fs)
    · have hz : (fs.inode t).ptr i = 0 := not_not.mp hz
      have h1 := ih fs ho ht
      refine { h1 with
        ptr := fun k => ?_, blockUsed := fun b => ?_, own_mem := fun k hk => ?_,
        own_other := fun σ hσ => h1.own_other σ fun k hk => hσ k (mem_cons_of_mem _ hk) }
      · rw [h1.ptr]
        by_cases hk : k = i <;> by_cases hkl : k ∈ l <;> simp [hk, hkl, hz]
      · rw [h1.blockUsed, forall_mem_cons]
        simp [hz]
      · by_cases hkl : k ∈ l
        · exact h1.own_mem k hkl
        · have hki : k = i := (mem_cons.mp hk).resolve_right hkl
          rw [h1.own_other _ fun j hj heq => hkl (by injection heq with _ h; rw [h]; exact hj),
            hki, own_root_of_used ht (by omega), hz]

end

/-! ### Freeing the inode -/

/-- What giving inode `t` back does. -/
structure Releases (t : Nat) (fs fs' : Ext2Filesystem) : Prop where
  shape : fs'.shape = fs.shape
  inodeUsed : ∀ m, fs'.inodeUsed m = (decide (m ≠ t) && fs.inodeUsed m)
  inode_ne : ∀ m, 1 ≤ m → m ≠ t → fs'.inode m = fs.inode m
  ptr : ∀ k, (fs'.inode t).ptr k = if k < 12 then 0 else (fs.inode t).ptr k
  blockUsed : ∀ b, fs'.blockUsed b = true ↔ fs.blockUsed b = true ∧
    ∀ k < 12, (fs.inode t).ptr k ≠ 0 → b ≠ (fs.inode t).ptr k
  own_low : ∀ k < 12, own fs' (.root t k) = 0
  own_other : ∀ σ, (∀ k < 12, σ ≠ .root t k) → own fs' σ = own fs σ
  owned : Owned fs'
  countBlocks : FreeBlocksOk fs → FreeBlocksOk fs'
  countInodes : FreeInodesOk fs → FreeInodesOk fs'
  data : ∀ b, fs.firstDataBlock ≤ b → ext2ReadBlock fs' b = ext2ReadBlock fs b

section release

variable {fs fs' : Ext2Filesystem} {t : Nat}

/-- An inode whose `block[0]` is empty can be freed without changing who owns what. -/
lemma own_freeInodeNum (ht : 1 ≤ t) (ht' : t ≤ fs.inodesCount) (hz : (fs.inode t).ptr 0 = 0)
    (σ : Slot) : own (ext2FreeInodeNum fs t) σ = own fs σ := by
  have hcount : (ext2FreeInodeNum fs t).inodesCount = fs.inodesCount :=
    inodesCount_of_shape (shape_freeInodeNum fs t)
  refine own_congr (fun i k => ?_) (fun τ _ _ => readBlock_freeInodeNum fs t _) σ
  rw [own, own, hcount, inode_freeInodeNum, inodeUsed_freeInodeNum fs ht ht']
  by_cases hk : k = 0
  · by_cases hit : i = t
    · rw [hk, hit, hz, ite_self, ite_self]
    · simp only [hit, ne_eq, not_false_eq_true, decide_true, Bool.true_and]
  · simp only [hk, false_imp_iff]

lemma releases_unlinkTarget (hg : Geometry fs) (ho : Owned fs) (ht : fs.inodeUsed t) :
    Releases t fs (unlinkTarget fs t) := by
  have hr := inodeUsed_range ht
  have h1 := freeDirect_spec (l := List.range 12) (fun i hi => mem_range.mp hi) fs ho ht
  set fs1 := freeDirect fs t (List.range 12) with hfs1
  set fs2 := fs1.setInode t { fs1.inode t with linksCount := 0, size := 0, blocks := 0 } with hfs2
  have hg2 : Geometry fs2 := hg.of_shape h1.shape
  -- clearing the attributes
  have hptr2 : (fs2.inode t).ptr = (fs1.inode t).ptr := by
    rw [hfs2, inode_setInode_self]
    exact ptr_eq_of_block rfl
  have hne2 : ∀ m, 1 ≤ m → m ≠ t → fs2.inode m = fs1.inode m := fun m hm hmt =>
    inode_setInode_of_ne _ _ hr.1 hm hmt
  have hown2 : ∀ σ, own fs2 σ = own fs1 σ := by
    refine own_congr (own_root_congr rfl (fun _ => rfl) fun i hi => ?_) fun _ _ _ => rfl
    by_cases hit : i = t
    · rw [hit, hptr2]
    · rw [hne2 i hi hit]
  have ho2 : Owned fs2 := Exclusive.congr h1.owned hown2 fun _ => rfl
  -- writing the inode back
  have hw3 := WriteBack.writeInode hg2 t
  set fs3 := ext2WriteInode fs2 t with hfs3
  have hg3 : Geometry fs3 := hg2.of_shape hw3.shape
  have hz3 : (fs3.inode t).ptr 0 = 0 := by
    rw [hw3.inode, hptr2, h1.ptr, if_pos (by decide)]
  have hr3 : t ≤ fs3.inodesCount := by
    rw [inodesCount_of_shape hw3.shape, show fs2.inodesCount = fs.inodesCount from
      inodesCount_of_shape h1.shape]
    exact hr.2
  have hown4 := own_freeInodeNum hr.1 hr3 hz3
  have hw5 := WriteBack.flush (hg3.of_shape (shape_freeInodeNum fs3 t))
  have ho4 : Owned (ext2FreeInodeNum fs3 t) := by
    have hs := shape_freeInodeNum fs3 t
    rw [Owned, firstDataBlock_of_shape hs, blocksCount_of_shape hs]
    exact Exclusive.congr (hw3.owned ho2) hown4 (blockUsed_freeInodeNum fs3 t)
  have hown : ∀ σ, own (unlinkTarget fs t) σ = own fs1 σ := fun σ =>
    (hw5.own_eq ho4 σ).trans ((hown4 σ).trans ((hw3.own_eq ho2 σ).trans (hown2 σ)))
  have hinode : ∀ m, (unlinkTarget fs t).inode m = fs2.inode m := fun m =>
    (hw5.inode m).trans ((inode_freeInodeNum fs3 t m).trans (hw3.inode m))
  have hused2 : ∀ m, fs2.inodeUsed m = fs.inodeUsed m := fun m => by
    rw [hfs2, inodeUsed_setInode, inodeUsed, inodeUsed, h1.inodeBitmap, inodesCount_of_shape h1.shape]
  constructor
  case shape => exact hw5.shape.trans ((shape_freeInodeNum fs3 t).trans (hw3.shape.trans h1.shape))
  case inodeUsed =>
    intro m
    rw [show (unlinkTarget fs t).inodeUsed m = (ext2FreeInodeNum fs3 t).inodeUsed m from
      hw5.inodeUsed m, inodeUsed_freeInodeNum fs3 hr.1 hr3, hw3.inodeUsed, hused2]
  case inode_ne => intro m hm hmt; rw [hinode, hne2 m hm hmt, h1.inode_ne m hm hmt]
  case ptr => intro k; rw [hinode, hptr2, h1.ptr]; simp only [mem_range]
  case blockUsed =>
    intro b
    have hb : (unlinkTarget fs t).blockUsed b = fs1.blockUsed b :=
      (hw5.blockUsed b).trans ((blockUsed_freeInodeNum fs3 t b).trans (hw3.blockUsed b))
    rw [hb, h1.blockUsed]
    simp only [mem_range]
  case own_low => intro k hk; rw [hown]; exact h1.own_mem k (mem_range.mpr hk)
  case own_other =>
    intro σ hσ
    rw [hown]
    exact h1.own_other σ fun k hk => hσ k (mem_range.mp hk)
  case owned => exact hw5.owned ho4
  case countBlocks =>
    intro hc
    refine hw5.freeBlocksOk ?_
    have hc3 := hw3.freeBlocksOk (show FreeBlocksOk fs2 from h1.count hc)
    rw [FreeBlocksOk, ext2FreeInodeNum, if_pos ⟨by omega, hr3⟩]
    exact hc3
  case countInodes =>
    intro hc
    have hbm : fs3.inodeBitmap = fs.inodeBitmap := hw3.inodeBitmap.trans h1.inodeBitmap
    have hsb : fs3.superblock.freeInodes = fs.superblock.freeInodes := by
      rw [hw3.superblock]
      exact h1.freeInodes
    have hcount : fs3.inodesCount = fs.inodesCount :=
      inodesCount_of_shape (hw3.shape.trans h1.shape)
    have hbit : Bitmap.bit fs.inodeBitmap (t - 1) = true := by
      simp only [Ext2Filesystem.inodeUsed, Bool.and_eq_true] at ht
      exact ht.2
    have hlt : fs.inodesCount < 2 ^ 32 := by have := hg.inodes_le; omega
    refine hw5.freeInodesOk ?_
    rw [FreeInodesOk, inodesCount_of_shape (shape_freeInodeNum fs3 t), ext2FreeInodeNum, if_pos ⟨by omega, hr3⟩, hcount]
    rw [hbm, hsb]
    exact hc.clear (by omega) hbit hlt
  case data =>
    intro b hb
    have hshape3 : fs3.firstDataBlock = fs.firstDataBlock :=
      firstDataBlock_of_shape (hw3.shape.trans h1.shape)
    rw [show ext2ReadBlock (unlinkTarget fs t) b = ext2ReadBlock (ext2FreeInodeNum fs3 t) b from
      hw5.data b (by rw [firstDataBlock_of_shape (shape_freeInodeNum fs3 t), hshape3]; exact hb),
      readBlock_freeInodeNum, hw3.data b (by
        rw [show fs2.firstDataBlock = fs.firstDataBlock from firstDataBlock_of_shape h1.shape]
        exact hb)]
    change ext2ReadBlock fs1 b = _
    rw [ext2ReadBlock, ext2ReadBlock, h1.device, bs_of_shape h1.shape]

lemma Releases.frame (h : Releases t fs fs') (ho : Owned fs) {d : Nat} (hd : fs.inodeUsed d = true) (hdt : d ≠ t) :
    SameDir fs fs' d :=
  .of_data ho hd (fun i _ => by rw [h.inode_ne d (inodeUsed_range hd).1 hdt]) fun b hb _ => h.data b hb

lemma Inv.release (hi : Inv fs) (h : Releases t fs fs') (ht : fs.inodeUsed t)
    (ht2 : t ≠ 2) (hno : (treeOf fs).Unlinked t) : Inv fs' ∧ Forest.Sim ((treeOf fs).drop t) (treeOf fs') := by
  have hused : ∀ m, fs'.inodeUsed m = true → m ≠ t ∧ fs.inodeUsed m = true := fun m hm => by
    simpa [h.inodeUsed] using hm
  have hinode : ∀ m, fs.inodeUsed m = true → m ≠ t → fs'.inode m = fs.inode m := fun m hm hmt =>
    h.inode_ne m (inodeUsed_range hm).1 hmt
  have hsim : Forest.Sim ((treeOf fs).drop t) (treeOf fs') := by
    constructor
    case used => exact h.inodeUsed
    case isDir =>
      intro x hx
      have hx : x ≠ t ∧ fs.inodeUsed x = true := by simpa [Forest.drop, treeOf] using hx
      change (fs'.inode x).isDir = (fs.inode x).isDir
      rw [hinode x hx.2 hx.1]
    case up =>
      intro d hd
      obtain ⟨hdt, hd⟩ := Forest.dir_drop.mp hd
      exact (h.frame hi.owned hd.1 hdt).up
    case links =>
      intro d hd
      obtain ⟨hdt, hd⟩ := Forest.dir_drop.mp hd
      exact List.Perm.of_eq (h.frame hi.owned hd.1 hdt).links
  refine ⟨⟨hi.geometry.of_shape h.shape, fun b hb => ?_, h.owned, ?_, ?_, (hi.tree.drop ht2 hno).of_sim hsim⟩, hsim⟩
  · rw [firstDataBlock_of_shape h.shape] at hb
    refine (h.blockUsed b).mpr ⟨hi.metadata b hb, fun k hk hz => ?_⟩
    have := (ptr_range hi.owned ht hk hz).1.1
    omega
  · intro m hm hm' hu k hk hk'
    rw [inodesCount_of_shape h.shape] at hm'
    by_cases hmt : m = t
    · rw [hmt, h.ptr, if_pos hk']
    · rw [h.inode_ne m hm hmt]
      refine hi.fresh m hm hm' ?_ k hk hk'
      simpa [h.inodeUsed, hmt] using hu
  · intro d hd hdir
    obtain ⟨hdt, hd⟩ := hused d hd
    rw [hinode d hd hdt] at hdir
    exact (h.frame hi.owned hd hdt).dirOk (hi.dirs d hd hdir)

end release

/-! ### Requests that fail after taking an inode -/

section

variable {fs : Ext2Filesystem} {n : Nat}

lemma freeInodeNum_memory (hn : FreeInode fs n) {fs' : Ext2Filesystem} (hcount : fs'.inodesCount = fs.inodesCount)
    (hbits : fs'.inodeBitmap = (markInode fs n).inodeBitmap) (hblocks : fs'.blockBitmap = fs.blockBitmap)
    (hsb : fs'.superblock = { fs.superblock with freeInodes := fs.superblock.freeInodes - 1 }) :
    (ext2FreeInodeNum fs' n).superblock = fs.superblock ∧ (ext2FreeInodeNum fs' n).blockBitmap = fs.blockBitmap ∧
      (ext2FreeInodeNum fs' n).inodeBitmap = fs.inodeBitmap := by
  obtain ⟨h1, h2, h3⟩ := hn
  have hbit : Bitmap.bit fs.inodeBitmap (n - 1) = false := by simpa [inodeUsed, h1, h2] using h3
  rw [ext2FreeInodeNum, if_pos ⟨by omega, by omega⟩]
  refine ⟨?_, hblocks, ?_⟩
  · rw [hsb]
    simp
  · rw [hbits]
    exact Bitmap.clearBit_setBit hbit

lemma still_noBlock (hn : FreeInode fs n) : Still fs (ext2FreeInodeNum (markInode fs n) n) := by
  have hcount : (markInode fs n).inodesCount = fs.inodesCount := rfl
  obtain ⟨hsb, hbb, hib⟩ := freeInodeNum_memory hn hcount rfl rfl rfl
  refine ⟨by rw [shape_freeInodeNum, shape_markInode], hsb, hbb, hib, fun m _ => ?_,
    fun m _ k _ => ?_, fun b _ => ?_, fun b _ _ => ?_⟩
  · rw [inode_freeInodeNum, inode_markInode]
  · rw [inode_freeInodeNum, inode_markInode]
  · rw [readBlock_freeInodeNum, readBlock_markInode]
  · rw [readBlock_freeInodeNum, readBlock_markInode]

lemma still_createFailed (hn : FreeInode fs n) (mode : UInt16) :
    Still fs (ext2FreeInodeNum (fileNode fs n mode) n) := by
  have hcount : (fileNode fs n mode).inodesCount = fs.inodesCount := rfl
  obtain ⟨hsb, hbb, hib⟩ := freeInodeNum_memory hn hcount rfl rfl rfl
  refine ⟨by rw [shape_freeInodeNum]; rfl, hsb, hbb, hib, fun m hm => ?_, fun m hm k hk => ?_,
    fun b _ => ?_, fun b _ _ => ?_⟩
  · rw [inode_freeInodeNum, inode_fileNode_of_ne hn mode (inodeUsed_range hm).1 (ne_of_freeInode hn hm)]
  · rw [inode_freeInodeNum]
    by_cases hmn : m = n
    · rw [hmn, inode_fileNode]
      exact ptr_setPtr_of_ne _ hk
    · rw [inode_fileNode_of_ne hn mode hm hmn]
  · rw [readBlock_freeInodeNum]
    rfl
  · rw [readBlock_freeInodeNum]
    rfl

lemma still_mkdirFailed (hg : Geometry fs) (hn : FreeInode fs n) {b : Nat} (hb : FreeBlock fs b)
    (p : Nat) (mode : UInt16) : Still fs (ext2FreeInodeNum (ext2FreeBlock (dirNode fs n b p mode) b) n) := by
  have hmem : (ext2FreeBlock (dirNode fs n b p mode) b).blockBitmap = fs.blockBitmap ∧
      (ext2FreeBlock (dirNode fs n b p mode) b).inodeBitmap = (markInode fs n).inodeBitmap ∧
      (ext2FreeBlock (dirNode fs n b p mode) b).superblock =
        { fs.superblock with freeInodes := fs.superblock.freeInodes - 1 } := by
    rw [ext2FreeBlock, if_pos (show b < (dirNode fs n b p mode).blocksCount from hb.1.2)]
    refine ⟨Bitmap.clearBit_setBit hb.2, rfl, ?_⟩
    simp [dirNode, markBlock, markInode, ext2WriteBlock, setInode]
  have hshape : (ext2FreeBlock (dirNode fs n b p mode) b).shape = fs.shape :=
    shape_freeBlock (dirNode fs n b p mode) b
  obtain ⟨hsb, hbb, hib⟩ := freeInodeNum_memory hn (inodesCount_of_shape hshape) hmem.2.1 hmem.1 hmem.2.2
  have hread : ∀ m, m ≠ b → ext2ReadBlock (dirNode fs n b p mode) m = ext2ReadBlock fs m :=
    fun m hm => readBlock_dirNode hg hm
  refine ⟨by rw [shape_freeInodeNum, hshape], hsb, hbb, hib, fun m hm => ?_, fun m hm k hk => ?_,
    fun m hm => ?_, fun m _ hm => ?_⟩
  · rw [inode_freeInodeNum, inode_freeBlock, inode_dirNode_of_ne hn (inodeUsed_range hm).1 (ne_of_freeInode hn hm)]
  · rw [inode_freeInodeNum, inode_freeBlock]
    by_cases hmn : m = n
    · rw [hmn, inode_dirNode, ptr_dirInode (fresh_ne_zero hg hb.1).2, if_neg hk]
    · rw [inode_dirNode_of_ne hn hm hmn]
  · rw [readBlock_freeInodeNum, readBlock_freeBlock]
    exact hread m (by have := hb.1.1; omega)
  · rw [readBlock_freeInodeNum, readBlock_freeBlock]
    exact hread m (ne_fresh_of_used hb.2 hm)

end

end VibeOS
