import VibeOS.Ext2.DirTree
import VibeOS.Ext2.Steps

/-!
# The filesystem invariant and the steps that keep it

`Inv fs` ties the layers together: exclusive ownership of blocks, well-formed directories and a
well-formed tree. The operations are built from a few steps, and each of them keeps it:

* `Agree.inv`: a change nobody looks at (write-back, attributes, a failed request);
* `Inv.grows`: growing a regular file;
* `Inv.fileNode`, `Inv.dirNode`: a new inode that has no name yet;
* `Inv.link`, `Inv.cut`: adding and removing a directory entry;
* `Inv.release`: giving back an inode without a name (in `VibeOS.Ext2.Release`).
-/

namespace VibeOS

open List
open Buf Ext2Filesystem Ownership

/-- The invariant of the ext2 layer. -/
structure Inv (fs : Ext2Filesystem) : Prop where
  geometry : Geometry fs
  metadata : ∀ b < fs.firstDataBlock, fs.blockUsed b = true
  owned : Owned fs
  fresh : ∀ n, 1 ≤ n → n ≤ fs.inodesCount → fs.inodeUsed n = false → ∀ k, 1 ≤ k → k < 12 → (fs.inode n).ptr k = 0
  dirs : ∀ d, fs.inodeUsed d = true → (fs.inode d).isDir = true → DirOk fs d
  tree : (treeOf fs).Ok 2

lemma Inv.lt_pow {fs : Ext2Filesystem} (h : Inv fs) {n : Nat} (hn : fs.inodeUsed n) : 1 ≤ n ∧ n < 2 ^ 32 := by
  have h1 := inodeUsed_range hn
  have h2 := h.geometry.inodes_le
  omega

/-! ### Changes nobody looks at -/

/-- The same filesystem as far as inodes in use and blocks in use go. -/
structure Agree (fs fs' : Ext2Filesystem) : Prop where
  shape : fs'.shape = fs.shape
  blockUsed : ∀ b, fs'.blockUsed b = fs.blockUsed b
  inodeUsed : ∀ m, fs'.inodeUsed m = fs.inodeUsed m
  ptr : ∀ m, 1 ≤ m → m ≤ fs.inodesCount → ∀ k < 14, (k = 0 → fs.inodeUsed m = true) →
    (fs'.inode m).ptr k = (fs.inode m).ptr k
  isDir : ∀ m, fs.inodeUsed m = true → (fs'.inode m).isDir = (fs.inode m).isDir
  data : ∀ b, fs.firstDataBlock ≤ b → fs.blockUsed b = true → ext2ReadBlock fs' b = ext2ReadBlock fs b
  countBlocks : FreeBlocksOk fs → FreeBlocksOk fs'
  countInodes : FreeInodesOk fs → FreeInodesOk fs'

lemma Agree.refl (fs : Ext2Filesystem) : Agree fs fs :=
  ⟨rfl, fun _ => rfl, fun _ => rfl, fun _ _ _ _ _ _ => rfl, fun _ _ => rfl, fun _ _ _ => rfl, fun h => h, fun h => h⟩

lemma Agree.trans {fs fs' fs'' : Ext2Filesystem} (h1 : Agree fs fs') (h2 : Agree fs' fs'') : Agree fs fs'' where
  shape := by rw [h2.shape, h1.shape]
  blockUsed b := by rw [h2.blockUsed, h1.blockUsed]
  inodeUsed m := by rw [h2.inodeUsed, h1.inodeUsed]
  ptr m hm hm' k hk hk0 := by
    rw [h2.ptr m hm (by rw [inodesCount_of_shape h1.shape]; exact hm') k hk
      (fun h => by rw [h1.inodeUsed]; exact hk0 h), h1.ptr m hm hm' k hk hk0]
  isDir m hm := by rw [h2.isDir m (by rw [h1.inodeUsed]; exact hm), h1.isDir m hm]
  data b hb hu := by
    rw [h2.data b (by rw [firstDataBlock_of_shape h1.shape]; exact hb)
      (by rw [h1.blockUsed]; exact hu), h1.data b hb hu]
  countBlocks h := h2.countBlocks (h1.countBlocks h)
  countInodes h := h2.countInodes (h1.countInodes h)

lemma WriteBack.agree {fs fs' : Ext2Filesystem} (h : WriteBack fs fs') : Agree fs fs' where
  shape := h.shape
  blockUsed := h.blockUsed
  inodeUsed := h.inodeUsed
  ptr m _ _ k _ _ := by rw [h.inode]
  isDir m _ := by rw [h.inode]
  data b hb _ := h.data b hb
  countBlocks := h.freeBlocksOk
  countInodes := h.freeInodesOk

variable {d m : Nat}

namespace Agree

variable {fs fs' : Ext2Filesystem} (h : Agree fs fs')

include h

lemma own_eq (ho : Owned fs) (σ : Slot) : own fs' σ = own fs σ := by
  refine own_congr (fun i k => ?_) (fun τ _ hτ => ?_) σ
  · rw [own, own, inodesCount_of_shape h.shape, h.inodeUsed]
    split_ifs with hc
    · exact h.ptr i hc.1 hc.2.1 k hc.2.2.1 hc.2.2.2
    · rfl
  · exact h.data _ (ho.range τ hτ).1 (ho.marked τ hτ)

lemma owned (ho : Owned fs) : Owned fs' := by
  rw [Owned, firstDataBlock_of_shape h.shape, blocksCount_of_shape h.shape]
  exact Exclusive.congr ho (h.own_eq ho) h.blockUsed

lemma frame (ho : Owned fs) (hd : fs.inodeUsed d) : SameDir fs fs' d :=
  have hr := inodeUsed_range hd
  .of_data ho hd (fun i hi => h.ptr d hr.1 hr.2 i (by omega) fun _ => hd) h.data

lemma sim (ho : Owned fs) : Forest.Sim (treeOf fs) (treeOf fs') where
  used := h.inodeUsed
  isDir := h.isDir
  up _ hd := (h.frame ho hd.1).up
  links _ hd := List.Perm.of_eq (h.frame ho hd.1).links

lemma inv (hi : Inv fs) : Inv fs' where
  geometry := hi.geometry.of_shape h.shape
  metadata b hb := by
    rw [firstDataBlock_of_shape h.shape] at hb
    rw [h.blockUsed]
    exact hi.metadata b hb
  owned := h.owned hi.owned
  fresh n hn hn' hu k hk hk' := by
    rw [inodesCount_of_shape h.shape] at hn'
    rw [h.inodeUsed] at hu
    rw [h.ptr n hn hn' k (by omega) (by omega)]
    exact hi.fresh n hn hn' hu k hk hk'
  dirs d hd hdir := by
    rw [h.inodeUsed] at hd
    rw [h.isDir d hd] at hdir
    exact (h.frame hi.owned hd).dirOk (hi.dirs d hd hdir)
  tree := hi.tree.of_sim (h.sim hi.owned)

end Agree

lemma Agree.setInode {fs : Ext2Filesystem} {n : Nat} {ino : Inode} (hn : 1 ≤ n)
    (hblock : ino.block = (fs.inode n).block) (hmode : ino.isDir = (fs.inode n).isDir) :
    Agree fs (fs.setInode n ino) where
  shape := rfl
  blockUsed _ := rfl
  inodeUsed _ := rfl
  ptr m hm _ k _ _ := by
    by_cases hmn : m = n
    · rw [hmn, inode_setInode_self, ptr_eq_of_block hblock]
    · rw [inode_setInode_of_ne _ _ hn hm hmn]
  isDir m hm := by
    by_cases hmn : m = n
    · rw [hmn, inode_setInode_self, hmode]
    · rw [inode_setInode_of_ne _ _ hn (inodeUsed_range hm).1 hmn]
  data _ _ _ := rfl
  countBlocks h := h
  countInodes h := h

/-! ### Requests that fail -/

/-- A request that failed: the inodes in use and everything on disk that is in use are as they were,
and of the other inodes only `block[0]` and attributes have changed. -/
structure Still (fs fs' : Ext2Filesystem) : Prop where
  shape : fs'.shape = fs.shape
  superblock : fs'.superblock = fs.superblock
  blockBitmap : fs'.blockBitmap = fs.blockBitmap
  inodeBitmap : fs'.inodeBitmap = fs.inodeBitmap
  inode : ∀ m, fs.inodeUsed m = true → fs'.inode m = fs.inode m
  ptr : ∀ m, 1 ≤ m → ∀ k, k ≠ 0 → (fs'.inode m).ptr k = (fs.inode m).ptr k
  metadata : ∀ b < fs.firstDataBlock, ext2ReadBlock fs' b = ext2ReadBlock fs b
  data : ∀ b, fs.firstDataBlock ≤ b → fs.blockUsed b = true → ext2ReadBlock fs' b = ext2ReadBlock fs b

lemma Still.refl (fs : Ext2Filesystem) : Still fs fs :=
  ⟨rfl, rfl, rfl, rfl, fun _ _ => rfl, fun _ _ _ _ => rfl, fun _ _ => rfl, fun _ _ _ => rfl⟩

lemma Still.agree {fs fs' : Ext2Filesystem} (h : Still fs fs') : Agree fs fs' where
  shape := h.shape
  blockUsed b := by rw [Ext2Filesystem.blockUsed, h.blockBitmap, Ext2Filesystem.blockUsed]
  inodeUsed m := by
    rw [Ext2Filesystem.inodeUsed, h.inodeBitmap, inodesCount_of_shape h.shape, Ext2Filesystem.inodeUsed]
  ptr m hm _ k _ hk := by
    by_cases hk0 : k = 0
    · rw [h.inode m (hk hk0)]
    · exact h.ptr m hm k hk0
  isDir m hm := by rw [h.inode m hm]
  data := h.data
  countBlocks hc := by
    rw [FreeBlocksOk, h.superblock, h.blockBitmap, blocksCount_of_shape h.shape]
    exact hc
  countInodes hc := by
    rw [FreeInodesOk, h.superblock, h.inodeBitmap, inodesCount_of_shape h.shape]
    exact hc

/-! ### Growing a file -/

namespace Grows

variable {n : Nat} {T : Slot → Prop} {fs fs' : Ext2Filesystem}

lemma isDir_eq (h : Grows n T fs fs') (hm : 1 ≤ m) : (fs'.inode m).isDir = (fs.inode m).isDir := by
  by_cases hmn : m = n
  · rw [hmn]
    exact isDir_eq_of_mode h.mode
  · rw [h.inode_ne m hm hmn]

/-- Growing an inode keeps the forest, but for the links of the inode itself. -/
lemma sim_of_ne (h : Grows n T fs fs') (hi : Inv fs) (hT : ∀ τ, T τ → τ.inode = n)
    (hd : (treeOf fs).Dir d) (hdn : d ≠ n) : dirUp fs' d = dirUp fs d ∧ dirLinks fs' d = dirLinks fs d :=
  have hsame := h.frame hi.owned hT hd.1 hdn
  ⟨hsame.up, hsame.links⟩

lemma inv_of_dirOk (h : Grows n T fs fs') (hi : Inv fs) (hT : ∀ τ, T τ → τ.inode = n)
    (hn : fs.inodeUsed n) (hok : (fs.inode n).isDir = true → DirOk fs' n)
    (htree : (treeOf fs').Ok 2) : Inv fs' where
  geometry := hi.geometry.of_shape h.shape
  metadata b hb := by
    rw [firstDataBlock_of_shape h.shape] at hb
    exact h.used_mono b (hi.metadata b hb)
  owned := h.owned
  fresh m hm hm' hu := by
    rw [inodesCount_of_shape h.shape] at hm'
    rw [h.inodeUsed] at hu
    have hmn : m ≠ n := by
      rintro rfl
      rw [hn] at hu
      cases hu
    rw [h.inode_ne m hm hmn]
    exact hi.fresh m hm hm' hu
  dirs d hd hdir := by
    rw [h.inodeUsed] at hd
    rw [h.isDir_eq (inodeUsed_range hd).1] at hdir
    by_cases hdn : d = n
    · rw [hdn] at hdir ⊢
      exact hok hdir
    · exact (h.frame hi.owned hT hd hdn).dirOk (hi.dirs d hd hdir)
  tree := htree

end Grows

section grows

variable {n : Nat} {T : Slot → Prop} {fs fs' : Ext2Filesystem}

lemma Grows.sim (h : Grows n T fs fs') (hi : Inv fs) (hT : ∀ τ, T τ → τ.inode = n)
    (hdir : (fs.inode n).isDir = false) : Forest.Sim (treeOf fs) (treeOf fs') := by
  have hne : ∀ d, (treeOf fs).Dir d → d ≠ n := by
    rintro d hd rfl
    rw [show (fs.inode d).isDir = true from hd.2] at hdir
    cases hdir
  constructor
  case used => exact h.inodeUsed
  case isDir => exact fun x hx => h.isDir_eq (inodeUsed_range hx).1
  case up => exact fun d hd => (h.sim_of_ne hi hT hd (hne d hd)).1
  case links => exact fun d hd => List.Perm.of_eq (h.sim_of_ne hi hT hd (hne d hd)).2

lemma Inv.grows (hi : Inv fs) (h : Grows n T fs fs') (hT : ∀ τ, T τ → τ.inode = n)
    (hn : fs.inodeUsed n) (hdir : (fs.inode n).isDir = false) : Inv fs' := by
  refine h.inv_of_dirOk hi hT hn (fun hd => ?_) (hi.tree.of_sim (h.sim hi hT hdir))
  rw [hdir] at hd
  cases hd

end grows

/-! ### Adding and removing a directory entry -/

section

variable {fs fs' : Ext2Filesystem} {p : Nat} {name : List UInt8}

lemma blocksOf_inode {n : Nat} (τ : Slot) (h : blocksOf n τ) : τ.inode = n := h

lemma Grows.sim_links (h : Grows p (blocksOf p) fs fs') (hi : Inv fs)
    (hup : dirUp fs' p = dirUp fs p) {f : Forest Nat (List UInt8)}
    (hused : f.used = (treeOf fs).used) (hisDir : f.isDir = (treeOf fs).isDir)
    (hfup : f.up = (treeOf fs).up) (hother : ∀ d, d ≠ p → f.links d = dirLinks fs d)
    (hlinks : (dirLinks fs' p).Perm (f.links p)) : Forest.Sim f (treeOf fs') := by
  have hdir : ∀ d, f.Dir d → (treeOf fs).Dir d := by
    intro d hd
    rw [Forest.Dir, hused, hisDir] at hd
    exact hd
  constructor
  case used => intro x; rw [hused]; exact h.inodeUsed x
  case isDir =>
    intro x hx
    rw [hused] at hx
    rw [hisDir]
    exact h.isDir_eq (inodeUsed_range hx).1
  case up =>
    intro d hd
    rw [hfup]
    by_cases hdp : d = p
    · rw [hdp]
      exact hup
    · exact (h.sim_of_ne hi blocksOf_inode (hdir d hd) hdp).1
  case links =>
    intro d hd
    by_cases hdp : d = p
    · rw [hdp]
      exact hlinks
    · rw [hother d hdp]
      exact List.Perm.of_eq (h.sim_of_ne hi blocksOf_inode (hdir d hd) hdp).2

lemma Inv.link (hi : Inv fs) {n : Nat} {fileType : UInt8} (hp : (treeOf fs).Dir p)
    (hn : fs.inodeUsed n) (hn2 : n ≠ 2) (hno : (treeOf fs).Unlinked n)
    (hup : (fs.inode n).isDir = true → dirUp fs n = p) (hlen : name.length ≤ 255)
    (hadd : addEntryToDir fs p n name fileType = some fs') :
    Inv fs' ∧ Forest.Sim ((treeOf fs).link p name n) (treeOf fs') ∧ Grows p (blocksOf p) fs fs' := by
  have hn32 := hi.lt_pow hn
  obtain ⟨hgrow, hok, hup', hperm⟩ := addEntryToDir_spec hi.geometry hi.owned hp.1
    (hi.dirs p hp.1 hp.2) hlen (by omega) hn32.2 hadd
  have hsim : Forest.Sim ((treeOf fs).link p name n) (treeOf fs') :=
    hgrow.sim_links hi hup' rfl rfl rfl
      (fun d hd => by simp only [Forest.link, if_neg hd]; rfl)
      (by simp only [Forest.link, if_true]; exact hperm)
  have htree := (hi.tree.link (a := name) hp hn hn2 hno hup).of_sim hsim
  exact ⟨hgrow.inv_of_dirOk hi blocksOf_inode hp.1 (fun _ => hok) htree, hsim, hgrow⟩

lemma Inv.cut (hi : Inv fs) {t : Nat} (hp : (treeOf fs).Dir p) (hdot : name ≠ [46]) (hdotdot : name ≠ [46, 46])
    (hrem : removeInBlocks fs (fs.inode p) name (List.range 12) = some (t, fs')) :
    Inv fs' ∧ Forest.Sim ((treeOf fs).cut p t) (treeOf fs') ∧
      (dirLinks fs p).Perm ((name, t) :: dirLinks fs' p) ∧ Grows p (blocksOf p) fs fs' := by
  obtain ⟨hgrow, hok, hup', hperm⟩ := removeInBlocks_spec hi.geometry hi.owned hp.1
    (hi.dirs p hp.1 hp.2) hdot hdotdot hrem
  -- no other link of `p` leads to `t`, so filtering removes exactly this one
  have hfilter : ((dirLinks fs p).filter fun e => e.2 ≠ t).Perm (dirLinks fs' p) := by
    have hnodup : ((name, t) :: dirLinks fs' p |>.map Prod.snd).Nodup :=
      (hperm.map Prod.snd).nodup_iff.mp (hi.tree.nodup p hp)
    refine (hperm.filter _).trans ?_
    rw [filter_cons_of_neg (by simp), filter_eq_self.mpr]
    intro e he
    rw [map_cons, nodup_cons] at hnodup
    simp only [ne_eq, decide_not, Bool.not_eq_true', decide_eq_false_iff_not]
    rintro rfl
    exact hnodup.1 (mem_map.mpr ⟨e, he, rfl⟩)
  have hsim : Forest.Sim ((treeOf fs).cut p t) (treeOf fs') :=
    hgrow.sim_links hi hup' rfl rfl rfl
      (fun d hd => by simp only [Forest.cut, if_neg hd]; rfl)
      (by simp only [Forest.cut, if_true]; exact hfilter.symm)
  exact ⟨hgrow.inv_of_dirOk hi blocksOf_inode hp.1 (fun _ => hok) (hi.tree.cut.of_sim hsim), hsim, hperm, hgrow⟩

end

/-! ### New inodes -/

section

variable {fs : Ext2Filesystem} {n : Nat}

lemma withType_and (mode type : UInt16) (h : type &&& EXT2_S_IFMT = type) :
    withType mode type &&& EXT2_S_IFMT = type := by
  have hz : mode &&& ~~~ EXT2_S_IFMT &&& EXT2_S_IFMT = 0 := by
    rw [UInt16.and_assoc, show ~~~ EXT2_S_IFMT &&& EXT2_S_IFMT = 0 by decide, UInt16.and_zero]
  have hdist : withType mode type &&& EXT2_S_IFMT =
      (mode &&& ~~~ EXT2_S_IFMT &&& EXT2_S_IFMT) ||| (type &&& EXT2_S_IFMT) := by
    apply UInt16.toBitVec_inj.mp
    simp only [withType, UInt16.toBitVec_and, UInt16.toBitVec_or]
    rw [BitVec.and_comm, BitVec.and_or_distrib_left, BitVec.and_comm, BitVec.and_comm _ type.toBitVec]
  rw [hdist, hz, h, UInt16.zero_or]

lemma isDir_fileInode (old : Inode) (mode : UInt16) : (fileInode old mode).isDir = false := by
  have := withType_and mode EXT2_S_IFREG (by decide)
  simp only [Inode.isDir, fileInode, this]
  decide

lemma isDir_dirInode (fs : Ext2Filesystem) (n b : Nat) (mode : UInt16) : (dirInode fs n b mode).isDir = true := by
  have := withType_and mode EXT2_S_IFDIR (by decide)
  simp only [Inode.isDir, dirInode, this]
  decide

/-- A new file owns nothing new: `block[0]` is cleared, and the other pointers are kept. -/
lemma own_fileNode (hn : FreeInode fs n) (mode : UInt16) (σ : Slot) : own (fileNode fs n mode) σ = own fs σ := by
  obtain ⟨h1, h2, hfree⟩ := hn
  have hread : ∀ b, ext2ReadBlock (fileNode fs n mode) b = ext2ReadBlock fs b := fun _ => rfl
  refine own_congr (fun i k => ?_) (fun τ _ _ => hread _) σ
  have hcount : (fileNode fs n mode).inodesCount = fs.inodesCount := rfl
  have hused : (fileNode fs n mode).inodeUsed i = (decide (i = n) || fs.inodeUsed i) :=
    inodeUsed_markInode fs (by omega) h2 i
  rw [own, own, hcount, hused]
  by_cases hin : i = n
  · subst hin
    have hinode : (fileNode fs i mode).inode i = fileInode (fs.inode i) mode :=
      inode_setInode_self _ _ _
    rw [hinode]
    by_cases hk : k = 0
    · subst hk
      have hz : (fileInode (fs.inode i) mode).ptr 0 = 0 :=
        ptr_setPtr_self (fs.inode i) (by omega) (by norm_num)
      simp only [hz, ite_self, hfree, Bool.false_eq_true, imp_false, not_true_eq_false, and_false, if_false]
    · simp only [hk, false_imp_iff]
      rw [show (fileInode (fs.inode i) mode).ptr k = (fs.inode i).ptr k from ptr_setPtr_of_ne _ hk]
  · simp only [hin, decide_false, Bool.false_or]
    split_ifs with hc
    · rw [fileNode, inode_setInode_of_ne _ _ (by omega) hc.1 hin, inode_markInode]
    · rfl

lemma ne_of_freeInode (hn : FreeInode fs n) (hd : fs.inodeUsed d) : d ≠ n := by
  rintro rfl
  rw [hn.2.2] at hd
  cases hd

lemma Inv.node (hi : Inv fs) (fs' : Ext2Filesystem) (hn : FreeInode fs n) (hshape : fs'.shape = fs.shape)
    (hused : ∀ m, fs'.inodeUsed m = (decide (m = n) || fs.inodeUsed m))
    (hne : ∀ m, 1 ≤ m → m ≠ n → fs'.inode m = fs.inode m)
    (hmono : ∀ b, fs.blockUsed b → fs'.blockUsed b) (howned : Owned fs')
    (hread : ∀ b, fs.firstDataBlock ≤ b → fs.blockUsed b → ext2ReadBlock fs' b = ext2ReadBlock fs b) (p : Nat)
    (hnew : (fs'.inode n).isDir = true → DirOk fs' n ∧ dirUp fs' n = p ∧ dirLinks fs' n = []) :
    Inv fs' ∧ Forest.Sim ((treeOf fs).alloc n (fs'.inode n).isDir p) (treeOf fs') := by
  have hold : ∀ m, m ≠ n → fs'.inodeUsed m = fs.inodeUsed m := fun m hm => by
    rw [hused, decide_eq_false hm, Bool.false_or]
  have hsame : ∀ d, fs.inodeUsed d = true → SameDir fs fs' d := fun d hd =>
    .of_data hi.owned hd (fun i _ => by rw [hne d (inodeUsed_range hd).1 (ne_of_freeInode hn hd)]) hread
  have hsim : Forest.Sim ((treeOf fs).alloc n (fs'.inode n).isDir p) (treeOf fs') := by
    constructor
    case used => exact hused
    case isDir =>
      intro x hx
      by_cases hxn : x = n
      · simp only [hxn, treeOf, Forest.alloc, if_true]
      · have hx : fs.inodeUsed x = true := by simpa [Forest.alloc, hxn, treeOf] using hx
        simp only [treeOf, Forest.alloc, if_neg hxn, hne x (inodeUsed_range hx).1 hxn]
    case up =>
      intro d hd
      by_cases hdn : d = n
      · subst hdn
        have hdir : (fs'.inode d).isDir = true := by simpa [Forest.alloc] using hd.2
        simp only [Forest.alloc, if_true]
        exact (hnew hdir).2.1
      · simp only [Forest.alloc, if_neg hdn]
        have hd := ((Forest.dir_alloc_of_ne hdn).mp hd).1
        exact (hsame d hd).up
    case links =>
      intro d hd
      by_cases hdn : d = n
      · subst hdn
        have hdir : (fs'.inode d).isDir = true := by simpa [Forest.alloc] using hd.2
        simp only [Forest.alloc, if_true]
        exact List.Perm.of_eq (hnew hdir).2.2
      · rw [Forest.links_alloc_of_ne hdn]
        have hd := ((Forest.dir_alloc_of_ne hdn).mp hd).1
        exact List.Perm.of_eq (hsame d hd).links
  refine ⟨⟨hi.geometry.of_shape hshape, fun b hb => ?_, howned, ?_, ?_, (hi.tree.alloc hn.2.2).of_sim hsim⟩, hsim⟩
  · rw [firstDataBlock_of_shape hshape] at hb
    exact hmono b (hi.metadata b hb)
  · intro m hm hm' hu k hk hk'
    have hmn : m ≠ n := by
      rintro rfl
      simp [hused] at hu
    rw [inodesCount_of_shape hshape] at hm'
    rw [hold m hmn] at hu
    rw [hne m hm hmn]
    exact hi.fresh m hm hm' hu k hk hk'
  · intro d hd hdir
    by_cases hdn : d = n
    · rw [hdn] at hdir ⊢
      exact (hnew hdir).1
    · rw [hold d hdn] at hd
      rw [hne d (inodeUsed_range hd).1 hdn] at hdir
      exact (hsame d hd).dirOk (hi.dirs d hd hdir)

lemma inode_fileNode (fs : Ext2Filesystem) (n : Nat) (mode : UInt16) :
    (fileNode fs n mode).inode n = fileInode (fs.inode n) mode := inode_setInode_self _ _ _

lemma inode_fileNode_of_ne (hn : FreeInode fs n) (mode : UInt16) (hm : 1 ≤ m)
    (hmn : m ≠ n) : (fileNode fs n mode).inode m = fs.inode m := by
  rw [fileNode, inode_setInode_of_ne _ _ hn.1 hm hmn, inode_markInode]

lemma inodeUsed_fileNode (hn : FreeInode fs n) {mode : UInt16} (m : Nat) :
    (fileNode fs n mode).inodeUsed m = (decide (m = n) || fs.inodeUsed m) :=
  inodeUsed_markInode fs hn.1 hn.2.1 m

lemma freeInodesOk_fileNode (hn : FreeInode fs n) (mode : UInt16) (h : FreeInodesOk fs) :
    FreeInodesOk (fileNode fs n mode) :=
  h.markInode hn.1 hn.2.1 hn.2.2

lemma Inv.fileNode (hi : Inv fs) (hn : FreeInode fs n) (mode : UInt16) (p : Nat) : Inv (fileNode fs n mode) ∧
      Forest.Sim ((treeOf fs).alloc n false p) (treeOf (fileNode fs n mode)) := by
  have hinode := inode_fileNode fs n mode
  have hdir : ((VibeOS.fileNode fs n mode).inode n).isDir = false := by
    rw [hinode, isDir_fileInode]
  have hres := hi.node (VibeOS.fileNode fs n mode) hn rfl (inodeUsed_fileNode hn)
    (fun m hm hmn => inode_fileNode_of_ne hn mode hm hmn)
    (fun _ h => h) (Exclusive.congr hi.owned (own_fileNode hn mode) fun _ => rfl)
    (fun _ _ _ => rfl) p fun h => by rw [hdir] at h; cases h
  rw [hdir] at hres
  exact hres

lemma chain_dotBlock (n p : Nat) : Chain (dotBlock 1024 n p) 0 [dotEntry n, dotdotEntry (UInt32.ofNat p) 1012] := by
  have hfirst : dirEntryAt (fillEntry (Buf.zero.putU16 4 12) 0 n [46] 2) 0 = dotEntry n := by
    rw [dirEntryAt_fillEntry (by decide), getU16_putU16]
    rfl
  have hfit : entryLen 1 ≤ 12 ∧ entryLen 2 ≤ 1012 := by decide
  refine ⟨?_, hfit.1, ?_, hfit.2, rfl⟩
  · rw [← hfirst]
    refine dirEntryAt_congr fun k hk => ?_
    change k < 8 + 1 at hk
    rw [dotBlock, fillEntry_of_not_mem (by omega), putU16, blit_of_not_mem (by omega)]
  · change dirEntryAt (dotBlock 1024 n p) 12 = _
    rw [dotBlock, dirEntryAt_fillEntry (by decide), getU16_putU16]
    rfl

section dirNode

variable {b p : Nat} {mode : UInt16}

lemma inode_dirNode : (dirNode fs n b p mode).inode n = dirInode fs n b mode :=
  inode_setInode_self _ _ _

lemma inode_dirNode_of_ne (hn : FreeInode fs n) (hm : 1 ≤ m) (hmn : m ≠ n) :
    (dirNode fs n b p mode).inode m = fs.inode m := by
  have h1 := hn.1
  rw [dirNode, inode_writeBlock, inode_setInode_of_ne _ _ (by omega) hm hmn, inode_markBlock, inode_markInode]

lemma readBlock_dirNode (hg : Geometry fs) (hm : m ≠ b) :
    ext2ReadBlock (dirNode fs n b p mode) m = ext2ReadBlock fs m :=
  readBlock_writeBlock_of_ne (hg.of_shape rfl) _ hm

lemma readBlock_dirNode_self (n b p : Nat) (mode : UInt16) (hg : Geometry fs) :
    ext2ReadBlock (dirNode fs n b p mode) b = trunc (dotBlock 1024 n p) :=
  (readBlock_writeBlock_self (hg.of_shape rfl) b _).trans (by rw [hg.bs_eq])

lemma inodeUsed_dirNode (hn : FreeInode fs n) (m : Nat) :
    (dirNode fs n b p mode).inodeUsed m = (decide (m = n) || fs.inodeUsed m) := by
  have h1 := hn.1
  exact inodeUsed_markInode fs (by omega) hn.2.1 m

lemma blockUsed_dirNode (m : Nat) : (dirNode fs n b p mode).blockUsed m = (decide (m = b) || fs.blockUsed m) :=
  blockUsed_markBlock (markInode fs n) b m

lemma freeBlocksOk_dirNode (hb : FreeBlock fs b) (h : FreeBlocksOk fs) : FreeBlocksOk (dirNode fs n b p mode) :=
  (show FreeBlocksOk (markInode fs n) from h).markBlock hb.1.2 hb.2

lemma freeInodesOk_dirNode (hn : FreeInode fs n) (h : FreeInodesOk fs) : FreeInodesOk (dirNode fs n b p mode) :=
  h.markInode hn.1 hn.2.1 hn.2.2

lemma ptr_dirInode {k : Nat} (hb : b < 2 ^ 32) :
    (dirInode fs n b mode).ptr k = if k = 0 then b else (fs.inode n).ptr k := by
  split_ifs with hk
  · rw [hk]
    exact ptr_setPtr_self (fs.inode n) (by omega) hb
  · exact ptr_setPtr_of_ne (fs.inode n) hk

variable (hg : Geometry fs) (ho : Owned fs) (hn : FreeInode fs n) (hb : FreeBlock fs b)

include hg ho hn hb in
lemma own_dirNode (σ : Slot) : own (dirNode fs n b p mode) σ = if σ = .root n 0 then b else own fs σ := by
  have h1 := hn.1
  have hb32 := fresh_ne_zero hg hb.1
  have hcount : (dirNode fs n b p mode).inodesCount = fs.inodesCount := rfl
  refine own_assign ?_ (fun _ => ?_) (fun i k hik => ?_) (fun q j _ _ _ hq => ?_) (fun h => ?_) σ
  · rw [own, if_neg]
    rintro ⟨-, -, -, h⟩
    rw [hn.2.2] at h
    exact absurd (h rfl) (by decide)
  · rw [own_root_of_used (by rw [inodeUsed_dirNode hn]; simp) (by omega), inode_dirNode,
      ptr_dirInode hb32.2, if_pos rfl]
  · rw [own, own, hcount, inodeUsed_dirNode hn]
    by_cases hin : i = n
    · subst hin
      have hk : k ≠ 0 := fun h => hik (by rw [h])
      simp only [inode_dirNode, ptr_dirInode hb32.2, hk, if_false, false_imp_iff]
    · simp only [hin, decide_false, Bool.false_or]
      split_ifs with hc
      · rw [inode_dirNode_of_ne hn hc.1 hin]
      · rfl
  · exact ptrGet_congr (readBlock_dirNode hg (own_ne_fresh hg ho hb.1 hb.2 q))
  · exact absurd h (by simp [Slot.level])

include hg ho hn hb in
lemma owned_dirNode : Owned (dirNode fs n b p mode) :=
  Exclusive.assign ho hb.1 (fresh_ne_zero hg hb.1).1 hb.2 (own_dirNode hg ho hn hb)
    blockUsed_dirNode

include hg hn hb in
lemma dirOk_dirNode (hfresh : ∀ k, 1 ≤ k → k < 12 → (fs.inode n).ptr k = 0) (hp : p ≠ 0) (hp' : p < 2 ^ 32) :
    DirOk (dirNode fs n b p mode) n ∧ dirUp (dirNode fs n b p mode) n = p ∧
      dirLinks (dirNode fs n b p mode) n = [] := by
  have h1 := hn.1
  have hb32 := fresh_ne_zero hg hb.1
  have hn32 : 1 ≤ n ∧ n < 2 ^ 32 := by
    have h2 := hn.2.1
    have h3 := hg.inodes_le
    omega
  obtain ⟨hpnat, hp0⟩ := ofNat_inode hp hp'
  have hptr : ∀ k < 12, ((dirNode fs n b p mode).inode n).ptr k = if k = 0 then b else 0 := by
    intro k hk
    rw [inode_dirNode, ptr_dirInode hb32.2]
    split_ifs with hk0
    · rfl
    · exact hfresh k (by omega) hk
  have hself := readBlock_dirNode_self n b p mode hg
  have hchain := chain_trunc (chain_dotBlock n p)
  have hent := blockEntries_eq hchain
  have hfirst : ((dirNode fs n b p mode).inode n).ptr 0 = b := by rw [hptr 0 (by omega), if_pos rfl]
  have hok : DirOk (dirNode fs n b p mode) n := by
    constructor
    case first => rw [hfirst]; exact hb32.1
    case run =>
      intro i hi' hz
      rw [hptr (i + 1) (by omega), if_neg (by omega)]
    case tiled =>
      intro i hi' hz
      have hi0 : i = 0 := by
        by_contra h0
        exact hz (by rw [hptr i hi', if_neg h0])
      rw [hi0, hfirst, hself]
      exact Tiled.of_chain hchain
    case dots =>
      rw [hfirst, hself]
      exact ⟨_, _, _, hp0, hent⟩
  have hpairs : dirPairs (dirNode fs n b p mode) n = [([46], n), ([46, 46], p)] := by
    have h0 := blockPairs_zero_of_dots hok.first hn32 hp0 (by rw [hfirst, hself]; exact hent)
    have htail : (List.range' 1 11).flatMap (blockPairs (dirNode fs n b p mode) n) = [] := by
      refine flatMap_eq_nil_iff.mpr fun i hi' => ?_
      have := mem_range'_1.mp hi'
      have hz : ((dirNode fs n b p mode).inode n).ptr i = 0 := by
        rw [hptr i (by omega), if_neg (by omega)]
      rw [blockPairs, if_pos hz]
    rw [dirPairs_eq_append, h0, htail, hpnat]
    rfl
  exact ⟨hok, by rw [dirUp, hpairs]; rfl, by rw [dirLinks, hpairs]; rfl⟩

lemma Inv.dirNode (hi : Inv fs) (hn : FreeInode fs n) (hb : FreeBlock fs b) (mode : UInt16)
    (hp : p ≠ 0) (hp' : p < 2 ^ 32) : Inv (dirNode fs n b p mode) ∧
      Forest.Sim ((treeOf fs).alloc n true p) (treeOf (dirNode fs n b p mode)) := by
  have hdir : ((VibeOS.dirNode fs n b p mode).inode n).isDir = true := by
    rw [inode_dirNode, isDir_dirInode]
  have hres := hi.node (VibeOS.dirNode fs n b p mode) hn rfl (inodeUsed_dirNode hn)
    (fun m hm hmn => inode_dirNode_of_ne hn hm hmn)
    (fun m hm => by rw [blockUsed_dirNode, hm, Bool.or_true]) (owned_dirNode hi.geometry hi.owned hn hb)
    (fun m _ hm => readBlock_dirNode hi.geometry (ne_fresh_of_used hb.2 hm)) p
    fun _ => dirOk_dirNode hi.geometry hn hb (hi.fresh n hn.1 hn.2.1 hn.2.2) hp hp'
  rw [hdir] at hres
  exact hres

end dirNode

end

end VibeOS
