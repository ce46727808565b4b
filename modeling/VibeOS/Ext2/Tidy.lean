import VibeOS.Ext2.Format

/-!
# Nothing is lost

Two properties that only tidy removals keep, on top of `Inv`. `Tight fs` says that every marked
block has an owner and that the two counters are right; a removal keeps it when its target has no
pointer tables, which `ext2_unlink` never frees (`tight_apply`). `(treeOf fs).Full 2` says that every
inode in use can be reached from the root; a removal keeps it when its target holds no entries,
because `ext2_unlink` takes the name away before it looks, and looks at the first block only
(`full_apply`).
-/

namespace VibeOS

open List
open Buf Ext2Filesystem Ownership

/-- Every marked block has an owner, inodes not in use own nothing, and the counters are right. -/
structure Tight (fs : Ext2Filesystem) : Prop where
  noLeak : NoLeak (own fs) fs.blockUsed fs.firstDataBlock fs.blocksCount
  tables : ∀ n, 1 ≤ n → n ≤ fs.inodesCount → fs.inodeUsed n = false → (fs.inode n).ptr 12 = 0 ∧ (fs.inode n).ptr 13 = 0
  blocks : FreeBlocksOk fs
  inodes : FreeInodesOk fs

section steps

variable {fs fs' : Ext2Filesystem} {n b : Nat}

lemma Agree.tight (h : Agree fs fs') (ho : Owned fs) (ht : Tight fs) : Tight fs' where
  noLeak := by
    intro x hlo hhi hx
    rw [firstDataBlock_of_shape h.shape] at hlo
    rw [blocksCount_of_shape h.shape] at hhi
    rw [h.blockUsed] at hx
    obtain ⟨σ, hσ⟩ := ht.noLeak x hlo hhi hx
    exact ⟨σ, by rw [h.own_eq ho, hσ]⟩
  tables m hm hm' hu := by
    rw [inodesCount_of_shape h.shape] at hm'
    rw [h.inodeUsed] at hu
    rw [h.ptr m hm hm' 12 (by omega) (by omega), h.ptr m hm hm' 13 (by omega) (by omega)]
    exact ht.tables m hm hm' hu
  blocks := h.countBlocks ht.blocks
  inodes := h.countInodes ht.inodes

lemma Grows.tight {T : Slot → Prop} (h : Grows n T fs fs') (hg : Geometry fs)
    (hn : fs.inodeUsed n) (ht : Tight fs) : Tight fs' where
  noLeak := by
    intro x hlo hhi hx
    rw [firstDataBlock_of_shape h.shape] at hlo
    rw [blocksCount_of_shape h.shape] at hhi
    have hge := hg.first_ge
    rcases h.used_new x hx with hold | ⟨σ, -, hσ, -⟩
    · obtain ⟨σ, hσ⟩ := ht.noLeak x hlo hhi hold
      exact ⟨σ, by rw [h.own_mono σ (by omega), hσ]⟩
    · exact ⟨σ, hσ⟩
  tables m hm hm' hu := by
    rw [inodesCount_of_shape h.shape] at hm'
    rw [h.inodeUsed] at hu
    have hmn : m ≠ n := by
      rintro rfl
      rw [hn] at hu
      cases hu
    rw [h.inode_ne m hm hmn]
    exact ht.tables m hm hm' hu
  blocks := h.count ht.blocks
  inodes := by
    have hc := ht.inodes
    rw [FreeInodesOk] at hc ⊢
    rw [h.inodeBitmap, h.freeInodes, inodesCount_of_shape h.shape]
    exact hc

lemma Tight.tables_of_node (ht : Tight fs) (hcount : fs'.inodesCount = fs.inodesCount)
    (hused : ∀ m, fs'.inodeUsed m = (decide (m = n) || fs.inodeUsed m))
    (hinode : ∀ m, 1 ≤ m → m ≠ n → fs'.inode m = fs.inode m) (m : Nat) (hm : 1 ≤ m)
    (hm' : m ≤ fs'.inodesCount) (hu : fs'.inodeUsed m = false) :
    (fs'.inode m).ptr 12 = 0 ∧ (fs'.inode m).ptr 13 = 0 := by
  rw [hused, Bool.or_eq_false_iff, decide_eq_false_iff_not] at hu
  rw [hinode m hm hu.1]
  exact ht.tables m hm (by omega) hu.2

lemma Tight.fileNode (ht : Tight fs) (hn : FreeInode fs n) (mode : UInt16) : Tight (fileNode fs n mode) where
  noLeak := by
    intro x hlo hhi hx
    obtain ⟨σ, hσ⟩ := ht.noLeak x hlo hhi hx
    exact ⟨σ, by rw [own_fileNode hn mode, hσ]⟩
  tables := ht.tables_of_node rfl (inodeUsed_fileNode hn) fun m hm hmn =>
    inode_fileNode_of_ne hn mode hm hmn
  blocks := ht.blocks
  inodes := freeInodesOk_fileNode hn mode ht.inodes

lemma Tight.dirNode (ht : Tight fs) (hg : Geometry fs) (ho : Owned fs) (hn : FreeInode fs n)
    (hb : FreeBlock fs b) (p : Nat) (mode : UInt16) : Tight (dirNode fs n b p mode) where
  noLeak := by
    have hge := hg.first_ge
    refine NoLeak.assign ht.noLeak ?_ (show 0 < fs.firstDataBlock by omega)
      (own_dirNode hg ho hn hb) blockUsed_dirNode
    rw [own, if_neg]
    rintro ⟨-, -, -, h⟩
    rw [hn.2.2] at h
    exact absurd (h rfl) (by decide)
  tables := ht.tables_of_node rfl (inodeUsed_dirNode hn) fun m hm hmn =>
    inode_dirNode_of_ne hn hm hmn
  blocks := freeBlocksOk_dirNode hb ht.blocks
  inodes := freeInodesOk_dirNode hn ht.inodes

lemma Releases.tight {t : Nat} (h : Releases t fs fs') (hg : Geometry fs)
    (hu : fs.inodeUsed t) (h12 : (fs.inode t).ptr 12 = 0) (h13 : (fs.inode t).ptr 13 = 0)
    (ht : Tight fs) : Tight fs' where
  noLeak := by
    intro x hlo hhi hx
    rw [firstDataBlock_of_shape h.shape] at hlo
    rw [blocksCount_of_shape h.shape] at hhi
    have hge := hg.first_ge
    obtain ⟨hold, hne⟩ := (h.blockUsed x).mp hx
    obtain ⟨σ, hσ⟩ := ht.noLeak x hlo hhi hold
    refine ⟨σ, ?_⟩
    rw [h.own_other, hσ]
    rintro k hk rfl
    rw [own_root_of_used hu (by omega)] at hσ
    exact hne k hk (by omega) hσ.symm
  tables m hm hm' hum := by
    rw [inodesCount_of_shape h.shape] at hm'
    by_cases hmt : m = t
    · rw [hmt, h.ptr, h.ptr, if_neg (by omega), if_neg (by omega)]
      exact ⟨h12, h13⟩
    · rw [h.inode_ne m hm hmt]
      refine ht.tables m hm hm' ?_
      simpa [h.inodeUsed, hmt] using hum
  blocks := h.countBlocks ht.blocks
  inodes := h.countInodes ht.inodes

end steps

/-! ### Steps and runs -/

/-- The target of a removal has no pointer tables. -/
def Op.Flat (fs : Ext2Filesystem) : Op → Prop
  | .unlink path => ∀ t ∈ unlinkFinds fs path.bytes, (fs.inode t).ptr 12 = 0 ∧ (fs.inode t).ptr 13 = 0
  | _ => True

/-- The target of a removal is not a directory that holds entries. -/
def Op.Leaf (fs : Ext2Filesystem) : Op → Prop
  | .unlink path => ∀ t ∈ unlinkFinds fs path.bytes, (fs.inode t).isDir = true → dirLinks fs t = []
  | _ => True

instance (fs : Ext2Filesystem) : (op : Op) → Decidable (op.Flat fs)
  | .create _ _ | .mkdir _ _ | .truncate _ | .write _ _ _ => .isTrue trivial
  | .unlink path => inferInstanceAs (Decidable (∀ t ∈ unlinkFinds fs path.bytes, _))

instance (fs : Ext2Filesystem) : (op : Op) → Decidable (op.Leaf fs)
  | .create _ _ | .mkdir _ _ | .truncate _ | .write _ _ _ => .isTrue trivial
  | .unlink path => inferInstanceAs (Decidable (∀ t ∈ unlinkFinds fs path.bytes, _ → _))

section apply

variable {fs : Ext2Filesystem}

lemma tight_apply (hi : Inv fs) (ht : Tight fs) (op : Op) (hop : op.Nice fs)
    (hflat : op.Flat fs) : Tight (op.apply fs) := by
  cases op with
  | create path mode =>
    rcases create_spec hi path mode with ⟨fs', h, hstill⟩ |
      ⟨n, p, name, fs1, hn, hname, hp, hadd, h, hi1, hgrow, hw, hsim⟩
    · rw [Op.apply, h]
      exact hstill.agree.tight hi.owned ht
    · rw [Op.apply, h]
      have hp' : (fileNode fs n mode).inodeUsed p = true := by
        rw [inodeUsed_fileNode hn, show fs.inodeUsed p = true from hp.1, Bool.or_true]
      exact hw.agree.tight hi1.owned (hgrow.tight (hi.geometry.of_shape rfl) hp' (ht.fileNode hn mode))
  | mkdir path mode =>
    rcases mkdir_spec hi path.bytes mode with ⟨fs', h, hstill⟩ |
      ⟨n, b, p, name, fs1, hn, hb, hname, hp, hadd, h, hi1, hgrow, hinc, hw, hsim⟩
    · rw [Op.apply, h]
      exact hstill.agree.tight hi.owned ht
    · rw [Op.apply, h]
      have hp' : (dirNode fs n b p mode).inodeUsed p = true := by
        rw [inodeUsed_dirNode hn, show fs.inodeUsed p = true from hp.1, Bool.or_true]
      have ht1 := hgrow.tight (hi.geometry.of_shape rfl) hp' (ht.dirNode hi.geometry hi.owned hn hb p mode)
      exact hw.agree.tight (hinc.owned hi1.owned) (hinc.tight hi1.owned ht1)
  | write n offset data =>
    rcases write_spec hi n offset data hop with ⟨-, h⟩ | ⟨done, fs1, hn, -, -, -, h, hgrow, hi1, hsize, hw⟩
    · rw [Op.apply, h]
      exact ht
    · rw [Op.apply, h]
      have ht1 := hgrow.tight hi.geometry hn ht
      exact hw.agree.tight (hsize.owned hi1.owned) (hsize.tight hi1.owned ht1)
  | truncate path => exact (truncate_spec hi path.bytes).tight hi.owned ht
  | unlink path =>
    rcases unlink_spec hi path.bytes hop with h |
      ⟨p, name, t, fs1, hold, hp, hperm, hi1, hgrow, hsim, ⟨-, h⟩ | ⟨-, h, hi2, hrel, -⟩⟩
    · rw [Op.apply, h]
      exact ht
    · rw [Op.apply, h]
      exact hgrow.tight hi.geometry hp.1 ht
    · rw [Op.apply, h]
      have hmem : (name, t) ∈ dirLinks fs p := hperm.mem_iff.mpr mem_cons_self
      have htu := hi.tree.link_used p (name, t) hp hmem
      obtain ⟨h12, h13⟩ := hflat t hold.finds
      rw [← hold.inode] at h12 h13
      exact hrel.tight hi1.geometry ((hgrow.inodeUsed t).trans htu.1) h12 h13 (hgrow.tight hi.geometry hp.1 ht)

lemma links_of_dirNotEmpty (hi : Inv fs) {t : Nat} (ht : fs.inodeUsed t)
    (h : dirNotEmpty fs (fs.inode t)) : (fs.inode t).isDir = true ∧ dirLinks fs t ≠ [] := by
  simp only [dirNotEmpty, Bool.and_eq_true, decide_eq_true_eq] at h
  obtain ⟨⟨hdir, hz⟩, hcount⟩ := h
  have hok := hi.dirs t ht hdir
  refine ⟨hdir, fun hnil => ?_⟩
  have hchain := (hok.tiled 0 (by omega) hz).chain
  rw [hi.geometry.bs_eq, countEntries_eq hchain (by
    have := hchain.length_le
    omega)] at hcount
  have hpairs := hok.dirPairs_eq (hi.lt_pow ht)
  rw [dirPairs_eq_append, blockPairs, if_neg hz, hnil] at hpairs
  have hlen := congrArg List.length hpairs
  simp only [length_append, length_cons, length_nil] at hlen
  omega

lemma full_apply (hi : Inv fs) (hfull : (treeOf fs).Full 2) (op : Op) (hop : op.Nice fs)
    (hleaf : op.Leaf fs) : (treeOf (op.apply fs)).Full 2 := by
  cases op with
  | create path mode =>
    rcases create_spec hi path mode with ⟨fs', h, hstill⟩ |
      ⟨n, p, name, fs1, hn, hname, hp, hadd, h, hi1, hgrow, hw, hsim⟩
    · rw [Op.apply, h]
      exact hfull.of_sim (hstill.agree.sim hi.owned)
    · rw [Op.apply, h]
      exact ((hfull.alloc_link hp hn.2.2).of_sim hsim).of_sim (hw.agree.sim hi1.owned)
  | mkdir path mode =>
    rcases mkdir_spec hi path.bytes mode with ⟨fs', h, hstill⟩ |
      ⟨n, b, p, name, fs1, hn, hb, hname, hp, hadd, h, hi1, hgrow, hinc, hw, hsim⟩
    · rw [Op.apply, h]
      exact hfull.of_sim (hstill.agree.sim hi.owned)
    · rw [Op.apply, h]
      exact ((hfull.alloc_link hp hn.2.2).of_sim hsim).of_sim ((hinc.trans hw.agree).sim hi1.owned)
  | write n offset data =>
    rcases write_spec hi n offset data hop with ⟨-, h⟩ | ⟨done, fs1, hn, -, hdir, -, h, hgrow, hi1, hsize, hw⟩
    · rw [Op.apply, h]
      exact hfull
    · rw [Op.apply, h]
      have h1 := hfull.of_sim (hgrow.sim hi blocksOf_inode hdir)
      exact (h1.of_sim (hsize.sim hi1.owned)).of_sim (hw.agree.sim (hsize.owned hi1.owned))
  | truncate path => exact hfull.of_sim ((truncate_spec hi path.bytes).sim hi.owned)
  | unlink path =>
    rcases unlink_spec hi path.bytes hop with h |
      ⟨p, name, t, fs1, hold, hp, hperm, hi1, hgrow, hsim, ⟨hfail, h⟩ | ⟨-, h, hi2, hrel, hsim2⟩⟩
    · rw [Op.apply, h]
      exact hfull
    · -- the target holds no entries, so the check cannot have stopped the removal
      exfalso
      have hmem : (name, t) ∈ dirLinks fs p := hperm.mem_iff.mpr mem_cons_self
      have htu := hi.tree.link_used p (name, t) hp hmem
      obtain ⟨hdir, hne⟩ := links_of_dirNotEmpty hi1 ((hgrow.inodeUsed t).trans htu.1) hfail
      rw [hold.inode] at hdir
      have hnil := hleaf t hold.finds hdir
      have htp : t ≠ p := by
        rintro rfl
        rw [hnil] at hmem
        cases hmem
      exact hne (((hgrow.sim_of_ne hi blocksOf_inode ⟨htu.1, hdir⟩ htp).2).trans hnil)
    · rw [Op.apply, h]
      have hmem : (name, t) ∈ dirLinks fs p := hperm.mem_iff.mpr mem_cons_self
      have htu := hi.tree.link_used p (name, t) hp hmem
      exact (hfull.cut_drop htu.2 (hleaf t hold.finds)).of_sim hsim2

end apply

/-! ### A formatted filesystem -/

section

variable (heap : Heap) {device : Ramdisk} (hroom : HasRoom device)

include hroom

lemma tight_formatEmpty : Tight (formatEmpty heap device) where
  noLeak b hb _ hu := by
    rw [blockUsed_formatEmpty, decide_eq_true_eq] at hu
    omega
  tables n hn hn' _ := by
    rw [inode_formatEmpty heap hn hn']
    exact ⟨ptr_zero 12, ptr_zero 13⟩
  blocks := by
    have hlt := (geometry_formatEmpty heap hroom).first_lt
    have hbits : ∀ i, (formatEmpty heap device).blockUsed i = _ := blockUsed_formatEmpty heap
    have hcount := Bitmap.clearCount_of_lt (n := (formatEmpty heap device).blocksCount) fun i _ => hbits i
    rw [FreeBlocksOk, Bitmap.Counts, hcount]
    exact UInt32.toNat_sub_of_le _ _ (by rw [UInt32.le_iff_toNat_le]; exact hlt.le)
  inodes := by
    have hcount := Bitmap.clearCount_of_lt (n := (formatEmpty heap device).inodesCount) (k := 0)
      fun i _ => Bitmap.bit_zero i
    exact hcount.symm

lemma tight_formatRoot : Tight (formatRoot heap device) := by
  obtain ⟨hg, hn, ho, b, hb, hw⟩ := writeBack_formatRoot heap hroom
  exact hw.agree.tight (owned_dirNode hg ho hn hb) ((tight_formatEmpty heap hroom).dirNode hg ho hn hb 2 0o755)

lemma tidy_format : Inv (ext2Format heap device) ∧ Tight (ext2Format heap device) ∧
    (treeOf (ext2Format heap device)).Full 2 := by
  have hstep : ∀ fs (op : Op), Inv fs ∧ Tight fs ∧ (treeOf fs).Full 2 → op.Nice fs → op.Flat fs →
      op.Leaf fs → Inv (op.apply fs) ∧ Tight (op.apply fs) ∧ (treeOf (op.apply fs)).Full 2 :=
    fun fs op ⟨hi, ht, hf⟩ hnice hflat hleaf =>
      ⟨inv_apply hi op hnice, tight_apply hi ht op hnice hflat, full_apply hi hf op hnice hleaf⟩
  refine format_induction (I := fun fs => Inv fs ∧ Tight fs ∧ (treeOf fs).Full 2) (fun _ h => h.1) (fun fs path mode h
    => hstep fs (.mkdir path mode) h trivial trivial trivial) (fun fs path mode h => hstep fs (.create path mode) h
    trivial trivial trivial) (fun fs n data h hn => hstep fs (.write n 0 data) h (.inl hn) trivial trivial) ?_
  have hroot := inv_formatRoot heap hroom
  exact ⟨hroot.1, tight_formatRoot heap hroom, hroot.2⟩

end

end VibeOS
