import VibeOS.Ext2.Format

/-!
# A directory is a finite map

`DirMap fs d` says that the entries of directory `d` have distinct names that a C string comparison
can tell apart, and that its size counts its blocks. Then `find_entry_in_dir` is lookup in the list of
entries (`findEntryInDir_eq`) and `ext2_readdir` lists it (`readdir_eq`).

`Maps fs` is `DirMap` for every directory in use. The steps keep it as long as nobody truncates a
directory (`maps_apply`): `ext2_truncate` sets the size of a directory to zero like that of a file, and
both loops then stop before the first entry.
-/

namespace VibeOS

open List
open Buf Ext2Filesystem Ownership

/-! ### Lookup in a list of pairs -/

section

variable {name : List UInt8} {l l' : List (List UInt8 × Nat)}

lemma findPair_append (h : ∀ e ∈ l, e.2 ≠ 0) : findPair name (l ++ l') =
    if findPair name l ≠ 0 then findPair name l else findPair name l' := by
  induction l with
  | nil => simp [findPair]
  | cons e l ih =>
    have he := h e mem_cons_self
    have ih := ih fun x hx => h x (mem_cons_of_mem _ hx)
    rw [cons_append, findPair, findPair, ih]
    by_cases hname : e.1 = name
    · simp [hname, he]
    · simp [hname]

lemma findPair_eq_iff (h : (l.map Prod.fst).Nodup) (h0 : ∀ e ∈ l, e.2 ≠ 0) {n : Nat} (hn : n ≠ 0) :
    findPair name l = n ↔ (name, n) ∈ l := by
  induction l with
  | nil => simp [findPair, hn.symm]
  | cons e l ih =>
    rw [map_cons, nodup_cons] at h
    have ih := ih h.2 fun x hx => h0 x (mem_cons_of_mem _ hx)
    rw [findPair, mem_cons]
    split_ifs with hname
    · constructor
      · rintro rfl
        exact .inl (by rw [← hname])
      · rintro (heq | hmem)
        · rw [← heq]
        · exact absurd (mem_map.mpr ⟨_, hmem, hname.symm⟩) h.1
    · rw [ih, or_iff_right]
      rintro rfl
      exact hname rfl

lemma findPair_eq_zero_iff (h0 : ∀ e ∈ l, e.2 ≠ 0) : findPair name l = 0 ↔ name ∉ l.map Prod.fst := by
  induction l with
  | nil => simp [findPair]
  | cons e l ih =>
    have he := h0 e mem_cons_self
    have ih := ih fun x hx => h0 x (mem_cons_of_mem _ hx)
    rw [findPair, map_cons, mem_cons, not_or]
    split_ifs with hname
    · simp [he, hname]
    · rw [ih]
      exact ⟨fun h => ⟨fun heq => hname heq.symm, h⟩, fun h => h.2⟩

lemma findPair_congr (h : (l.map Prod.fst).Nodup) (h' : (l'.map Prod.fst).Nodup)
    (h0 : ∀ e ∈ l, e.2 ≠ 0) (h0' : ∀ e ∈ l', e.2 ≠ 0)
    (hmem : ∀ n, (name, n) ∈ l' ↔ (name, n) ∈ l) : findPair name l' = findPair name l := by
  by_cases hz : findPair name l = 0
  · rw [hz]
    by_contra hne
    have hin := (hmem _).mp ((findPair_eq_iff h' h0' hne).mp rfl)
    exact (findPair_eq_zero_iff h0).mp hz (mem_map.mpr ⟨_, hin, rfl⟩)
  · exact (findPair_eq_iff h' h0' hz).mpr ((hmem _).mpr ((findPair_eq_iff h h0 hz).mp rfl))

end

/-! ### Lookup and listing -/

/-- The size of a directory counts its blocks, which come first among its pointers. -/
def Sized (ino : Inode) : Prop :=
  ∃ k, 1 ≤ k ∧ k ≤ 12 ∧ ino.size.toNat = 1024 * k ∧ ∀ i < 12, ino.ptr i ≠ 0 ↔ i < k

/-- A directory is a map: no name stands in it twice. -/
structure DirMap (fs : Ext2Filesystem) (d : Nat) : Prop where
  sized : Sized (fs.inode d)
  names : ((dirPairs fs d).map Prod.fst).Nodup
  good : ∀ e ∈ dirPairs fs d, GoodName e.1

section lookup

variable {fs : Ext2Filesystem} {d : Nat}

lemma pairs_ne_zero {es : List DirEntry} : ∀ e ∈ pairs es, e.2 ≠ 0 := by
  intro e he
  obtain ⟨x, hx, rfl⟩ := mem_map.mp he
  have hlive : x.inode ≠ 0 := by simpa using (mem_filter.mp hx).2
  exact fun h0 => hlive (UInt32.toNat_inj.mp h0)

lemma blockPairs_ne_zero {i : Nat} : ∀ e ∈ blockPairs fs d i, e.2 ≠ 0 := by
  intro e he
  rw [blockPairs] at he
  split_ifs at he with hz
  · cases he
  · exact pairs_ne_zero e he

lemma dirPairs_ne_zero : ∀ e ∈ dirPairs fs d, e.2 ≠ 0 := by
  intro e he
  obtain ⟨i, -, hi⟩ := mem_flatMap.mp he
  exact blockPairs_ne_zero e hi

/-- A list of block indices that goes through the directory in order: after a missing block there is
none. -/
def Runs (ino : Inode) : List Nat → Prop
  | [] => True
  | i :: is => (ino.ptr i = 0 → ∀ j ∈ is, ino.ptr j = 0) ∧ Runs ino is

lemma runs_range' {ino : Inode} (h : Sized ino) (i m : Nat) (him : i + m ≤ 12) : Runs ino (List.range' i m) := by
  obtain ⟨k, -, -, -, hk⟩ := h
  induction m generalizing i with
  | zero => exact trivial
  | succ m ih =>
    refine ⟨fun hz j hj => ?_, ih (i + 1) (by omega)⟩
    have hj := mem_range'_1.mp hj
    by_contra hne
    have h1 := (hk j (by omega)).mp hne
    exact ((hk i (by omega)).mpr (by omega)) hz

lemma flatMap_blockPairs_nil {is : List Nat} (h : ∀ j ∈ is, (fs.inode d).ptr j = 0) :
    is.flatMap (blockPairs fs d) = [] :=
  flatMap_eq_nil_iff.mpr fun j hj => by rw [blockPairs, if_pos (h j hj)]

section ordered

variable (hg : Geometry fs) (hok : DirOk fs d) (hsize : 1024 ≤ (fs.inode d).size.toNat)
  (hgood : ∀ e ∈ dirPairs fs d, GoodName e.1)

include hok in
lemma blockChain {i : Nat} (hi : i < 12) (hz : (fs.inode d).ptr i ≠ 0) :
    Chain (ext2ReadBlock fs ((fs.inode d).ptr i)) 0 (blockEntries (ext2ReadBlock fs ((fs.inode d).ptr i))) ∧
    (blockEntries (ext2ReadBlock fs ((fs.inode d).ptr i))).length ≤ 1024 := by
  have hchain := (hok.tiled i hi hz).chain
  have := hchain.length_le
  exact ⟨hchain, by omega⟩

include hgood in
lemma good_of_live {i : Nat} (hi : i < 12) (hz : (fs.inode d).ptr i ≠ 0) {e : DirEntry}
    (he : e ∈ blockEntries (ext2ReadBlock fs ((fs.inode d).ptr i))) (hlive : e.inode ≠ 0) : GoodName e.name := by
  refine hgood (e.name, e.inode.toNat) (mem_flatMap.mpr ⟨i, mem_range.mpr hi, ?_⟩)
  rw [blockPairs, if_neg hz]
  exact mem_pairs he hlive

include hg hok hsize hgood

lemma findInBlocks_eq (name : List UInt8) {is : List Nat} (his : ∀ i ∈ is, i < 12) (hrun : Runs (fs.inode d) is) :
    findInBlocks fs (fs.inode d) name is = findPair name (is.flatMap (blockPairs fs d)) := by
  induction is with
  | nil => rfl
  | cons i is ih =>
    have hi := his i mem_cons_self
    have ih := ih (fun j hj => his j (mem_cons_of_mem _ hj)) hrun.2
    rw [findInBlocks, flatMap_cons, findPair_append blockPairs_ne_zero]
    by_cases hz : (fs.inode d).ptr i = 0
    · rw [if_pos hz, flatMap_blockPairs_nil (hrun.1 hz), blockPairs, if_pos hz]
      rfl
    · obtain ⟨hchain, hlen⟩ := blockChain hok hi hz
      have hfind : findInBlock _ _ 1024 name 1024 0 = findPair name _ :=
        findInBlock_eq hchain hsize hlen fun e he hlive => good_of_live hgood hi hz he hlive
      simp only [if_neg hz, hg.bs_eq, hfind, ih, blockPairs]

/-- The live entries of block `i`, as entries. -/
def blockLive (fs : Ext2Filesystem) (d i : Nat) : List DirEntry :=
  if (fs.inode d).ptr i = 0 then []
  else (blockEntries (ext2ReadBlock fs ((fs.inode d).ptr i))).filter fun e =>
    decide (e.inode ≠ 0 ∧ e.nameLen > 0)

omit hg hsize in
lemma map_blockLive {i : Nat} (hi : i < 12) :
    (blockLive fs d i).map (fun e => (e.name, e.inode.toNat)) = blockPairs fs d i := by
  rw [blockLive, blockPairs]
  split_ifs with hz
  · rfl
  · have hchain := (blockChain hok hi hz).1
    rw [pairs]
    congr 1
    refine filter_congr fun e he => ?_
    by_cases hlive : e.inode = 0
    · simp [hlive]
    · have hname := good_of_live hgood hi hz he hlive
      have hpos : e.nameLen > 0 := by
        rw [gt_iff_lt, UInt8.lt_iff_toNat_lt, ← hchain.length_name e he]
        exact length_pos_iff.mpr hname.1
      simp [hlive, hpos]

lemma readdirBlocks_eq {is : List Nat} (his : ∀ i ∈ is, i < 12) (hrun : Runs (fs.inode d) is)
    (room : Nat) (hroom : (is.flatMap (blockPairs fs d)).length ≤ room) :
    (readdirBlocks fs (fs.inode d) is room).map (fun e => (e.name, e.inode.toNat)) = is.flatMap (blockPairs fs d) := by
  induction is generalizing room with
  | nil => rfl
  | cons i is ih =>
    have hi := his i mem_cons_self
    have ih := ih (fun j hj => his j (mem_cons_of_mem _ hj)) hrun.2
    rw [readdirBlocks]
    by_cases hz : (fs.inode d).ptr i = 0
    · rw [if_pos (Or.inl hz), flatMap_cons, flatMap_blockPairs_nil (hrun.1 hz), blockPairs, if_pos hz]
      rfl
    · obtain ⟨hchain, hlen⟩ := blockChain hok hi hz
      have hlive := map_blockLive hok hgood hi
      have hcount := congrArg List.length hlive
      rw [length_map] at hcount
      rw [flatMap_cons, length_append] at hroom
      have hfound : readdirBlock (ext2ReadBlock fs ((fs.inode d).ptr i)) (fs.inode d).size.toNat
          1024 1024 0 room = blockLive fs d i := by
        rw [readdirBlock_eq hchain hsize hlen, blockLive, if_neg hz]
        refine take_of_length_le ?_
        rw [blockLive, if_neg hz] at hcount
        omega
      by_cases hr : room = 0
      · rw [if_pos (Or.inr hr), flatMap_cons, length_eq_zero_iff.mp
          (show (blockPairs fs d i).length = 0 by omega), length_eq_zero_iff.mp
          (show (is.flatMap (blockPairs fs d)).length = 0 by omega)]
        rfl
      · rw [if_neg (by omega)]
        simp only [hg.bs_eq, hfound, map_append, flatMap_cons, hlive]
        rw [ih _ (by omega)]

end ordered

section dirMap

variable (hg : Geometry fs) (hok : DirOk fs d) (hmap : DirMap fs d) (hd : d < fs.inodesCount)
  (hdir : (fs.inode d).isDir = true)

include hg hok hmap hd hdir

lemma findEntryInDir_eq (name : List UInt8) : findEntryInDir fs d name = findPair name (dirPairs fs d) := by
  obtain ⟨k, hk, -, hsize, -⟩ := hmap.sized
  rw [findEntryInDir, if_neg (by omega), if_neg (by simp [hdir]), dirPairs]
  exact findInBlocks_eq hg hok (by omega) hmap.good name (fun i hi => mem_range.mp hi)
    (range_eq_range' ▸ runs_range' hmap.sized 0 12 (by omega))

lemma readdir_eq {maxEntries : Nat} (hmax : (dirPairs fs d).length ≤ maxEntries) :
    (ext2Readdir fs d maxEntries).map (fun e => (e.name, e.inode.toNat)) = dirPairs fs d := by
  obtain ⟨k, hk, -, hsize, -⟩ := hmap.sized
  by_cases h0 : maxEntries = 0
  · rw [ext2Readdir, if_pos (Or.inr h0),
      length_eq_zero_iff.mp (Nat.le_zero.mp (h0 ▸ hmax) : (dirPairs fs d).length = 0)]
    rfl
  · rw [ext2Readdir, if_neg (by omega), if_neg (by simp [hdir])]
    exact readdirBlocks_eq hg hok (by omega) hmap.good (fun i hi => mem_range.mp hi)
      (range_eq_range' ▸ runs_range' hmap.sized 0 12 (by omega)) maxEntries hmax

end dirMap

end lookup

/-! ### The steps keep the maps -/

def Maps (fs : Ext2Filesystem) : Prop :=
  ∀ d, fs.inodeUsed d = true → (fs.inode d).isDir = true → DirMap fs d

section steps

variable {fs fs' : Ext2Filesystem} {d n : Nat} {name : List UInt8}

lemma DirMap.congr (h : DirMap fs d) (hsize : (fs'.inode d).size = (fs.inode d).size) (hs : SameDir fs fs' d) :
    DirMap fs' d := by
  obtain ⟨⟨k, h1, h2, h3, hk⟩, hnames, hgood⟩ := h
  refine ⟨⟨k, h1, h2, by rw [hsize, h3], fun i hi => by rw [hs.ptr i hi, hk i hi]⟩, ?_, ?_⟩
  · rw [hs.pairs]
    exact hnames
  · rw [hs.pairs]
    exact hgood

lemma Agree.maps (h : Agree fs fs') (ho : Owned fs) (hm : Maps fs)
    (hsize : ∀ d, fs.inodeUsed d → (fs.inode d).isDir = true → (fs'.inode d).size = (fs.inode d).size) : Maps fs' := by
  intro d hd hdir
  rw [h.inodeUsed] at hd
  rw [h.isDir d hd] at hdir
  exact (hm d hd hdir).congr (hsize d hd hdir) (h.frame ho hd)

lemma Still.maps (h : Still fs fs') (ho : Owned fs) (hm : Maps fs) : Maps fs' :=
  h.agree.maps ho hm fun d hd _ => by rw [h.inode d hd]

lemma WriteBack.maps (h : WriteBack fs fs') (ho : Owned fs) (hm : Maps fs) : Maps fs' :=
  h.agree.maps ho hm fun d _ _ => by rw [h.inode]

lemma Grows.maps {T : Slot → Prop} (h : Grows n T fs fs') (ho : Owned fs) (hT : ∀ τ, T τ → τ.inode = n) (hm : Maps fs)
    (hn : (fs.inode n).isDir = true → DirMap fs' n) : Maps fs' := by
  intro d hd hdir
  rw [h.inodeUsed] at hd
  have hr := inodeUsed_range hd
  rw [h.isDir_eq hr.1] at hdir
  by_cases hdn : d = n
  · rw [hdn] at hdir ⊢
    exact hn hdir
  · exact (hm d hd hdir).congr (by rw [h.inode_ne d hr.1 hdn]) (h.frame ho hT hd hdn)

lemma Releases.maps {t : Nat} (h : Releases t fs fs') (ho : Owned fs) (hm : Maps fs) : Maps fs' := by
  intro d hd hdir
  obtain ⟨hdt, hd⟩ : d ≠ t ∧ fs.inodeUsed d = true := by simpa [h.inodeUsed] using hd
  have hino := h.inode_ne d (inodeUsed_range hd).1 hdt
  rw [hino] at hdir
  exact (hm d hd hdir).congr (by rw [hino]) (h.frame ho hd hdt)

lemma Maps.fileNode (hm : Maps fs) (hn : FreeInode fs n) (mode : UInt16) : Maps (fileNode fs n mode) := by
  intro d hd hdir
  have hdn : d ≠ n := by
    rintro rfl
    rw [inode_fileNode, isDir_fileInode] at hdir
    cases hdir
  rw [inodeUsed_fileNode hn] at hd
  have hd : fs.inodeUsed d = true := by simpa [hdn] using hd
  have hino := inode_fileNode_of_ne hn mode (inodeUsed_range hd).1 hdn
  rw [hino] at hdir
  exact (hm d hd hdir).congr (by rw [hino]) ⟨fun i _ => by rw [hino], fun _ _ _ => rfl⟩

lemma dirMap_dirNode {b p : Nat} {mode : UInt16} (hg : Geometry fs) (hn : FreeInode fs n)
    (hb : FreeBlock fs b) (hfresh : ∀ k, 1 ≤ k → k < 12 → (fs.inode n).ptr k = 0) (hp : p ≠ 0)
    (hp' : p < 2 ^ 32) : DirMap (dirNode fs n b p mode) n := by
  obtain ⟨hok, hup, hlinks⟩ : DirOk (dirNode fs n b p mode) n ∧ _ :=
    dirOk_dirNode hg hn hb hfresh hp hp'
  have hle := hg.inodes_le
  have hle' := hn.2.1
  have hpairs := hok.dirPairs_eq ⟨hn.1, by omega⟩
  rw [hup, hlinks] at hpairs
  have hb32 := fresh_ne_zero hg hb.1
  refine ⟨⟨1, le_rfl, by omega, ?_, fun i hi => ?_⟩, ?_, ?_⟩
  · rw [inode_dirNode]
    exact hg.bs_eq
  · rw [inode_dirNode, ptr_dirInode hb32.2]
    split_ifs with h0
    · simp [h0, hb32.1]
    · rw [hfresh i (by omega) hi]
      omega
  · rw [hpairs]
    change [([46] : List UInt8), [46, 46]].Nodup
    decide
  · rw [hpairs]
    intro e he
    simp only [mem_cons, not_mem_nil, or_false] at he
    rcases he with rfl | rfl
    · exact (by decide : GoodName [46])
    · exact (by decide : GoodName [46, 46])

lemma Maps.dirNode {b p : Nat} {mode : UInt16} (hm : Maps fs) (hi : Inv fs) (hn : FreeInode fs n)
    (hb : FreeBlock fs b) (hp : p ≠ 0) (hp' : p < 2 ^ 32) : Maps (dirNode fs n b p mode) := by
  intro d hd hdir
  by_cases hdn : d = n
  · rw [hdn]
    exact dirMap_dirNode hi.geometry hn hb (hi.fresh n hn.1 hn.2.1 hn.2.2) hp hp'
  · rw [inodeUsed_dirNode hn] at hd
    have hd : fs.inodeUsed d = true := by simpa [hdn] using hd
    have hino : (VibeOS.dirNode fs n b p mode).inode d = fs.inode d :=
      inode_dirNode_of_ne hn (inodeUsed_range hd).1 hdn
    rw [hino] at hdir
    refine (hm d hd hdir).congr (by rw [hino]) ⟨fun i _ => by rw [hino], fun i hi' hz => ?_⟩
    exact readBlock_dirNode hi.geometry (ne_fresh_of_used hb.2 (ptr_range hi.owned hd hi' hz).2)

lemma Sized.addEntryToDir {fileType : UInt8} (h : Sized (fs.inode d)) (hg : Geometry fs)
    (hadd : addEntryToDir fs d n name fileType = some fs') : Sized (fs'.inode d) := by
  rw [VibeOS.addEntryToDir] at hadd
  split_ifs at hadd
  obtain ⟨l1, i, l2, hl, hl1, hcase⟩ := addInBlocks_cases hg hadd
  obtain ⟨hi, hmem⟩ := mem_of_range_eq hl
  rcases hcase with ⟨b', hz, -, rfl⟩ | ⟨hz, b, hb, -, rfl⟩
  · exact h
  · obtain ⟨k, hk1, hk12, hsize, hk⟩ := h
    have hik : i = k := by
      have h1 : ¬ i < k := fun hlt => (hk i hi).mpr hlt hz
      have h2 : ¬ k < i := fun hlt =>
        absurd ((hk k (by omega)).mp (hl1 k (hmem k hlt))) (by omega)
      omega
    have hb32 := fresh_ne_zero hg hb
    rw [inode_writeInode]
    refine ⟨k + 1, by omega, by omega, ?_, fun j hj => ?_⟩
    · rw [growDir, inode_writeBlock, inode_setInode_self]
      have hbs : fs.superblock.blockSize.toNat = 1024 := hg.bs_eq
      rw [UInt32.toNat_add, hsize, hbs]
      omega
    · rw [ptr_growDir hi hb32.2]
      split_ifs with hji
      · omega
      · rw [hk j hj]
        omega

/-- The entries of a directory, up to order, when its links are known up to order. -/
lemma Inv.dirPairs_perm (hi : Inv fs) (hi' : Inv fs') (hd : (treeOf fs).Dir d)
    (hd' : (treeOf fs').Dir d) (hup : dirUp fs' d = dirUp fs d) {l : List (List UInt8 × Nat)}
    (hl : (dirLinks fs' d).Perm (l ++ dirLinks fs d)) : (dirPairs fs' d).Perm (l ++ dirPairs fs d) := by
  rw [(hi.dirs d hd.1 hd.2).dirPairs_eq (hi.lt_pow hd.1), (hi'.dirs d hd'.1 hd'.2).dirPairs_eq (hi'.lt_pow hd'.1), hup]
  refine ((hl.cons _).cons _).trans ?_
  refine List.Perm.trans ?_ perm_middle.symm
  exact (perm_middle.symm).cons _

lemma DirMap.of_link (h : DirMap fs d) (hsized : Sized (fs'.inode d)) (hname : GoodName name)
    (hnew : name ∉ (dirPairs fs d).map Prod.fst)
    (hperm : (dirPairs fs' d).Perm ((name, n) :: dirPairs fs d)) : DirMap fs' d where
  sized := hsized
  names := by
    rw [(hperm.map Prod.fst).nodup_iff, map_cons, nodup_cons]
    exact ⟨hnew, h.names⟩
  good e he := by
    rcases mem_cons.mp (hperm.mem_iff.mp he) with rfl | he
    · exact hname
    · exact h.good e he

lemma DirMap.of_cut (h : DirMap fs d) (hsized : Sized (fs'.inode d))
    (hperm : (dirPairs fs d).Perm ((name, n) :: dirPairs fs' d)) : DirMap fs' d where
  sized := hsized
  names := by
    have hnames := h.names
    rw [(hperm.map Prod.fst).nodup_iff, map_cons, nodup_cons] at hnames
    exact hnames.2
  good e he := h.good e (hperm.mem_iff.mpr (mem_cons_of_mem _ he))

end steps

/-! ### The operations -/

lemma mem_splitParent {path : List UInt8} {x : UInt8} (h : x ∈ (splitParent path).2) : x ∈ path := by
  rw [splitParent] at h
  split_ifs at h <;> exact mem_of_mem_drop h

lemma stripGo_suffix (l : List UInt8) : stripGo l <:+ l := by
  fun_induction stripGo l with
  | case1 d l ih => exact ih.trans (suffix_cons _ _)
  | case2 c d l hc => exact suffix_refl _
  | case3 l _ => exact suffix_refl _

lemma mem_stripTrailing {path : List UInt8} {x : UInt8} (h : x ∈ stripTrailing path) : x ∈ path :=
  mem_reverse.mp ((stripGo_suffix _).subset (mem_reverse.mp h))

section operations

variable {fs fs' : Ext2Filesystem} {n p : Nat} {name : List UInt8}

lemma Maps.absent (hm : Maps fs) (hi : Inv fs) (hp : (treeOf fs).Dir p) (hlt : p < fs.inodesCount)
    (h : findEntryInDir fs p name = 0) : name ∉ (dirPairs fs p).map Prod.fst := by
  rw [findEntryInDir_eq hi.geometry (hi.dirs p hp.1 hp.2) (hm p hp.1 hp.2) hlt hp.2] at h
  exact (findPair_eq_zero_iff dirPairs_ne_zero).mp h

lemma dir_of_link {dir : Bool} (hn : FreeInode fs n) (hp : (treeOf fs).Dir p)
    (hsim : Forest.Sim (((treeOf fs).alloc n dir p).link p name n) (treeOf fs')) : (treeOf fs').Dir p := by
  have hp0 : ((treeOf fs).alloc n dir p).Dir p :=
    (Forest.dir_alloc_of_ne (ne_of_freeInode hn hp.1)).mpr hp
  exact hsim.dir.mpr hp0

lemma dirPairs_link {dir : Bool} (hi : Inv fs) (hi' : Inv fs') (hn : FreeInode fs n) (hp : (treeOf fs).Dir p)
    (hsim : Forest.Sim (((treeOf fs).alloc n dir p).link p name n) (treeOf fs')) :
    (dirPairs fs' p).Perm ((name, n) :: dirPairs fs p) := by
  have hpn : p ≠ n := ne_of_freeInode hn hp.1
  have hp' := dir_of_link hn hp hsim
  have hp1 := hsim.dir.mp hp'
  have hlinks := hsim.links p hp1
  have hup := hsim.up p hp1
  simp only [Forest.link, Forest.alloc, if_true, if_neg hpn] at hlinks hup
  exact hi.dirPairs_perm (l := [(name, n)]) hi' hp hp' hup hlinks

/-- Linking a new inode into a directory that does not have its name keeps the maps. The state `node`
is the one in which the inode exists but has no name. -/
lemma Maps.link {node : Ext2Filesystem} {fileType : UInt8} (hm : Maps fs) (hp : (treeOf fs).Dir p)
    (hnode : node.inode p = fs.inode p) (hg : Geometry node) (ho : Owned node) (hmn : Maps node)
    (hadd : addEntryToDir node p n name fileType = some fs') (hgrow : Grows p (blocksOf p) node fs')
    (hname : GoodName name) (hnew : name ∉ (dirPairs fs p).map Prod.fst)
    (hperm : (dirPairs fs' p).Perm ((name, n) :: dirPairs fs p)) : Maps fs' := by
  refine hgrow.maps ho blocksOf_inode hmn fun _ => ?_
  have hmap := hm p hp.1 hp.2
  exact hmap.of_link (Sized.addEntryToDir (hnode ▸ hmap.sized) hg hadd) hname hnew hperm

/-- The call fails without a trace, or adds one entry to one directory. -/
def Adds (fs : Ext2Filesystem) (path : List UInt8) (r : Nat × Ext2Filesystem) : Prop :=
  (∃ fs', r = (0, fs') ∧ Still fs fs') ∨ ∃ n p name fs', r = (n, fs') ∧ n ≠ 0 ∧ NewName fs path p name ∧
    (treeOf fs).Dir p ∧ p < fs.inodesCount ∧ Inv fs' ∧ Maps fs' ∧ (treeOf fs').Dir p ∧
    fs'.inodesCount = fs.inodesCount ∧ (dirPairs fs' p).Perm ((name, n) :: dirPairs fs p)

lemma create_maps (hi : Inv fs) (hm : Maps fs) (path : Path) (mode : UInt16) :
    Adds fs path.bytes (ext2Create fs path.bytes mode) := by
  rcases create_spec hi path mode with h | ⟨n, p, name, fs1, hn, hname, hp, hadd, h, hi1, hgrow, hw, hsim⟩
  · exact .inl h
  · right
    have hn0 : n ≠ 0 := by have := hn.1; omega
    have hperm := dirPairs_link hi hi1 hn hp hsim
    have hlt : p < fs.inodesCount := (addEntryToDir_isDir hadd).1
    have hgood : GoodName name := ⟨hname.name_ne, fun h0 =>
      path.noNul (mem_splitParent (hname.name_eq ▸ h0))⟩
    have hm1 := hm.link hp (inode_fileNode_of_ne hn mode (inodeUsed_range hp.1).1
      (ne_of_freeInode hn hp.1)) (hi.geometry.of_shape rfl) (hi.fileNode hn mode p).1.owned
      (hm.fileNode hn mode) hadd hgrow hgood (hm.absent hi hp hlt hname.absent) hperm
    have hp1 : (treeOf fs1).Dir p := dir_of_link hn hp hsim
    refine ⟨n, p, name, _, h, hn0, hname, hp, hlt, hw.agree.inv hi1, hw.maps hi1.owned hm1,
      (hw.agree.sim hi1.owned).dir.mpr hp1, inodesCount_of_shape (hw.shape.trans hgrow.shape), ?_⟩
    rw [(hw.frame hi1.owned hp1.1).pairs]
    exact hperm

lemma mkdir_maps (hi : Inv fs) (hm : Maps fs) (path : Path) (mode : UInt16) :
    Adds fs (stripTrailing path.bytes) (ext2Mkdir fs path.bytes mode) := by
  rcases mkdir_spec hi path.bytes mode with h |
    ⟨n, b, p, name, fs1, hn, hb, hname, hp, hadd, h, hi1, hgrow, hinc, hw, hsim⟩
  · exact .inl h
  · right
    have hn0 : n ≠ 0 := by have := hn.1; omega
    have hperm := dirPairs_link hi hi1 hn hp hsim
    have hp32 := hi.lt_pow hp.1
    have hlt : p < fs.inodesCount := (addEntryToDir_isDir hadd).1
    have hgood : GoodName name := ⟨hname.name_ne, fun h0 =>
      path.noNul (mem_stripTrailing (mem_splitParent (hname.name_eq ▸ h0)))⟩
    have hm1 := hm.link hp (inode_dirNode_of_ne hn (inodeUsed_range hp.1).1 (ne_of_freeInode hn hp.1))
      (hi.geometry.of_shape rfl) (owned_dirNode hi.geometry hi.owned hn hb) (hm.dirNode hi hn hb hname.parent_ne hp32.2)
      hadd hgrow hgood (hm.absent hi hp hlt hname.absent) hperm
    have hp1 : (treeOf fs1).Dir p := dir_of_link hn hp hsim
    have hm2 : Maps (incLinks fs1 p) := hinc.maps hi1.owned hm1 fun d hd _ => by
      by_cases hdp : d = p
      · rw [hdp, incLinks, inode_setInode_self]
      · rw [incLinks, inode_setInode_of_ne _ _ hp32.1 (inodeUsed_range hd).1 hdp]
    have hall := hinc.trans hw.agree
    refine ⟨n, p, name, _, h, hn0, hname, hp, hlt, hall.inv hi1, hw.maps (hinc.owned hi1.owned) hm2,
      (hall.sim hi1.owned).dir.mpr hp1, inodesCount_of_shape (hall.shape.trans hgrow.shape), ?_⟩
    rw [(hall.frame hi1.owned hp1.1).pairs]
    exact hperm

lemma unlink_maps (hi : Inv fs) (hm : Maps fs) (path : Path) (hnice : NiceUnlink fs path.bytes) :
    ext2Unlink fs path.bytes = (-1, fs) ∨ ∃ r fs' p name t, ext2Unlink fs path.bytes = (r, fs') ∧
      (splitParent path.bytes).2 = name ∧ ext2LookupInode fs (splitParent path.bytes).1 = p ∧
      p ≠ 0 ∧ (treeOf fs).Dir p ∧ Inv fs' ∧ Maps fs' ∧ (treeOf fs').Dir p ∧
      fs'.inodesCount = fs.inodesCount ∧ (dirPairs fs p).Perm ((name, t) :: dirPairs fs' p) := by
  rcases unlink_spec hi path.bytes hnice with h | ⟨p, name, t, fs1, hold, hp, hperm, hi1, hgrow, hsim, hcase⟩
  · exact .inl h
  · right
    have hp1 : (treeOf fs1).Dir p := ⟨(hgrow.inodeUsed p).trans hp.1, (congrArg Inode.isDir (hold.inode p)).trans hp.2⟩
    have hperm1 : (dirPairs fs p).Perm ((name, t) :: dirPairs fs1 p) :=
      hi1.dirPairs_perm (l := [(name, t)]) hi hp1 hp (hsim.up p hp).symm hperm
    have hm1 : Maps fs1 := hgrow.maps hi.owned blocksOf_inode hm fun _ =>
      (hm p hp.1 hp.2).of_cut (hold.inode p ▸ (hm p hp.1 hp.2).sized) hperm1
    have hatt : (treeOf fs).Attached 2 p := hold.lookup ▸ hi.attached_lookup (hold.lookup.symm ▸ hold.parent_ne)
    have hpt : p ≠ t := (hi.tree.ne_of_attached hatt hp
      (hperm.mem_iff.mpr mem_cons_self : (name, t) ∈ (treeOf fs).links p)).symm
    rcases hcase with ⟨-, h⟩ | ⟨-, h, hi2, hrel, hsim2⟩
    · exact ⟨_, _, p, name, t, h, hold.name_eq, hold.lookup, hold.parent_ne, hp, hi1, hm1, hp1,
        inodesCount_of_shape hgrow.shape, hperm1⟩
    · refine ⟨_, _, p, name, t, h, hold.name_eq, hold.lookup, hold.parent_ne, hp, hi2,
        hrel.maps hi1.owned hm1, ?_, inodesCount_of_shape (hrel.shape.trans hgrow.shape), ?_⟩
      · exact (hsim2.dir.mpr (Forest.dir_drop.mpr ⟨hpt, hp⟩))
      · rw [(hrel.frame hi1.owned hp1.1 hpt).pairs]
        exact hperm1

end operations

/-- A truncation does not hit a directory. -/
def Op.KeepsDirs (fs : Ext2Filesystem) : Op → Prop
  | .truncate path => ext2LookupInode fs path.bytes ≠ 0 → (fs.inode (ext2LookupInode fs path.bytes)).isDir = false
  | _ => True

instance (fs : Ext2Filesystem) : (op : Op) → Decidable (op.KeepsDirs fs)
  | .create _ _ | .mkdir _ _ | .unlink _ | .write _ _ _ => .isTrue trivial
  | .truncate _ => inferInstanceAs (Decidable (_ → _))

lemma Maps.setInode {fs : Ext2Filesystem} {n : Nat} {ino : Inode} (hm : Maps fs) (ho : Owned fs)
    (hn : 1 ≤ n) (hdir : (fs.inode n).isDir = false) (h : Agree fs (fs.setInode n ino)) : Maps (fs.setInode n ino) := by
  refine h.maps ho hm fun d hd hd' => ?_
  have hdn : d ≠ n := by
    rintro rfl
    rw [hdir] at hd'
    cases hd'
  rw [inode_setInode_of_ne _ _ hn (inodeUsed_range hd).1 hdn]

lemma maps_apply {fs : Ext2Filesystem} (hi : Inv fs) (hm : Maps fs) (op : Op) (hop : op.Nice fs)
    (hkeep : op.KeepsDirs fs) : Maps (op.apply fs) := by
  cases op with
  | create path mode =>
    rcases create_maps hi hm path mode with ⟨fs', h, hstill⟩ | ⟨n, p, name, fs', h, -, -, -, -, -, hm', -⟩
    · rw [Op.apply, h]
      exact hstill.maps hi.owned hm
    · rw [Op.apply, h]
      exact hm'
  | mkdir path mode =>
    rcases mkdir_maps hi hm path mode with ⟨fs', h, hstill⟩ | ⟨n, p, name, fs', h, -, -, -, -, -, hm', -⟩
    · rw [Op.apply, h]
      exact hstill.maps hi.owned hm
    · rw [Op.apply, h]
      exact hm'
  | write n offset data =>
    rcases write_spec hi n offset data hop with ⟨-, h⟩ | ⟨done, fs1, hn, -, hdir, -, h, hgrow, hi1, hsize, hw⟩
    · rw [Op.apply, h]
      exact hm
    · rw [Op.apply, h]
      have hm1 : Maps fs1 := hgrow.maps hi.owned blocksOf_inode hm fun hd => by
        rw [hdir] at hd
        cases hd
      refine hw.maps (hsize.owned hi1.owned) ?_
      rw [growSize] at hsize ⊢
      split_ifs at hsize ⊢
      · exact hm1.setInode hi1.owned (inodeUsed_range hn).1 ((hgrow.isDir_eq (inodeUsed_range hn).1).trans hdir) hsize
      · exact hm1
  | truncate path =>
    rcases truncate_cases fs path.bytes with h | ⟨n, hlook, hn0, -, h⟩
    · rw [Op.apply, h]
      exact hm
    · rw [Op.apply, h]
      have hne : ext2LookupInode fs path.bytes ≠ 0 := hlook.symm ▸ hn0
      have hn : 1 ≤ n := by omega
      have hset : Agree fs (fs.setInode n { fs.inode n with size := 0 }) :=
        Agree.setInode hn rfl rfl
      exact (WriteBack.writeInode (hi.geometry.of_shape hset.shape) n).maps (hset.owned hi.owned)
        (hm.setInode hi.owned hn (hlook ▸ hkeep hne) hset)
  | unlink path =>
    rcases unlink_maps hi hm path hop with h | ⟨r, fs', p, name, t, h, -, -, -, -, -, hm', -⟩
    · rw [Op.apply, h]
      exact hm
    · rw [Op.apply, h]
      exact hm'

/-! ### Every run -/

section

variable (heap : Heap) {device : Ramdisk} (hroom : HasRoom device)

include hroom

lemma maps_formatRoot : Maps (formatRoot heap device) := by
  obtain ⟨hg, hn, ho, b, hb, hw⟩ := writeBack_formatRoot heap hroom
  refine hw.maps (owned_dirNode hg ho hn hb) fun d hd _ => ?_
  rw [inodeUsed_dirNode hn, inodeUsed_formatEmpty, Bool.or_false, decide_eq_true_eq] at hd
  rw [hd]
  exact dirMap_dirNode hg hn hb (fun k _ _ => by rw [inode_formatEmpty heap hn.1 hn.2.1, ptr_zero])
    (by decide) (by decide)

lemma maps_run {ops : List Op} (h : Along Op.apply (fun fs op => op.Nice fs ∧ op.KeepsDirs fs)
    (ext2Format heap device) ops) : Inv (run Op.apply (ext2Format heap device) ops) ∧
      Maps (run Op.apply (ext2Format heap device) ops) := by
  have hstep : ∀ fs (op : Op), Inv fs ∧ Maps fs → op.Nice fs ∧ op.KeepsDirs fs →
      Inv (op.apply fs) ∧ Maps (op.apply fs) := fun fs op hi hop =>
    ⟨inv_apply hi.1 op hop.1, maps_apply hi.1 hi.2 op hop.1 hop.2⟩
  refine run_invariant (I := fun fs => Inv fs ∧ Maps fs) hstep ?_ h
  exact format_induction (I := fun fs => Inv fs ∧ Maps fs) (fun _ h => h.1) (fun fs path mode h => hstep fs
    (.mkdir path mode) h ⟨trivial, trivial⟩) (fun fs path mode h => hstep fs (.create path mode) h ⟨trivial, trivial⟩)
    (fun fs n data h hn => hstep fs (.write n 0 data) h ⟨.inl hn, trivial⟩) ⟨(inv_formatRoot heap hroom).1,
    maps_formatRoot heap hroom⟩

end

/-- The path leads to the entry `a` of the inode `d`. -/
def NamesEntry (fs : Ext2Filesystem) (path : List UInt8) (d : Nat) (a : List UInt8) : Prop :=
  ext2LookupInode fs (splitParent path).1 = d ∧ (splitParent path).2 = a

/-- A creation of `a` in `d` is an insertion into a map: it returns what the lookup of `a` then finds
and leaves the other names alone, and it fails and changes nothing when `a` is there. -/
def Inserts (fs : Ext2Filesystem) (d : Nat) (a : List UInt8) (r : Nat × Ext2Filesystem) : Prop :=
  (r.1 ≠ 0 → findEntryInDir r.2 d a = r.1 ∧ ∀ b, b ≠ a → findEntryInDir r.2 d b = findEntryInDir fs d b) ∧
  (findEntryInDir fs d a ≠ 0 → r = (0, fs))

/-- Directory `d` is a finite map from names to inodes. -/
structure IsMap (fs : Ext2Filesystem) (d : Nat) : Prop where
  create : ∀ (path : Path) (mode : UInt16) (a : List UInt8), NamesEntry fs path.bytes d a →
    Inserts fs d a (ext2Create fs path.bytes mode)
  mkdir : ∀ (path : Path) (mode : UInt16) (a : List UInt8),
    NamesEntry fs (stripTrailing path.bytes) d a → Inserts fs d a (ext2Mkdir fs path.bytes mode)
  unlink : ∀ (path : Path) (a : List UInt8), NamesEntry fs path.bytes d a → a ≠ [46] →
    a ≠ [46, 46] → (ext2Unlink fs path.bytes).1 = 0 →
    findEntryInDir (ext2Unlink fs path.bytes).2 d a = 0 ∧
      ∀ b, b ≠ a → findEntryInDir (ext2Unlink fs path.bytes).2 d b = findEntryInDir fs d b
  readdir : ∀ maxEntries, (dirPairs fs d).length ≤ maxEntries →
    ((ext2Readdir fs d maxEntries).map DirEntry.name).Nodup ∧
    ∀ a n, n ≠ 0 → ((∃ e ∈ ext2Readdir fs d maxEntries, e.name = a ∧ e.inode.toNat = n) ↔ findEntryInDir fs d a = n)
  tiled : ∀ i < 12, (fs.inode d).ptr i ≠ 0 → Tiled (ext2ReadBlock fs ((fs.inode d).ptr i))

instance (fs : Ext2Filesystem) (path : List UInt8) (d : Nat) (a : List UInt8) :
    Decidable (NamesEntry fs path d a) := inferInstanceAs (Decidable (_ ∧ _))

section isMap

variable {fs fs' : Ext2Filesystem} {d n : Nat} {a : List UInt8}

section

variable (hi : Inv fs)
  (hm : Maps fs)
  (hi' : Inv fs')
  (hm' : Maps fs')
  (hd : (treeOf fs).Dir d)
  (hd' : (treeOf fs').Dir d)
  (hlt : d < fs.inodesCount)

include hi hm hi' hm' hd hd' hlt

lemma find_of_perm (hlt' : d < fs'.inodesCount) (hperm : (dirPairs fs' d).Perm ((a, n) :: dirPairs fs d)) :
    findEntryInDir fs' d a = n ∧ findEntryInDir fs d a = 0 ∧
      ∀ b, b ≠ a → findEntryInDir fs' d b = findEntryInDir fs d b := by
  have hmap := hm d hd.1 hd.2
  have hmap' := hm' d hd'.1 hd'.2
  have hmem : (a, n) ∈ dirPairs fs' d := hperm.mem_iff.mpr mem_cons_self
  have hn0 : n ≠ 0 := dirPairs_ne_zero _ hmem
  have hnames := hmap'.names
  rw [(hperm.map Prod.fst).nodup_iff, map_cons, nodup_cons] at hnames
  rw [findEntryInDir_eq hi'.geometry (hi'.dirs d hd'.1 hd'.2) hmap' hlt' hd'.2,
    findEntryInDir_eq hi.geometry (hi.dirs d hd.1 hd.2) hmap hlt hd.2]
  refine ⟨(findPair_eq_iff hmap'.names dirPairs_ne_zero hn0).mpr hmem,
    (findPair_eq_zero_iff dirPairs_ne_zero).mpr hnames.1, fun b hb => ?_⟩
  rw [findEntryInDir_eq hi'.geometry (hi'.dirs d hd'.1 hd'.2) hmap' hlt' hd'.2,
    findEntryInDir_eq hi.geometry (hi.dirs d hd.1 hd.2) hmap hlt hd.2]
  refine findPair_congr hmap.names hmap'.names dirPairs_ne_zero dirPairs_ne_zero fun m => ?_
  rw [hperm.mem_iff, mem_cons, Prod.mk.injEq, or_iff_right]
  rintro ⟨h, -⟩
  exact hb h

lemma inserts_of_perm (hcount : fs'.inodesCount = fs.inodesCount)
    (hperm : (dirPairs fs' d).Perm ((a, n) :: dirPairs fs d)) : Inserts fs d a (n, fs') := by
  obtain ⟨hfind, habsent, hother⟩ := find_of_perm hi hm hi' hm' hd hd' hlt (by omega) hperm
  exact ⟨fun _ => ⟨hfind, hother⟩, fun h => absurd habsent h⟩

end

lemma isMap_of_maps (hi : Inv fs) (hm : Maps fs) (hlt : d < fs.inodesCount) (hd : (treeOf fs).Dir d) : IsMap fs d := by
  have hok := hi.dirs d hd.1 hd.2
  have hmap := hm d hd.1 hd.2
  have hfind := findEntryInDir_eq hi.geometry hok hmap hlt hd.2
  constructor
  case create =>
    rintro path mode a ⟨hlook, rfl⟩
    rcases create_maps hi hm path mode with ⟨fs', h, -⟩ |
      ⟨n, p, name, fs', h, -, hname, hp, hplt, hi', hm', hp', hcount, hperm⟩
    · refine ⟨fun h0 => absurd (by rw [h]) h0, fun hne => create_existing mode (hlook.symm ▸ hne)⟩
    · obtain rfl : p = d := hname.lookup.symm.trans hlook
      rw [h, hname.name_eq]
      exact inserts_of_perm hi hm hi' hm' hp hp' hplt hcount hperm
  case mkdir =>
    rintro path mode a ⟨hlook, rfl⟩
    rcases mkdir_maps hi hm path mode with ⟨fs', h, -⟩ |
      ⟨n, p, name, fs', h, -, hname, hp, hplt, hi', hm', hp', hcount, hperm⟩
    · refine ⟨fun h0 => absurd (by rw [h]) h0, fun hne => mkdir_existing mode (hlook.symm ▸ hne)⟩
    · obtain rfl : p = d := hname.lookup.symm.trans hlook
      rw [h, hname.name_eq]
      exact inserts_of_perm hi hm hi' hm' hp hp' hplt hcount hperm
  case unlink =>
    rintro path a ⟨hlook, rfl⟩ hdot hdotdot hres
    have hnice : NiceUnlink fs path.bytes := fun _ => ⟨hlook.symm ▸ hd.2, hdot, hdotdot⟩
    rcases unlink_maps hi hm path hnice with h |
      ⟨r, fs', p, name, t, h, rfl, hplook, -, hp, hi', hm', hp', hcount, hperm⟩
    · rw [h] at hres
      cases hres
    · obtain rfl : p = d := hplook.symm.trans hlook
      obtain ⟨-, habsent, hother⟩ := find_of_perm hi' hm' hi hm hp' hp (by omega) hlt hperm
      rw [h]
      exact ⟨habsent, fun b hb => (hother b hb).symm⟩
  case readdir =>
    intro maxEntries hmax
    have hlist := readdir_eq hi.geometry hok hmap hlt hd.2 hmax
    constructor
    · have hnames := hmap.names
      rw [← hlist, map_map] at hnames
      exact hnames
    · intro a n hn
      rw [hfind, findPair_eq_iff hmap.names dirPairs_ne_zero hn, ← hlist, mem_map]
      simp only [Prod.mk.injEq]
  case tiled => exact hok.tiled

/-- In every run of safe steps that truncate no directory, every directory in use below
`inodes_count` is a finite map from names to inodes. -/
theorem run_directory_map (heap : Heap) {device : Ramdisk} (hroom : HasRoom device) (ops : List Op)
    (h : Along Op.apply (fun fs op => op.Nice fs ∧ op.KeepsDirs fs) (ext2Format heap device) ops)
    (d : Nat) (hlt : d < (run Op.apply (ext2Format heap device) ops).inodesCount)
    (hd : (run Op.apply (ext2Format heap device) ops).inodeUsed d = true)
    (hdir : ((run Op.apply (ext2Format heap device) ops).inode d).isDir = true) :
    IsMap (run Op.apply (ext2Format heap device) ops) d :=
  have hrun := maps_run heap hroom h
  isMap_of_maps hrun.1 hrun.2 hlt ⟨hd, hdir⟩

theorem run_directory_map_home : IsMap (run Op.apply (ext2Format zeroHeap smallDevice)
      [.home, .create (.ofString "/home/a") 0o644]) 12 := by
  -- one evaluation of the run for all that is read off it
  have heval : let ops : List Op := [.home, .create (.ofString "/home/a") 0o644]
      let fs := run Op.apply (ext2Format zeroHeap smallDevice) ops
      Along Op.apply (fun fs op => op.Nice fs ∧ op.KeepsDirs fs) (ext2Format zeroHeap smallDevice) ops ∧
        12 < fs.inodesCount ∧ fs.inodeUsed 12 = true ∧ (fs.inode 12).isDir = true := by decide
  obtain ⟨hops, hlt, hused, hdir⟩ := heval
  exact run_directory_map zeroHeap hasRoom_smallDevice _ hops 12 hlt hused hdir

/-- After a truncation of `/home` a file created in it cannot be found in it. -/
theorem directory_map_fails :
    let fs := run Op.apply (ext2Format zeroHeap smallDevice)
      [.home, .truncate (.ofString "/home")]
    (12 < fs.inodesCount ∧ fs.inodeUsed 12 = true ∧ (fs.inode 12).isDir = true) ∧
    NamesEntry fs (cstring "/home/a") 12 (cstring "a") ∧ (ext2Create fs (cstring "/home/a") 0o644).1 = 13 ∧
      findEntryInDir (ext2Create fs (cstring "/home/a") 0o644).2 12 (cstring "a") = 0 := by
  decide

end isMap

end VibeOS
