import VibeOS.Lib.Forest
import VibeOS.Ext2.DirBlock
import VibeOS.Ext2.Owner

/-!
# Directory inodes and the tree they form

`dirPairs fs d` are the live entries of directory `d` over all its blocks. `DirOk fs d` is what a
directory in use looks like: its block pointers are a non-empty run, every block is tiled, and the
first block begins with the entries `.` and `..`. `treeOf fs` is the forest of the used inodes.

Insertion and removal change one directory by one link and leave every other one alone
(`addEntryToDir_spec`, `removeInBlocks_spec`); growing another inode leaves a directory alone
(`Grows.dirPairs_eq`, `Grows.dirOk`).
-/

namespace VibeOS

open List
open Buf Ext2Filesystem Ownership

/-! ### The entries `.` and `..` -/

/-- The entry `.` as `ext2_mkdir` writes it. -/
def dotEntry (d : Nat) : DirEntry := ⟨UInt32.ofNat d, 12, 1, 2, [46]⟩

def dotdotEntry (p : UInt32) (recLen : UInt16) : DirEntry := ⟨p, recLen, 2, 2, [46, 46]⟩

section dots

variable {d n t : Nat} {p : UInt32} {r : UInt16} {rest es' : List DirEntry} {name : List UInt8}
  {fileType : UInt8}

lemma Added.dots (h : Added n name fileType (dotEntry d :: dotdotEntry p r :: rest) es')
    (hd : UInt32.ofNat d ≠ 0) (hp : p ≠ 0) (hn : n ≠ 0) (hn' : n < 2 ^ 32) :
    ∃ r' rest', es' = dotEntry d :: dotdotEntry p r' :: rest' ∧ (pairs rest').Perm ((name, n) :: pairs rest) := by
  have hge := entryLen_ge name.length
  cases h with
  | reuse h => exact absurd h hd
  | split h hroom =>
    simp only [dotEntry] at hroom
    have h12 : (12 : UInt16).toNat = 12 := rfl
    have h1 : entryLen (1 : UInt8).toNat = 12 := rfl
    omega
  | skip h =>
    cases h with
    | reuse h => exact absurd h hp
    | split h hroom =>
      refine ⟨_, _, rfl, ?_⟩
      rw [pairs_newEntry hn hn']
    | skip h => exact ⟨r, _, rfl, h.pairs_perm hn hn'⟩

lemma Removed.dots (h : Removed name t (dotEntry d :: dotdotEntry p r :: rest) es')
    (hdot : name ≠ [46]) (hdotdot : name ≠ [46, 46]) : ∃ r' rest', es' = dotEntry d :: dotdotEntry p r' :: rest' ∧
      (pairs rest).Perm ((name, t) :: pairs rest') := by
  cases h with
  | first h => exact absurd h.2.2.symm hdot
  | later h =>
    cases h with
    | here h => exact absurd h.2.2.symm hdotdot
    | skip h =>
      cases h with
      | here h ht =>
        refine ⟨_, _, rfl, ?_⟩
        rw [pairs_cons_live h.1, h.2.2, ht]
      | skip h => exact ⟨r, _, rfl, h.pairs_perm⟩

end dots

/-! ### Directories -/

/-- The live entries of block `i` of a directory. -/
def blockPairs (fs : Ext2Filesystem) (d i : Nat) : List (List UInt8 × Nat) :=
  if (fs.inode d).ptr i = 0 then []
  else pairs (blockEntries (ext2ReadBlock fs ((fs.inode d).ptr i)))

def dirPairs (fs : Ext2Filesystem) (d : Nat) : List (List UInt8 × Nat) :=
  (List.range 12).flatMap (blockPairs fs d)

/-- The inode that `..` names. -/
def dirUp (fs : Ext2Filesystem) (d : Nat) : Nat := ((dirPairs fs d).getD 1 ([], 0)).2

/-- The entries besides `.` and `..`. -/
def dirLinks (fs : Ext2Filesystem) (d : Nat) : List (List UInt8 × Nat) := (dirPairs fs d).drop 2

def treeOf (fs : Ext2Filesystem) : Forest Nat (List UInt8) where
  used := fs.inodeUsed
  isDir d := (fs.inode d).isDir
  up := dirUp fs
  links := dirLinks fs

/-- The blocks of a directory have no gap, are tiled by entries, and begin with `.` and `..`. -/
structure DirOk (fs : Ext2Filesystem) (d : Nat) : Prop where
  first : (fs.inode d).ptr 0 ≠ 0
  run : ∀ i < 11, (fs.inode d).ptr i = 0 → (fs.inode d).ptr (i + 1) = 0
  tiled : ∀ i < 12, (fs.inode d).ptr i ≠ 0 → Tiled (ext2ReadBlock fs ((fs.inode d).ptr i))
  dots : ∃ p r rest, p ≠ 0 ∧ blockEntries (ext2ReadBlock fs ((fs.inode d).ptr 0)) =
    dotEntry d :: dotdotEntry p r :: rest

section dir

variable {fs fs' : Ext2Filesystem} {d : Nat}

lemma dirPairs_eq_append (fs : Ext2Filesystem) (d : Nat) :
    dirPairs fs d = blockPairs fs d 0 ++ (List.range' 1 11).flatMap (blockPairs fs d) := rfl

lemma blockPairs_zero_of_dots {p : UInt32} {r : UInt16} {rest : List DirEntry}
    (hfirst : (fs.inode d).ptr 0 ≠ 0) (hd : 1 ≤ d ∧ d < 2 ^ 32) (hp : p ≠ 0)
    (h : blockEntries (ext2ReadBlock fs ((fs.inode d).ptr 0)) = dotEntry d :: dotdotEntry p r :: rest) :
    blockPairs fs d 0 = ([46], d) :: ([46, 46], p.toNat) :: pairs rest := by
  obtain ⟨hnat, hne⟩ := ofNat_inode (by omega : d ≠ 0) hd.2
  rw [blockPairs, if_neg hfirst, h, pairs_cons_live (e := dotEntry d) hne, pairs_cons_live (e := dotdotEntry p r) hp]
  simp only [dotEntry, dotdotEntry, hnat]

lemma DirOk.dirPairs_eq (h : DirOk fs d) (hd : 1 ≤ d ∧ d < 2 ^ 32) :
    dirPairs fs d = ([46], d) :: ([46, 46], dirUp fs d) :: dirLinks fs d := by
  obtain ⟨p, r, rest, hp, hes⟩ := h.dots
  have h0 := blockPairs_zero_of_dots h.first hd hp hes
  rw [dirUp, dirLinks, dirPairs_eq_append, h0]
  rfl

lemma blockPairs_congr {i : Nat} (hptr : (fs'.inode d).ptr i = (fs.inode d).ptr i) (hread : (fs.inode d).ptr i ≠ 0 →
      ext2ReadBlock fs' ((fs.inode d).ptr i) = ext2ReadBlock fs ((fs.inode d).ptr i)) :
    blockPairs fs' d i = blockPairs fs d i := by
  rw [blockPairs, blockPairs, hptr]
  split_ifs with h
  · rfl
  · rw [hread h]

/-- What a directory depends on is the same: its twelve pointers and the blocks they lead to. -/
structure SameDir (fs fs' : Ext2Filesystem) (d : Nat) : Prop where
  ptr : ∀ i < 12, (fs'.inode d).ptr i = (fs.inode d).ptr i
  read : ∀ i < 12, (fs.inode d).ptr i ≠ 0 →
    ext2ReadBlock fs' ((fs.inode d).ptr i) = ext2ReadBlock fs ((fs.inode d).ptr i)

namespace SameDir

lemma pairs (h : SameDir fs fs' d) : dirPairs fs' d = dirPairs fs d := by
  refine flatMap_congr fun i hi => ?_
  have hi := mem_range.mp hi
  exact blockPairs_congr (h.ptr i hi) (h.read i hi)

lemma up (h : SameDir fs fs' d) : dirUp fs' d = dirUp fs d := by
  rw [dirUp, dirUp, h.pairs]

lemma links (h : SameDir fs fs' d) : dirLinks fs' d = dirLinks fs d := by
  rw [dirLinks, dirLinks, h.pairs]

lemma dirOk (hs : SameDir fs fs' d) (h : DirOk fs d) : DirOk fs' d where
  first := by rw [hs.ptr 0 (by omega)]; exact h.first
  run i hi := by rw [hs.ptr i (by omega), hs.ptr (i + 1) (by omega)]; exact h.run i hi
  tiled i hi hne := by
    rw [hs.ptr i hi] at hne ⊢
    rw [hs.read i hi hne]
    exact h.tiled i hi hne
  dots := by
    rw [hs.ptr 0 (by omega), hs.read 0 (by omega) h.first]
    exact h.dots

lemma of_data (ho : Owned fs) (hd : fs.inodeUsed d = true) (hptr : ∀ i < 12, (fs'.inode d).ptr i = (fs.inode d).ptr i)
    (hdata : ∀ b, fs.firstDataBlock ≤ b → fs.blockUsed b → ext2ReadBlock fs' b = ext2ReadBlock fs b) :
    SameDir fs fs' d := by
  refine ⟨hptr, fun i hi hz => ?_⟩
  rw [← own_root_of_used hd (show i < 14 by omega)] at hz ⊢
  exact hdata _ (ho.range _ hz).1 (ho.marked _ hz)

end SameDir

lemma DirOk.update (h : DirOk fs d) {i : Nat} (hi : i < 12) (hrun : ∀ j < i, (fs.inode d).ptr j ≠ 0)
    (hptr : ∀ j < 12, j ≠ i → (fs'.inode d).ptr j = (fs.inode d).ptr j) (hpi : (fs'.inode d).ptr i ≠ 0)
    (hread : ∀ j < 12, j ≠ i → (fs.inode d).ptr j ≠ 0 →
      ext2ReadBlock fs' ((fs.inode d).ptr j) = ext2ReadBlock fs ((fs.inode d).ptr j))
    (htiled : Tiled (ext2ReadBlock fs' ((fs'.inode d).ptr i))) (hdots : i = 0 → ∃ p r rest, p ≠ 0 ∧
      blockEntries (ext2ReadBlock fs' ((fs'.inode d).ptr 0)) =
        dotEntry d :: dotdotEntry p r :: rest) : DirOk fs' d where
  first := by
    by_cases h0 : i = 0
    · subst h0
      exact hpi
    · rw [hptr 0 (by omega) (Ne.symm h0)]
      exact h.first
  run j hj hz := by
    have hji : j ≠ i := fun heq => hpi (heq ▸ hz)
    rw [hptr j (by omega) hji] at hz
    have hji' : j + 1 ≠ i := fun heq => hrun j (by omega) hz
    rw [hptr (j + 1) (by omega) hji']
    exact h.run j hj hz
  tiled j hj hne := by
    by_cases hji : j = i
    · rw [hji]
      exact htiled
    · rw [hptr j hj hji] at hne ⊢
      rw [hread j hj hji hne]
      exact h.tiled j hj hne
  dots := by
    by_cases h0 : i = 0
    · exact hdots h0
    · rw [hptr 0 (by omega) (Ne.symm h0), hread 0 (by omega) (Ne.symm h0) h.first]
      exact h.dots

lemma flatMap_perm_cons {ι α : Type*} {F G : ι → List α} {x : α} {i : ι} {l : List ι}
    (hnd : l.Nodup) (hi : i ∈ l) (hne : ∀ j ∈ l, j ≠ i → G j = F j)
    (hperm : (G i).Perm (x :: F i)) : (l.flatMap G).Perm (x :: l.flatMap F) := by
  obtain ⟨l1, l2, rfl⟩ := append_of_mem hi
  have hnd' := (nodup_append.mp hnd)
  have h1 : l1.flatMap G = l1.flatMap F := flatMap_congr fun j hj =>
    hne j (mem_append_left _ hj) (hnd'.2.2 j hj i mem_cons_self)
  have h2 : l2.flatMap G = l2.flatMap F := flatMap_congr fun j hj =>
    hne j (mem_append_right _ (mem_cons_of_mem _ hj))
      fun heq => (nodup_cons.mp hnd'.2.1).1 (heq ▸ hj)
  rw [flatMap_append, flatMap_append, flatMap_cons, flatMap_cons, h1, h2]
  exact ((hperm.append_right _).append_left _).trans perm_middle

/-- Two states of a directory whose entries differ by one link in one block. -/
lemma dirLinks_perm {A B : Ext2Filesystem} {x : List UInt8 × Nat} {i : Nat} (hA : DirOk A d)
    (hB : DirOk B d) (hd : 1 ≤ d ∧ d < 2 ^ 32) (hi : i < 12)
    (hother : ∀ j < 12, j ≠ i → blockPairs B d j = blockPairs A d j) (hzero : i = 0 → ∃ p r r' rest rest', p ≠ 0 ∧
      blockEntries (ext2ReadBlock A ((A.inode d).ptr 0)) = dotEntry d :: dotdotEntry p r :: rest ∧
      blockEntries (ext2ReadBlock B ((B.inode d).ptr 0)) = dotEntry d :: dotdotEntry p r' :: rest' ∧
      (pairs rest').Perm (x :: pairs rest)) (hpos : i ≠ 0 → (blockPairs B d i).Perm (x :: blockPairs A d i)) :
    dirUp B d = dirUp A d ∧ (dirLinks B d).Perm (x :: dirLinks A d) := by
  have hmem : ∀ {j}, j ∈ List.range' 1 11 → j < 12 ∧ j ≠ 0 := fun hj => by
    have := mem_range'_1.mp hj
    omega
  by_cases h0 : i = 0
  · obtain ⟨p, r, r', rest, rest', hp, hea, heb, hperm⟩ := hzero h0
    have ha := blockPairs_zero_of_dots hA.first hd hp hea
    have hb := blockPairs_zero_of_dots hB.first hd hp heb
    have htail : (List.range' 1 11).flatMap (blockPairs B d) = (List.range' 1 11).flatMap (blockPairs A d) :=
      flatMap_congr fun j hj => hother j (hmem hj).1 (by rw [h0]; exact (hmem hj).2)
    simp only [dirUp, dirLinks, dirPairs_eq_append, ha, hb, htail]
    exact ⟨rfl, hperm.append_right _⟩
  · have hfirst := hother 0 (by omega) (Ne.symm h0)
    obtain ⟨p, r, rest, hp, hea⟩ := hA.dots
    have ha := blockPairs_zero_of_dots hA.first hd hp hea
    have htail := flatMap_perm_cons (l := List.range' 1 11) nodup_range'
      (mem_range'_1.mpr ⟨by omega, by omega⟩)
      (fun j hj hji => hother j (hmem hj).1 hji) (hpos h0)
    simp only [dirUp, dirLinks, dirPairs_eq_append, hfirst, ha]
    exact ⟨rfl, (htail.append_left _).trans perm_middle⟩

end dir

/-! ### Growing an inode leaves the other directories alone -/

namespace Grows

variable {n : Nat} {T : Slot → Prop} {fs fs' : Ext2Filesystem}

lemma readBlock_of_ne (h : Grows n T fs fs') (ho : Owned fs) (hT : ∀ τ, T τ → τ.inode = n)
    {σ : Slot} (hσ : own fs σ ≠ 0) (hne : σ.inode ≠ n) :
    ext2ReadBlock fs' (own fs σ) = ext2ReadBlock fs (own fs σ) := by
  refine h.data _ hσ (ho.range σ hσ).1 (ho.marked σ hσ) fun τ hτ heq => hne ?_
  have hmono := h.own_mono σ hσ
  have : τ = σ := h.owned.inj τ σ (by rw [heq, hmono]) (by rw [heq]; exact hσ)
  rw [← this]
  exact hT τ hτ

lemma frame (h : Grows n T fs fs') (ho : Owned fs) (hT : ∀ τ, T τ → τ.inode = n) {d : Nat}
    (hd : fs.inodeUsed d = true) (hne : d ≠ n) : SameDir fs fs' d := by
  refine ⟨fun i _ => by rw [h.inode_ne d (inodeUsed_range hd).1 hne], fun i hi hz => ?_⟩
  have hown := own_root_of_used hd (show i < 14 by omega)
  rw [← hown] at hz ⊢
  exact h.readBlock_of_ne ho hT hz hne

end Grows

lemma WriteBack.frame {fs fs' : Ext2Filesystem} (h : WriteBack fs fs') (ho : Owned fs) {d : Nat}
    (hd : fs.inodeUsed d = true) : SameDir fs fs' d :=
  .of_data ho hd (fun i _ => by rw [h.inode]) fun b hb _ => h.data b hb

/-! ### Insertion -/

section

variable {fs fs' : Ext2Filesystem} {d n : Nat} {name : List UInt8} {fileType : UInt8}

/-- The state after directory `d` got a fresh block `b` for its pointer `i`. -/
def growDir (fs : Ext2Filesystem) (d i b n : Nat) (name : List UInt8) (fileType : UInt8) : Ext2Filesystem :=
  ext2WriteBlock ((markBlock fs b).setInode d
    { (fs.inode d).setPtr i b with
      size := (fs.inode d).size + fs.superblock.blockSize
      blocks := (fs.inode d).blocks + fs.superblock.blockSize / 512 }) b
    (newEntryBlock fs.bs n name fileType)

lemma ptr_growDir {i b : Nat} (hi : i < 12) (hb : b < 2 ^ 32) (j : Nat) :
    ((growDir fs d i b n name fileType).inode d).ptr j = if j = i then b else (fs.inode d).ptr j := by
  rw [growDir, inode_writeBlock, inode_setInode_self]
  split_ifs with hji
  · rw [hji]
    exact ptr_setPtr_self _ (by omega) hb
  · exact ptr_setPtr_of_ne _ hji

lemma addInBlocks_cases (hg : Geometry fs) {l : List Nat} (h : addInBlocks fs d n name fileType l = some fs') :
    ∃ l1 i l2, l = l1 ++ i :: l2 ∧ (∀ j ∈ l1, (fs.inode d).ptr j ≠ 0) ∧
      ((∃ b', (fs.inode d).ptr i ≠ 0 ∧ addInBlock (ext2ReadBlock fs ((fs.inode d).ptr i)) fs.bs n
          name fileType fs.bs 0 = some b' ∧ fs' = ext2WriteBlock fs ((fs.inode d).ptr i) b') ∨
       (fs.inode d).ptr i = 0 ∧ ∃ b, (fs.firstDataBlock ≤ b ∧ b < fs.blocksCount) ∧ fs.blockUsed b = false ∧
          fs' = ext2WriteInode (growDir fs d i b n name fileType) d) := by
  induction l with
  | nil => cases h
  | cons i l ih =>
    rw [addInBlocks] at h
    by_cases hz : (fs.inode d).ptr i = 0
    · simp only [hz, if_true] at h
      rcases allocBlock_cases fs hg with ⟨ha, -⟩ | ⟨b, hb1, hb2, hfree, -, ha⟩
      · simp [ha] at h
      · have hb0 : b ≠ 0 := by have := hg.first_ge; omega
        simp only [ha, hb0, if_false, Option.some.injEq] at h
        exact ⟨[], i, l, rfl, forall_mem_nil _, .inr ⟨hz, b, ⟨hb1, hb2⟩, hfree, h.symm⟩⟩
    · simp only [hz, if_false] at h
      split at h
      · rename_i b' hb'
        simp only [Option.some.injEq] at h
        exact ⟨[], i, l, rfl, forall_mem_nil _, .inl ⟨b', hz, hb', h.symm⟩⟩
      · obtain ⟨l1, k, l2, rfl, hl1, hk⟩ := ih h
        refine ⟨i :: l1, k, l2, rfl, fun j hj => ?_, hk⟩
        rcases mem_cons.mp hj with rfl | hj
        · exact hz
        · exact hl1 j hj

lemma mem_of_range_eq {l1 l2 : List Nat} {i m : Nat} (h : List.range m = l1 ++ i :: l2) : i < m ∧ ∀ j < i, j ∈ l1 := by
  have hmem : i ∈ List.range m := by rw [h]; simp
  rw [range_eq_range'] at h
  obtain ⟨k, -, rfl, h2⟩ := range'_eq_append_iff.mp h
  obtain ⟨c, hc⟩ : ∃ c, m - k = c + 1 := Nat.exists_eq_succ_of_ne_zero fun h0 => by
    rw [h0] at h2
    cases h2
  rw [hc, range'_succ] at h2
  injection h2 with hi
  exact ⟨mem_range.mp hmem, fun j hj => mem_range'_1.mpr (by omega)⟩

lemma chain_trunc {b : Buf} {es : List DirEntry} (h : Chain b 0 es) : Chain (trunc b) 0 es :=
  h.congr fun _ _ hk => trunc_of_lt hk

lemma chain_newEntryBlock (n : Nat) (fileType : UInt8) (hlen : name.length ≤ 255) :
    Chain (newEntryBlock 1024 n name fileType) 0 [newEntry n 1024 name fileType] := by
  have hle := entryLen_le name.length
  have hnat : (UInt8.ofNat name.length).toNat = name.length :=
    UInt8.toNat_ofNat_of_lt' (by simp only [UInt8.size]; omega)
  refine ⟨?_, ?_, rfl⟩
  · rw [newEntryBlock, dirEntryAt_fillEntry hlen, getU16_putU16]
    rfl
  · rw [DirEntry.Fits, newEntry, hnat]
    change _ ≤ 1024
    omega

section

variable (hg : Geometry fs) (ho : Owned fs) (hd : fs.inodeUsed d = true) (hok : DirOk fs d)

include ho hd in
lemma ptr_inj {i j : Nat} (hi : i < 12) (hj : j < 12)
    (h : (fs.inode d).ptr i = (fs.inode d).ptr j) (hz : (fs.inode d).ptr i ≠ 0) : i = j := by
  have hi' := own_root_of_used hd (show i < 14 by omega)
  have hj' := own_root_of_used hd (show j < 14 by omega)
  have := ho.inj (.root d i) (.root d j) (by rw [hi', hj', h]) (by rw [hi']; exact hz)
  injection this

include hg ho hd hok in
lemma editBlock_spec {i : Nat} {b' : Buf} {es' : List DirEntry} (hi : i < 12)
    (hz : (fs.inode d).ptr i ≠ 0) (hchain : Chain b' 0 es') :
    Grows d (blocksOf d) fs (ext2WriteBlock fs ((fs.inode d).ptr i) b') ∧
      blockEntries (ext2ReadBlock (ext2WriteBlock fs ((fs.inode d).ptr i) b') ((fs.inode d).ptr i)) = es' ∧
      (∀ j < 12, j ≠ i → blockPairs (ext2WriteBlock fs ((fs.inode d).ptr i) b') d j = blockPairs fs d j) ∧
      ((i = 0 → ∃ p r rest, p ≠ 0 ∧ es' = dotEntry d :: dotdotEntry p r :: rest) →
        DirOk (ext2WriteBlock fs ((fs.inode d).ptr i) b') d) := by
  have hown := own_root_of_used hd (show i < 14 by omega)
  have hlevel : (Slot.root d i).level = 0 := by
    rw [Slot.level, if_neg (by omega), if_neg (by omega)]
  have hgrow := (grows_writeBlock hg ho (n := d) rfl hlevel (by rw [hown]; exact hz) b').toGrows
  rw [hown] at hgrow
  have hthis := readBlock_writeBlock_self hg ((fs.inode d).ptr i) b'
  have hentries : blockEntries (trunc b') = es' := blockEntries_eq (chain_trunc hchain)
  have hother : ∀ j < 12, j ≠ i → (fs.inode d).ptr j ≠ 0 →
      ext2ReadBlock (ext2WriteBlock fs ((fs.inode d).ptr i) b') ((fs.inode d).ptr j) =
        ext2ReadBlock fs ((fs.inode d).ptr j) := fun j hj hji hjz =>
    readBlock_writeBlock_of_ne hg b' fun heq => hji (ptr_inj ho hd hj hi heq hjz)
  have hrun : ∀ j < i, (fs.inode d).ptr j ≠ 0 := by
    -- the pointers are a run, so a zero before `i` would carry over to `i`
    intro j hj hj0
    have : ∀ k, j + k < 12 → (fs.inode d).ptr (j + k) = 0 := fun k => by
      induction k with
      | zero => exact fun _ => hj0
      | succ k ih => exact fun hk => hok.run (j + k) (by omega) (ih (by omega))
    exact hz (by have := this (i - j) (by omega); rwa [show j + (i - j) = i by omega] at this)
  refine ⟨hgrow, by rw [hthis, hentries], fun j hj hji => ?_, fun hdots => ?_⟩
  · exact blockPairs_congr rfl (hother j hj hji)
  · refine hok.update hi hrun (fun _ _ _ => rfl) hz hother ?_ fun h0 => ?_
    · rw [inode_writeBlock, hthis]
      exact Tiled.of_chain (chain_trunc hchain)
    · obtain ⟨p, r, rest, hp, hes⟩ := hdots h0
      subst h0
      exact ⟨p, r, rest, hp, by rw [inode_writeBlock, hthis, hentries, hes]⟩

include hg ho hd in
lemma grows_growDir (n : Nat) (name : List UInt8) (fileType : UInt8) {i b : Nat} (hi : i < 12)
    (hz : (fs.inode d).ptr i = 0) (hb : fs.firstDataBlock ≤ b ∧ b < fs.blocksCount) (hfree : fs.blockUsed b = false) :
    Grows d (blocksOf d) fs (growDir fs d i b n name fileType) := by
  have hr := inodeUsed_range hd
  have hb' := fresh_ne_zero hg hb
  have hinode : (growDir fs d i b n name fileType).inode d = { (fs.inode d).setPtr i b with
      size := (fs.inode d).size + fs.superblock.blockSize
      blocks := (fs.inode d).blocks + fs.superblock.blockSize / 512 } := by
    rw [growDir, inode_writeBlock, inode_setInode_self]
  have hne : ∀ m, 1 ≤ m → m ≠ d → (growDir fs d i b n name fileType).inode m = fs.inode m :=
    fun m hm hmd => by
      rw [growDir, inode_writeBlock, inode_setInode_of_ne _ _ hr.1 hm hmd, inode_markBlock]
  have hread : ∀ m, m ≠ b → ext2ReadBlock (growDir fs d i b n name fileType) m = ext2ReadBlock fs m := fun m hm =>
    readBlock_writeBlock_of_ne (hg.of_shape rfl) _ hm
  have hlevel : (Slot.root d i).level = 0 := by
    rw [Slot.level, if_neg (by omega), if_neg (by omega)]
  have hown := own_assignRoot hg ho hd hb hfree (growDir fs d i b n name fileType)
    (show i < 14 by omega) hz rfl rfl
    (by rw [hinode]; exact ptr_setPtr_self _ (by omega) hb'.2)
    (fun j hj => by rw [hinode]; exact ptr_setPtr_of_ne _ hj) hne (fun m _ hm => hread m hm)
    (fun h => by rw [hlevel] at h; omega)
  refine Grows.of_assign hg ho (.root d i) rfl ?_ hb hfree hown rfl rfl rfl rfl hne
    ⟨_, _, _, hinode⟩ fun m _ hm _ => hread m (ne_fresh_of_used hfree hm)
  rw [own_root_of_used hd (by omega), hz]

include hg ho hd hok in
lemma growDir_spec (fileType : UInt8) {i b : Nat} (hi : i < 12) (hrun : ∀ j < i, (fs.inode d).ptr j ≠ 0)
    (hz : (fs.inode d).ptr i = 0) (hb : fs.firstDataBlock ≤ b ∧ b < fs.blocksCount)
    (hfree : fs.blockUsed b = false) (hlen : name.length ≤ 255) (hn : n ≠ 0) (hn' : n < 2 ^ 32) :
    DirOk (growDir fs d i b n name fileType) d ∧ dirUp (growDir fs d i b n name fileType) d = dirUp fs d ∧
      (dirLinks (growDir fs d i b n name fileType) d).Perm ((name, n) :: dirLinks fs d) := by
  have hr := inodeUsed_range hd
  have hb' := fresh_ne_zero hg hb
  have hi0 : i ≠ 0 := fun h0 => hok.first (h0 ▸ hz)
  have hptr : ∀ j, ((growDir fs d i b n name fileType).inode d).ptr j = _ := ptr_growDir hi hb'.2
  have hself : ext2ReadBlock (growDir fs d i b n name fileType) b = trunc (newEntryBlock 1024 n name fileType) :=
    (readBlock_writeBlock_self (hg.of_shape rfl) b _).trans (by rw [hg.bs_eq])
  have hother : ∀ j < 12, j ≠ i → (fs.inode d).ptr j ≠ 0 →
      ext2ReadBlock (growDir fs d i b n name fileType) ((fs.inode d).ptr j) =
        ext2ReadBlock fs ((fs.inode d).ptr j) := by
    intro j hj _ _
    refine readBlock_writeBlock_of_ne (hg.of_shape rfl) _ ?_
    rw [← own_root_of_used hd (show j < 14 by omega)]
    exact own_ne_fresh hg ho hb hfree _
  have hchain := chain_trunc (chain_newEntryBlock n fileType hlen)
  have hok' : DirOk (growDir fs d i b n name fileType) d := by
    refine hok.update hi hrun (fun j _ hji => by rw [hptr, if_neg hji]) ?_ hother ?_
      fun h0 => absurd h0 hi0
    · rw [hptr, if_pos rfl]
      exact hb'.1
    · rw [hptr, if_pos rfl, hself]
      exact Tiled.of_chain hchain
  refine ⟨hok', dirLinks_perm hok hok' ⟨hr.1, ?_⟩ hi (fun j hj hji => ?_) (fun h0 => absurd h0 hi0) fun _ => ?_⟩
  · have := hg.inodes_le
    omega
  · exact blockPairs_congr (by rw [hptr, if_neg hji]) (hother j hj hji)
  · rw [blockPairs, blockPairs, hptr, if_pos rfl, if_neg hb'.1, hz, if_pos rfl, hself,
      blockEntries_eq hchain, pairs_newEntry hn hn']
    exact List.Perm.refl _

include hg ho hd hok in
/-- Adding an entry grows the directory by one link and touches nothing else. -/
lemma addEntryToDir_spec (hlen : name.length ≤ 255) (hn : n ≠ 0) (hn' : n < 2 ^ 32)
    (h : addEntryToDir fs d n name fileType = some fs') :
    Grows d (blocksOf d) fs fs' ∧ DirOk fs' d ∧ dirUp fs' d = dirUp fs d ∧
      (dirLinks fs' d).Perm ((name, n) :: dirLinks fs d) := by
  have hr := inodeUsed_range hd
  have hd32 : 1 ≤ d ∧ d < 2 ^ 32 := ⟨hr.1, by have := hg.inodes_le; omega⟩
  rw [addEntryToDir] at h
  split_ifs at h
  obtain ⟨l1, i, l2, hl, hl1, hcase⟩ := addInBlocks_cases hg h
  obtain ⟨hi, hmem⟩ := mem_of_range_eq hl
  have hrun : ∀ j < i, (fs.inode d).ptr j ≠ 0 := fun j hj => hl1 j (hmem j hj)
  rcases hcase with ⟨b', hz, hadd, rfl⟩ | ⟨hz, b, hb, hfree, rfl⟩
  · have hold := (hok.tiled i hi hz).chain
    rw [hg.bs_eq] at hadd
    obtain ⟨es', hes', hchain, -⟩ := addInBlock_added hold hlen hadd
    obtain ⟨hgrow, hent, hother, hok'⟩ := editBlock_spec hg ho hd hok hi hz hchain
    have hd0 := (ofNat_inode (by omega : d ≠ 0) hd32.2).2
    have hdots : i = 0 → ∃ p r r' rest rest', p ≠ 0 ∧ blockEntries (ext2ReadBlock fs ((fs.inode d).ptr 0)) =
          dotEntry d :: dotdotEntry p r :: rest ∧
        es' = dotEntry d :: dotdotEntry p r' :: rest' ∧
        (pairs rest').Perm ((name, n) :: pairs rest) := by
      intro h0
      obtain ⟨p, r, rest, hp, hes⟩ := hok.dots
      rw [h0, hes] at hes'
      obtain ⟨r', rest', he, hperm⟩ := hes'.dots hd0 hp hn hn'
      exact ⟨p, r, r', rest, rest', hp, hes, he, hperm⟩
    have hok' := hok' fun h0 => by
      obtain ⟨p, r, r', rest, rest', hp, -, he, -⟩ := hdots h0
      exact ⟨p, r', rest', hp, he⟩
    refine ⟨hgrow, hok', dirLinks_perm hok hok' hd32 hi hother (fun h0 => ?_) fun _ => ?_⟩
    · obtain ⟨p, r, r', rest, rest', hp, hes, he, hperm⟩ := hdots h0
      refine ⟨p, r, r', rest, rest', hp, hes, ?_, hperm⟩
      subst h0
      rw [inode_writeBlock, hent, he]
    · rw [blockPairs, blockPairs, inode_writeBlock, if_neg hz, if_neg hz, hent]
      exact hes'.pairs_perm hn hn'
  · have hgrow := grows_growDir hg ho hd n name fileType hi hz hb hfree
    obtain ⟨hok', hup, hperm⟩ := growDir_spec hg ho hd hok fileType hi hrun hz hb hfree hlen hn hn'
    have hw := WriteBack.writeInode (hg.of_shape hgrow.shape) d
    have hd' : (growDir fs d i b n name fileType).inodeUsed d = true := by
      rw [hgrow.inodeUsed]
      exact hd
    have hsame := hw.frame hgrow.owned hd'
    exact ⟨hgrow.trans (.of_writeBack hgrow.owned hw), hsame.dirOk hok', by rw [hsame.up, hup],
      by rw [hsame.links]; exact hperm⟩

end

end

/-! ### Removal -/

section

variable {fs fs' : Ext2Filesystem} {d t : Nat} {name : List UInt8}

lemma removeInBlocks_cases {dir : Inode} {l : List Nat} (h : removeInBlocks fs dir name l = some (t, fs')) :
    ∃ i ∈ l, ∃ b', dir.ptr i ≠ 0 ∧ removeInBlock (ext2ReadBlock fs (dir.ptr i)) fs.bs name fs.bs 0 none = some (t, b') ∧
      fs' = ext2WriteBlock fs (dir.ptr i) b' := by
  induction l with
  | nil => cases h
  | cons i l ih =>
    rw [removeInBlocks] at h
    split_ifs at h with hz
    · obtain ⟨j, hj, hrem⟩ := ih h
      exact ⟨j, mem_cons_of_mem i hj, hrem⟩
    · split at h
      · rename_i t' b' hb'
        obtain ⟨rfl, rfl⟩ := h
        exact ⟨i, mem_cons_self, b', hz, hb', rfl⟩
      · obtain ⟨j, hj, hrem⟩ := ih h
        exact ⟨j, mem_cons_of_mem i hj, hrem⟩

/-- Removing an entry other than `.` and `..` takes one link away and touches nothing else. -/
lemma removeInBlocks_spec (hg : Geometry fs) (ho : Owned fs) (hd : fs.inodeUsed d)
    (hok : DirOk fs d) (hdot : name ≠ [46]) (hdotdot : name ≠ [46, 46])
    (h : removeInBlocks fs (fs.inode d) name (List.range 12) = some (t, fs')) :
    Grows d (blocksOf d) fs fs' ∧ DirOk fs' d ∧ dirUp fs' d = dirUp fs d ∧
      (dirLinks fs d).Perm ((name, t) :: dirLinks fs' d) := by
  have hr := inodeUsed_range hd
  have hd32 : 1 ≤ d ∧ d < 2 ^ 32 := ⟨hr.1, by have := hg.inodes_le; omega⟩
  obtain ⟨i, hi, b', hz, hrem, rfl⟩ := removeInBlocks_cases h
  have hi := mem_range.mp hi
  rw [hg.bs_eq] at hrem
  obtain ⟨es', hes', hchain⟩ := removeInBlock_removed (hok.tiled i hi hz).chain hrem
  obtain ⟨hgrow, hent, hother, hok'⟩ := editBlock_spec hg ho hd hok hi hz hchain
  have hdots : i = 0 → ∃ p r r' rest rest', p ≠ 0 ∧ es' = dotEntry d :: dotdotEntry p r' :: rest' ∧
      blockEntries (ext2ReadBlock fs ((fs.inode d).ptr 0)) = dotEntry d :: dotdotEntry p r :: rest ∧
      (pairs rest).Perm ((name, t) :: pairs rest') := by
    intro h0
    obtain ⟨p, r, rest, hp, hes⟩ := hok.dots
    rw [h0, hes] at hes'
    obtain ⟨r', rest', he, hperm⟩ := hes'.dots hdot hdotdot
    exact ⟨p, r, r', rest, rest', hp, he, hes, hperm⟩
  have hok' := hok' fun h0 => by
    obtain ⟨p, r, r', rest, rest', hp, he, -, -⟩ := hdots h0
    exact ⟨p, r', rest', hp, he⟩
  have hlinks := dirLinks_perm (x := (name, t)) hok' hok hd32 hi
    (fun j hj hji => (hother j hj hji).symm)
    (fun h0 => by
      obtain ⟨p, r, r', rest, rest', hp, he, hes, hperm⟩ := hdots h0
      refine ⟨p, r', r, rest', rest, hp, ?_, hes, hperm⟩
      subst h0
      rw [inode_writeBlock, hent, he])
    fun _ => by
      rw [blockPairs, blockPairs, inode_writeBlock, if_neg hz, if_neg hz, hent]
      exact hes'.pairs_perm
  exact ⟨hgrow, hok', hlinks.1.symm, hlinks.2⟩

end

/-! ### Lookup -/

section

variable {fs : Ext2Filesystem} {d : Nat} {name : List UInt8}

lemma findInBlocks_mem {l : List Nat} (hg : Geometry fs)
    (htiled : ∀ i ∈ l, (fs.inode d).ptr i ≠ 0 → Tiled (ext2ReadBlock fs ((fs.inode d).ptr i)))
    (h : findInBlocks fs (fs.inode d) name l ≠ 0) :
    ∃ i ∈ l, ∃ nm, (nm, findInBlocks fs (fs.inode d) name l) ∈ blockPairs fs d i := by
  induction l with
  | nil => exact absurd rfl h
  | cons i l ih =>
    rw [findInBlocks, hg.bs_eq] at h ⊢
    dsimp only at h ⊢
    split_ifs at h ⊢ with hz hfound
    · exact absurd rfl h
    · obtain ⟨e, he, hlive, -, -, heq⟩ :=
        findInBlock_mem (htiled i mem_cons_self hz).chain h
      refine ⟨i, mem_cons_self, e.name, ?_⟩
      rw [heq, blockPairs, if_neg hz]
      exact mem_pairs he hlive
    · obtain ⟨j, hj, hmem⟩ := ih (fun j hj => htiled j (mem_cons_of_mem _ hj)) h
      exact ⟨j, mem_cons_of_mem _ hj, hmem⟩

lemma findEntryInDir_mem (hg : Geometry fs) (hok : DirOk fs d)
    (h : findEntryInDir fs d name ≠ 0) : ∃ nm, (nm, findEntryInDir fs d name) ∈ dirPairs fs d := by
  rw [findEntryInDir] at h ⊢
  by_cases h1 : d ≥ fs.inodesCount
  · rw [if_pos h1] at h
    exact absurd rfl h
  by_cases h2 : ¬ (fs.inode d).isDir = true
  · rw [if_neg h1, if_pos h2] at h
    exact absurd rfl h
  · rw [if_neg h1, if_neg h2] at h ⊢
    obtain ⟨i, hi, nm, hmem⟩ :=
      findInBlocks_mem hg (fun i hi => hok.tiled i (mem_range.mp hi)) h
    exact ⟨nm, mem_flatMap.mpr ⟨i, hi, hmem⟩⟩

lemma findEntryInDir_isDir (h : findEntryInDir fs d name ≠ 0) : (fs.inode d).isDir = true := by
  by_contra hc
  rw [findEntryInDir] at h
  split_ifs at h <;> exact h rfl

section

variable (hg : Geometry fs) (htree : (treeOf fs).Ok 2)
  (hdirs : ∀ d, fs.inodeUsed d → (fs.inode d).isDir = true → DirOk fs d)

include hg htree hdirs

lemma attached_findEntryInDir (hd : (treeOf fs).Attached 2 d) (h : findEntryInDir fs d name ≠ 0) :
    (treeOf fs).Attached 2 (findEntryInDir fs d name) := by
  have hused : fs.inodeUsed d = true := htree.used_of_attached hd
  have hdir := findEntryInDir_isDir h
  have hok := hdirs d hused hdir
  have hr := inodeUsed_range hused
  obtain ⟨nm, hmem⟩ := findEntryInDir_mem hg hok h
  rw [hok.dirPairs_eq ⟨hr.1, by have := hg.inodes_le; omega⟩] at hmem
  rcases mem_cons.mp hmem with heq | hmem
  · have heq := congrArg Prod.snd heq
    dsimp only at heq
    rw [heq]
    exact hd
  rcases mem_cons.mp hmem with heq | hmem
  · have heq := congrArg Prod.snd heq
    dsimp only at heq
    rw [heq]
    exact htree.attached_up hd hdir
  · exact .link (e := (nm, findEntryInDir fs d name)) hd ⟨hused, hdir⟩ hmem

lemma attached_lookupGo {fuel : Nat}
    {path : List UInt8} (hd : (treeOf fs).Attached 2 d) (h : lookupGo fs fuel path d ≠ 0) :
    (treeOf fs).Attached 2 (lookupGo fs fuel path d) := by
  induction fuel generalizing path d with
  | zero => exact hd
  | succ fuel ih =>
    rw [lookupGo] at h ⊢
    dsimp only at h ⊢
    split_ifs at h ⊢ with h1 h2
    · exact hd
    · exact absurd rfl h
    · exact ih (attached_findEntryInDir hg htree hdirs hd h2) h

lemma attached_lookupInode {path : List UInt8} (h : ext2LookupInode fs path ≠ 0) :
    (treeOf fs).Attached 2 (ext2LookupInode fs path) := by
  rw [ext2LookupInode] at h ⊢
  split_ifs at h ⊢ with h1 h2
  · exact absurd rfl h
  · exact .root
  · exact attached_lookupGo hg htree hdirs .root h

end

end

end VibeOS
