import VibeOS.Ext2.Ops

/-!
# Packed directory blocks as entry lists

`Chain b off es` says that the entries `es` tile the block `b` from offset `off` to its end, each
with room for its own name. The five walks of the source are then functions of the list:

* `findInBlock_mem`, `findInBlock_eq`: lookup;
* `addInBlock_added`: insertion is one of the list steps `Added`;
* `removeInBlock_removed`: removal is one of the list steps `Removed`;
* `countEntries_eq` and `readdirBlock_eq`: counting and listing.

`pairs es` are the names and inodes of the live entries, what a directory is as a map; the list
steps change it by one pair (`Added.pairs_perm`, `Removed.pairs_perm`).
-/

namespace VibeOS

open List
open Buf Ext2Filesystem

/-! ### Entries and chains -/

/-- The entry's name fits into its `rec_len`. -/
def DirEntry.Fits (e : DirEntry) : Prop := entryLen e.nameLen.toNat ≤ e.recLen.toNat

/-- The entries `es` tile block `b` from `off` to the end. -/
def Chain (b : Buf) : Nat → List DirEntry → Prop
  | off, [] => off = 1024
  | off, e :: es => dirEntryAt b off = e ∧ e.Fits ∧ Chain b (off + e.recLen.toNat) es

def walk (b : Buf) : (fuel off : Nat) → List DirEntry
  | 0, _ => []
  | fuel + 1, off =>
    if off < 1024 then
      let e := dirEntryAt b off
      if e.recLen = 0 then [] else e :: walk b fuel (off + e.recLen.toNat)
    else []

def blockEntries (b : Buf) : List DirEntry := walk b 1024 0

/-- The rec_len values tile the block, and each entry fits into its own. -/
def Tiled (b : Buf) : Prop := ∃ es, Chain b 0 es

def pairs (es : List DirEntry) : List (List UInt8 × Nat) :=
  (es.filter fun e => e.inode ≠ 0).map fun e => (e.name, e.inode.toNat)

lemma mem_pairs {e : DirEntry} {es : List DirEntry} (he : e ∈ es) (h : e.inode ≠ 0) :
    (e.name, e.inode.toNat) ∈ pairs es :=
  mem_map.mpr ⟨e, mem_filter.mpr ⟨he, by simpa using h⟩, rfl⟩

lemma pairs_cons_live {e : DirEntry} (h : e.inode ≠ 0) (es : List DirEntry) :
    pairs (e :: es) = (e.name, e.inode.toNat) :: pairs es := by simp [pairs, h]

lemma pairs_cons_dead {e : DirEntry} (h : e.inode = 0) (es : List DirEntry) :
    pairs (e :: es) = pairs es := by simp [pairs, h]

lemma entryLen_ge (n : Nat) : 8 + n ≤ entryLen n := by rw [entryLen]; omega

lemma entryLen_le (n : Nat) : entryLen n ≤ n + 11 := by rw [entryLen]; omega

variable {fuel size : Nat}

section chain

variable {b b' : Buf} {off : Nat} {e : DirEntry} {es : List DirEntry}

lemma DirEntry.Fits.recLen_ge (h : e.Fits) : 8 + e.nameLen.toNat ≤ e.recLen.toNat :=
  (entryLen_ge _).trans h

lemma DirEntry.Fits.recLen_ne_zero (h : e.Fits) : e.recLen ≠ 0 := fun h0 => by
  have := h.recLen_ge
  rw [h0] at this
  simp at this

lemma dirEntryAt_congr (h : ∀ k < 8 + (dirEntryAt b off).nameLen.toNat, b' (off + k) = b (off + k)) :
    dirEntryAt b' off = dirEntryAt b off := by
  have hlen : b' (off + 6) = b (off + 6) := h 6 (by omega)
  have htype : b' (off + 7) = b (off + 7) := h 7 (by omega)
  have hino : b'.getU32 off = b.getU32 off := getU32_congr fun k hk => h k (by omega)
  have hrec : b'.getU16 (off + 4) = b.getU16 (off + 4) := getU16_congr fun k hk => by
    rw [add_assoc]
    exact h (4 + k) (by omega)
  have hname : b'.slice (off + 8) (b (off + 6)).toNat = b.slice (off + 8) (b (off + 6)).toNat :=
    slice_congr fun k hk => by
      rw [add_assoc]
      exact h (8 + k) (by simp only [dirEntryAt]; omega)
  simp only [dirEntryAt, hlen, htype, hino, hrec, hname]

@[simp] lemma length_name_dirEntryAt : (dirEntryAt b off).name.length =
    (dirEntryAt b off).nameLen.toNat := length_slice _ _ _

lemma Chain.le (h : Chain b off es) : off ≤ 1024 := by
  induction es generalizing off with
  | nil => exact Nat.le_of_eq h
  | cons e es ih => have := ih h.2.2; omega

lemma Chain.recLen_le (h : Chain b off (e :: es)) : off + e.recLen.toNat ≤ 1024 := h.2.2.le

lemma Chain.off_lt (h : Chain b off (e :: es)) : off < 1024 := by
  have h1 := h.recLen_le
  have h2 := h.2.1.recLen_ge
  omega

lemma Chain.length_le (h : Chain b off es) : 8 * es.length + off ≤ 1024 := by
  induction es generalizing off with
  | nil => simp only [length_nil]; have : off = 1024 := h; omega
  | cons e es ih =>
    have h1 := ih h.2.2
    have h2 := h.2.1.recLen_ge
    simp only [length_cons]
    omega

lemma Chain.congr (h : Chain b off es) (hb : ∀ k, off ≤ k → k < 1024 → b' k = b k) : Chain b' off es := by
  induction es generalizing off with
  | nil => exact h
  | cons e es ih =>
    have hle := h.recLen_le
    obtain ⟨he, hfit, htl⟩ := h
    have hge := hfit.recLen_ge
    refine ⟨?_, hfit, ih htl fun k hk hk' => hb k (by omega) hk'⟩
    rw [← he] at hge hle ⊢
    exact dirEntryAt_congr fun k hk => hb _ (by omega) (by omega)

lemma Chain.length_name (h : Chain b off es) : ∀ e ∈ es, e.name.length = e.nameLen.toNat := by
  induction es generalizing off with
  | nil => intro e he; cases he
  | cons e es ih =>
    intro x hx
    rcases mem_cons.mp hx with rfl | hx
    · rw [← h.1]
      exact length_name_dirEntryAt
    · exact ih h.2.2 x hx

lemma walk_eq (h : Chain b off es) (hf : es.length ≤ fuel) : walk b fuel off = es := by
  induction es generalizing off fuel with
  | nil =>
    have hoff : off = 1024 := h
    cases fuel with
    | zero => rfl
    | succ fuel => rw [walk, if_neg (by omega)]
  | cons e es ih =>
    have hlt := h.off_lt
    obtain ⟨he, hfit, htl⟩ := h
    cases fuel with
    | zero => simp at hf
    | succ fuel =>
      simp only [walk, if_pos hlt, he, if_neg hfit.recLen_ne_zero]
      rw [ih htl (by simpa using hf)]

lemma blockEntries_eq (h : Chain b 0 es) : blockEntries b = es := by
  have := h.length_le
  exact walk_eq h (by omega)

lemma Tiled.of_chain (h : Chain b 0 es) : Tiled b := ⟨es, h⟩

lemma Tiled.chain (h : Tiled b) : Chain b 0 (blockEntries b) := by
  obtain ⟨es, hes⟩ := h
  rw [blockEntries_eq hes]
  exact hes

end chain

/-! ### Lookup -/

section

variable {b : Buf} {name : List UInt8}

lemma findInBlock_mem {off : Nat} {es : List DirEntry} (h : Chain b off es)
    (hne : findInBlock b size 1024 name fuel off ≠ 0) : ∃ e ∈ es, e.inode ≠ 0 ∧ e.nameLen > 0 ∧ cstr e.name = name ∧
      findInBlock b size 1024 name fuel off = e.inode.toNat := by
  induction fuel generalizing off es with
  | zero => exact absurd rfl hne
  | succ fuel ih =>
    rw [findInBlock] at hne ⊢
    split_ifs at hne ⊢ with hlt
    · cases es with
      | nil => have : off = 1024 := h; omega
      | cons e es =>
        obtain ⟨he, hfit, htl⟩ := h
        simp only [he] at hne ⊢
        split_ifs at hne ⊢ with hmatch hz
        · exact ⟨e, mem_cons_self, hmatch.1, hmatch.2.1, hmatch.2.2, rfl⟩
        · exact absurd rfl hne
        · obtain ⟨x, hx, hx'⟩ := ih htl hne
          exact ⟨x, mem_cons_of_mem _ hx, hx'⟩
    · exact absurd rfl hne

def GoodName (name : List UInt8) : Prop := name ≠ [] ∧ (0 : UInt8) ∉ name

instance (name : List UInt8) : Decidable (GoodName name) := inferInstanceAs (Decidable (_ ∧ _))

lemma cstr_eq_self {l : List UInt8} (h : (0 : UInt8) ∉ l) : cstr l = l := by
  rw [cstr, takeWhile_eq_self_iff]
  intro x hx
  simp only [ne_eq, decide_not, Bool.not_eq_true', decide_eq_false_iff_not]
  rintro rfl
  exact h hx

/-- The first inode with a name in a list of pairs, `0` for none. -/
def findPair (name : List UInt8) : List (List UInt8 × Nat) → Nat
  | [] => 0
  | p :: ps => if p.1 = name then p.2 else findPair name ps

lemma findInBlock_eq {off : Nat} {es : List DirEntry} (h : Chain b off es)
    (hsize : 1024 ≤ size) (hfuel : es.length ≤ fuel) (hgood : ∀ e ∈ es, e.inode ≠ 0 → GoodName e.name) :
    findInBlock b size 1024 name fuel off = findPair name (pairs es) := by
  induction es generalizing off fuel with
  | nil =>
    have hoff : off = 1024 := h
    cases fuel with
    | zero => rfl
    | succ fuel => rw [findInBlock, if_neg (by omega)]; rfl
  | cons e es ih =>
    have hlt := h.off_lt
    have hlen := h.length_name e mem_cons_self
    obtain ⟨he, hfit, htl⟩ := h
    cases fuel with
    | zero => simp at hfuel
    | succ fuel =>
      have ih := ih htl (by simpa using hfuel) fun x hx => hgood x (mem_cons_of_mem _ hx)
      rw [findInBlock, if_pos ⟨by omega, hlt⟩]
      simp only [he, if_neg hfit.recLen_ne_zero, ih]
      by_cases hlive : e.inode = 0
      · simp [pairs, hlive]
      · have hgood := hgood e mem_cons_self hlive
        have hpos : e.nameLen > 0 := by
          rw [gt_iff_lt, UInt8.lt_iff_toNat_lt, ← hlen]
          exact length_pos_iff.mpr hgood.1
        simp only [pairs, ne_eq, hlive, not_false_eq_true, hpos, cstr_eq_self hgood.2, true_and,
          filter_cons, decide_true, if_true, map_cons, findPair]

end

/-! ### Insertion -/

def newEntry (n : Nat) (recLen : UInt16) (name : List UInt8) (fileType : UInt8) : DirEntry :=
  ⟨UInt32.ofNat n, recLen, UInt8.ofNat name.length, fileType, name⟩

/-- The two ways `add_entry_to_dir` finds room in a block: reuse a dead entry, or split a live one. -/
inductive Added (n : Nat) (name : List UInt8) (fileType : UInt8) : List DirEntry → List DirEntry → Prop where
  | reuse {e : DirEntry} {es : List DirEntry} (h : e.inode = 0) :
      Added n name fileType (e :: es) (newEntry n e.recLen name fileType :: es)
  | split {e : DirEntry} {es : List DirEntry} (h : e.inode ≠ 0)
      (hroom : entryLen e.nameLen.toNat + entryLen name.length ≤ e.recLen.toNat) :
      Added n name fileType (e :: es)
        ({ e with recLen := UInt16.ofNat (entryLen e.nameLen.toNat) } ::
          newEntry n (UInt16.ofNat (e.recLen.toNat - entryLen e.nameLen.toNat)) name fileType :: es)
  | skip {e : DirEntry} {es es' : List DirEntry} (h : Added n name fileType es es') :
      Added n name fileType (e :: es) (e :: es')

section add

variable {b : Buf} {off n : Nat} {name : List UInt8} {fileType : UInt8}

lemma fillEntry_of_not_mem {k : Nat} (h : ¬ (off ≤ k ∧ k < off + 8 + name.length)) :
    fillEntry b off n name fileType k = b k := by
  rw [fillEntry, putList_of_not_mem (by omega), putU8, blit_of_not_mem (by omega), putU8,
    blit_of_not_mem (by omega), putU32, blit_of_not_mem (by omega)]

lemma fillEntry_recLen : (fillEntry b off n name fileType).getU16 (off + 4) = b.getU16 (off + 4) := by
  refine getU16_congr fun k hk => ?_
  rw [fillEntry, putList_of_not_mem (by omega), putU8, blit_of_not_mem (by omega), putU8,
    blit_of_not_mem (by omega), putU32, blit_of_not_mem (by omega)]

lemma dirEntryAt_fillEntry (hlen : name.length ≤ 255) : dirEntryAt (fillEntry b off n name fileType) off =
      newEntry n (b.getU16 (off + 4)) name fileType := by
  have hino : (fillEntry b off n name fileType).getU32 off = UInt32.ofNat n := by
    rw [← getU32_putU32 b off (UInt32.ofNat n)]
    refine getU32_congr fun k hk => ?_
    rw [fillEntry, putList_of_not_mem (by omega), putU8, blit_of_not_mem (by omega), putU8, blit_of_not_mem (by omega)]
  have hnameLen : fillEntry b off n name fileType (off + 6) = UInt8.ofNat name.length := by
    rw [fillEntry, putList_of_not_mem (by omega), putU8, blit_of_not_mem (by omega), putU8,
      blit_of_mem (by omega) (by omega)]
  have htype : fillEntry b off n name fileType (off + 7) = fileType := by
    rw [fillEntry, putList_of_not_mem (by omega), putU8, blit_of_mem (by omega) (by omega)]
  have htoNat : (UInt8.ofNat name.length).toNat = name.length :=
    UInt8.toNat_ofNat_of_lt' (by simp only [UInt8.size]; omega)
  simp only [dirEntryAt, newEntry, hino, fillEntry_recLen, hnameLen, htype, htoNat, DirEntry.mk.injEq, true_and]
  rw [fillEntry, slice_putList]

lemma dirEntryAt_putRecLen (v : UInt16) :
    dirEntryAt (b.putU16 (off + 4) v) off = { dirEntryAt b off with recLen := v } := by
  have hother : ∀ k, ¬ (off + 4 ≤ k ∧ k < off + 6) → b.putU16 (off + 4) v k = b k := fun k hk => by
    rw [putU16, blit_of_not_mem (by omega)]
  have hino : (b.putU16 (off + 4) v).getU32 off = b.getU32 off :=
    getU32_congr fun k hk => hother _ (by omega)
  have hname : ∀ m, (b.putU16 (off + 4) v).slice (off + 8) m = b.slice (off + 8) m := fun m =>
    slice_congr fun k hk => hother _ (by omega)
  simp only [dirEntryAt, hino, getU16_putU16, hother (off + 6) (by omega), hother (off + 7) (by omega), hname]

variable {es : List DirEntry}

lemma Chain.reuse {e : DirEntry} (h : Chain b off (e :: es))
    (hlen : name.length ≤ 255) (hroom : entryLen name.length ≤ e.recLen.toNat) :
    Chain (fillEntry b off n name fileType) off (newEntry n e.recLen name fileType :: es) := by
  obtain ⟨he, -, htl⟩ := h
  have htoNat : (UInt8.ofNat name.length).toNat = name.length :=
    UInt8.toNat_ofNat_of_lt' (by simp only [UInt8.size]; omega)
  have hge := entryLen_ge name.length
  refine ⟨?_, ?_, htl.congr fun k hk _ => fillEntry_of_not_mem (by omega)⟩
  · rw [dirEntryAt_fillEntry hlen, ← he]
    rfl
  · rw [DirEntry.Fits, newEntry, htoNat]
    exact hroom

lemma Chain.split {e : DirEntry} (h : Chain b off (e :: es)) (hlen : name.length ≤ 255)
    (hroom : entryLen e.nameLen.toNat + entryLen name.length ≤ e.recLen.toNat) :
    Chain (fillEntry ((b.putU16 (off + 4) (UInt16.ofNat (entryLen e.nameLen.toNat))).putU16
        (off + entryLen e.nameLen.toNat + 4) (UInt16.ofNat (e.recLen.toNat - entryLen e.nameLen.toNat)))
      (off + entryLen e.nameLen.toNat) n name fileType) off
      ({ e with recLen := UInt16.ofNat (entryLen e.nameLen.toNat) } ::
        newEntry n (UInt16.ofNat (e.recLen.toNat - entryLen e.nameLen.toNat)) name fileType :: es) := by
  have hle := h.recLen_le
  obtain ⟨he, -, htl⟩ := h
  have hge := entryLen_ge name.length
  have hused := entryLen_ge e.nameLen.toNat
  have hlenNat : (UInt8.ofNat name.length).toNat = name.length :=
    UInt8.toNat_ofNat_of_lt' (by simp only [UInt8.size]; omega)
  have husedNat : (UInt16.ofNat (entryLen e.nameLen.toNat)).toNat = entryLen e.nameLen.toNat :=
    UInt16.toNat_ofNat_of_lt' (by simp only [UInt16.size]; omega)
  have hrestNat : (UInt16.ofNat (e.recLen.toNat - entryLen e.nameLen.toNat)).toNat =
      e.recLen.toNat - entryLen e.nameLen.toNat :=
    UInt16.toNat_ofNat_of_lt' (by simp only [UInt16.size]; omega)
  generalize hu : entryLen e.nameLen.toNat = used at *
  have hnew : newEntry n (UInt16.ofNat (e.recLen.toNat - used)) name fileType |>.Fits := by
    rw [DirEntry.Fits, newEntry, hlenNat, hrestNat]
    omega
  refine ⟨?_, ?_, ?_, hnew, ?_⟩
  · -- the first entry keeps its bytes, but for `rec_len`
    have hfirst : dirEntryAt (b.putU16 (off + 4) (UInt16.ofNat used)) off =
        { e with recLen := UInt16.ofNat used } := by rw [dirEntryAt_putRecLen, he]
    rw [← hfirst]
    refine dirEntryAt_congr fun k hk => ?_
    rw [hfirst] at hk
    change k < 8 + e.nameLen.toNat at hk
    rw [fillEntry_of_not_mem (by omega), putU16, blit_of_not_mem (by omega)]
  · rw [DirEntry.Fits, husedNat, hu]
  · rw [husedNat, dirEntryAt_fillEntry hlen, getU16_putU16]
  · have hend : off + (UInt16.ofNat used).toNat +
        (newEntry n (UInt16.ofNat (e.recLen.toNat - used)) name fileType).recLen.toNat =
        off + e.recLen.toNat := by
      rw [newEntry, husedNat, hrestNat]
      omega
    rw [hend]
    refine htl.congr fun k hk _ => ?_
    rw [fillEntry_of_not_mem (by omega), putU16, blit_of_not_mem (by omega), putU16, blit_of_not_mem (by omega)]

lemma addInBlock_added {b' : Buf} (h : Chain b off es)
    (hlen : name.length ≤ 255) (hadd : addInBlock b 1024 n name fileType fuel off = some b') :
    ∃ es', Added n name fileType es es' ∧ Chain b' off es' ∧ ∀ k < off, b' k = b k := by
  induction fuel generalizing off es with
  | zero => cases hadd
  | succ fuel ih =>
    rw [addInBlock] at hadd
    split_ifs at hadd with hlt
    cases es with
    | nil => have : off = 1024 := h; omega
    | cons e es =>
      have he := h.1
      simp only [he] at hadd
      split_ifs at hadd with hreuse hsplit hz
      · cases hadd
        exact ⟨_, .reuse hreuse.1, h.reuse hlen hreuse.2, fun k hk => fillEntry_of_not_mem (by omega)⟩
      · cases hadd
        refine ⟨_, .split hsplit.1 hsplit.2, h.split hlen hsplit.2, fun k hk => ?_⟩
        rw [fillEntry_of_not_mem (by omega), putU16, blit_of_not_mem (by omega), putU16, blit_of_not_mem (by omega)]
      · obtain ⟨es', hes', hch, hb⟩ := ih h.2.2 hadd
        have hge := h.2.1.recLen_ge
        have hent : dirEntryAt b' off = dirEntryAt b off :=
          dirEntryAt_congr fun k hk => hb _ (by rw [he] at hk; omega)
        exact ⟨e :: es', .skip hes', ⟨hent.trans he, h.2.1, hch⟩, fun k hk => hb k (by omega)⟩

lemma ofNat_inode {n : Nat} (hn : n ≠ 0) (hn' : n < 2 ^ 32) : (UInt32.ofNat n).toNat = n ∧ UInt32.ofNat n ≠ 0 := by
  have hnat : (UInt32.ofNat n).toNat = n := UInt32.toNat_ofNat_of_lt' hn'
  exact ⟨hnat, fun h0 => hn (by rw [← hnat, h0]; rfl)⟩

lemma pairs_newEntry {r : UInt16} (hn : n ≠ 0) (hn' : n < 2 ^ 32) (es : List DirEntry) :
    pairs (newEntry n r name fileType :: es) = (name, n) :: pairs es := by
  obtain ⟨hnat, hne⟩ := ofNat_inode hn hn'
  rw [pairs_cons_live (e := newEntry n r name fileType) hne]
  simp only [newEntry, hnat]

lemma Added.pairs_perm {es es' : List DirEntry} (h : Added n name fileType es es')
    (hn : n ≠ 0) (hn' : n < 2 ^ 32) : (pairs es').Perm ((name, n) :: pairs es) := by
  obtain ⟨hnat, hne⟩ := ofNat_inode hn hn'
  induction h with
  | reuse h => simp [pairs, newEntry, hne, h, hnat]
  | split h _ =>
    simp only [pairs, newEntry, ne_eq, hne, h, not_false_eq_true, decide_true, filter_cons_of_pos, map_cons, hnat]
    exact List.Perm.swap _ _ _
  | @skip e es es' _ ih =>
    by_cases he : e.inode = 0
    · rw [pairs_cons_dead he, pairs_cons_dead he]
      exact ih
    · rw [pairs_cons_live he, pairs_cons_live he]
      exact (ih.cons _).trans (List.Perm.swap _ _ _)

end add

/-! ### Removal -/

/-- The entry `ext2_unlink` is looking for. -/
def DirEntry.Matches (e : DirEntry) (name : List UInt8) : Prop :=
  e.inode ≠ 0 ∧ e.nameLen.toNat = name.length ∧ e.name = name

/-- Removing a later entry: it is merged into its predecessor. -/
inductive Merged (name : List UInt8) (t : Nat) : List DirEntry → List DirEntry → Prop where
  | here {p e : DirEntry} {es : List DirEntry} (h : e.Matches name) (ht : e.inode.toNat = t) :
      Merged name t (p :: e :: es) ({ p with recLen := p.recLen + e.recLen } :: es)
  | skip {p : DirEntry} {es es' : List DirEntry} (h : Merged name t es es') : Merged name t (p :: es) (p :: es')

/-- Removing an entry from a block; the first one is only marked dead. -/
inductive Removed (name : List UInt8) (t : Nat) : List DirEntry → List DirEntry → Prop where
  | first {e : DirEntry} {es : List DirEntry} (h : e.Matches name) (ht : e.inode.toNat = t) :
      Removed name t (e :: es) ({ e with inode := 0 } :: es)
  | later {es es' : List DirEntry} (h : Merged name t es es') : Removed name t es es'

section remove

variable {b b' : Buf} {name : List UInt8} {t : Nat}

lemma dirEntryAt_putInode (off : Nat) : dirEntryAt (b.putU32 off 0) off = { dirEntryAt b off with inode := 0 } := by
  have hother : ∀ k, ¬ (off ≤ k ∧ k < off + 4) → b.putU32 off 0 k = b k := fun k hk => by
    rw [putU32, blit_of_not_mem hk]
  have hrec : (b.putU32 off 0).getU16 (off + 4) = b.getU16 (off + 4) :=
    getU16_congr fun k hk => hother _ (by omega)
  have hname : ∀ m, (b.putU32 off 0).slice (off + 8) m = b.slice (off + 8) m := fun m =>
    slice_congr fun k hk => hother _ (by omega)
  simp only [dirEntryAt, getU32_putU32, hrec, hother (off + 6) (by omega), hother (off + 7) (by omega), hname]

variable {es : List DirEntry}

lemma Chain.merge {off : Nat} {p e : DirEntry} (h : Chain b off (p :: e :: es)) :
    Chain (b.putU16 (off + 4) (p.recLen + e.recLen)) off ({ p with recLen := p.recLen + e.recLen } :: es) := by
  have hle := h.2.2.recLen_le
  have hsum : (p.recLen + e.recLen).toNat = p.recLen.toNat + e.recLen.toNat := by
    rw [UInt16.toNat_add]
    omega
  have hge := h.2.1.recLen_ge
  have hge' := h.2.2.2.1.recLen_ge
  have hfit : entryLen p.nameLen.toNat ≤ p.recLen.toNat := h.2.1
  refine ⟨?_, ?_, ?_⟩
  · rw [dirEntryAt_putRecLen, h.1]
  · change entryLen p.nameLen.toNat ≤ (p.recLen + e.recLen).toNat
    omega
  · rw [hsum, ← add_assoc]
    refine h.2.2.2.2.congr fun k hk _ => ?_
    rw [putU16, blit_of_not_mem (by omega)]

lemma removeInBlock_merged {off : Nat} {p : DirEntry} (h : Chain b off (p :: es))
    (hrem : removeInBlock b 1024 name fuel (off + p.recLen.toNat) (some off) = some (t, b')) :
    ∃ es', Merged name t (p :: es) es' ∧ Chain b' off es' ∧ ∀ k < off, b' k = b k := by
  induction fuel generalizing off p es with
  | zero => cases hrem
  | succ fuel ih =>
    rw [removeInBlock] at hrem
    split_ifs at hrem with hlt
    cases es with
    | nil => have : off + p.recLen.toNat = 1024 := h.2.2; omega
    | cons e es =>
      have he := h.2.2.1
      simp only [he] at hrem
      split_ifs at hrem with hz hmatch
      · simp only [Option.some.injEq, Prod.mk.injEq] at hrem
        obtain ⟨ht, rfl⟩ := hrem
        rw [h.1]
        refine ⟨_, .here hmatch ht, h.merge, fun k hk => ?_⟩
        rw [putU16, blit_of_not_mem (by omega)]
      · obtain ⟨es', hes', hch, hb⟩ := ih h.2.2 hrem
        have hge := h.2.1.recLen_ge
        have hent : dirEntryAt b' off = dirEntryAt b off :=
          dirEntryAt_congr fun k hk => hb _ (by rw [h.1] at hk; omega)
        exact ⟨p :: es', .skip hes', ⟨hent.trans h.1, h.2.1, hch⟩, fun k hk => hb k (by omega)⟩

lemma removeInBlock_removed (h : Chain b 0 es)
    (hrem : removeInBlock b 1024 name fuel 0 none = some (t, b')) : ∃ es', Removed name t es es' ∧ Chain b' 0 es' := by
  cases fuel with
  | zero => cases hrem
  | succ fuel =>
    rw [removeInBlock, if_pos (by omega)] at hrem
    cases es with
    | nil => have : (0 : Nat) = 1024 := h; omega
    | cons e es =>
      have he := h.1
      simp only [he] at hrem
      split_ifs at hrem with hz hmatch
      · simp only [Option.some.injEq, Prod.mk.injEq] at hrem
        obtain ⟨ht, rfl⟩ := hrem
        refine ⟨_, .first hmatch ht, ?_, h.2.1, ?_⟩
        · rw [dirEntryAt_putInode, he]
        · have hge := h.2.1.recLen_ge
          refine h.2.2.congr fun k hk _ => ?_
          change 0 + e.recLen.toNat ≤ k at hk
          rw [putU32, blit_of_not_mem (by omega)]
      · obtain ⟨es', hes', hch, -⟩ := removeInBlock_merged h hrem
        exact ⟨es', .later hes', hch⟩

lemma pairs_setRecLen (e : DirEntry) (v : UInt16) (es : List DirEntry) :
    pairs ({ e with recLen := v } :: es) = pairs (e :: es) := by
  by_cases h : e.inode = 0 <;> simp [pairs, h]

lemma Merged.pairs_perm {es es' : List DirEntry} (h : Merged name t es es') :
    (pairs es).Perm ((name, t) :: pairs es') := by
  induction h with
  | @here p e es h ht =>
    have he : pairs (e :: es) = (name, t) :: pairs es := by
      rw [pairs_cons_live h.1, h.2.2, ht]
    rw [pairs_setRecLen p (p.recLen + e.recLen)]
    by_cases hp : p.inode = 0
    · rw [pairs_cons_dead hp, pairs_cons_dead hp, he]
    · rw [pairs_cons_live hp, pairs_cons_live hp, he]
      exact List.Perm.swap _ _ _
  | @skip p es es' _ ih =>
    by_cases hp : p.inode = 0
    · rw [pairs_cons_dead hp, pairs_cons_dead hp]
      exact ih
    · rw [pairs_cons_live hp, pairs_cons_live hp]
      exact (ih.cons _).trans (List.Perm.swap _ _ _)

lemma Removed.pairs_perm {es es' : List DirEntry} (h : Removed name t es es') :
    (pairs es).Perm ((name, t) :: pairs es') := by
  cases h with
  | @first e es h ht =>
    rw [pairs_cons_live h.1, pairs_cons_dead (e := { e with inode := 0 }) rfl, h.2.2, ht]
  | later h => exact h.pairs_perm

end remove

/-! ### Counting and listing -/

section

variable {b : Buf}

lemma countEntries_eq {off : Nat} {es : List DirEntry} (h : Chain b off es)
    (hfuel : es.length ≤ fuel) : countEntries b 1024 fuel off = (pairs es).length := by
  induction es generalizing off fuel with
  | nil =>
    have hoff : off = 1024 := h
    cases fuel with
    | zero => rfl
    | succ fuel => rw [countEntries, if_neg (by omega)]; rfl
  | cons e es ih =>
    have hlt := h.off_lt
    obtain ⟨he, hfit, htl⟩ := h
    cases fuel with
    | zero => simp at hfuel
    | succ fuel =>
      simp only [countEntries, if_pos hlt, he, if_neg hfit.recLen_ne_zero, ih htl (by simpa using hfuel)]
      by_cases hlive : e.inode = 0
      · rw [pairs_cons_dead hlive, if_neg (by simp [hlive]), zero_add]
      · rw [pairs_cons_live hlive, if_pos hlive, length_cons, add_comm]

lemma readdirBlock_eq {off room : Nat} {es : List DirEntry} (h : Chain b off es)
    (hsize : 1024 ≤ size) (hfuel : es.length ≤ fuel) : readdirBlock b size 1024 fuel off room =
      (es.filter fun e => decide (e.inode ≠ 0 ∧ e.nameLen > 0)).take room := by
  induction es generalizing off fuel room with
  | nil =>
    have hoff : off = 1024 := h
    cases fuel with
    | zero => simp [readdirBlock]
    | succ fuel => rw [readdirBlock, if_neg (by omega)]; simp
  | cons e es ih =>
    have hlt := h.off_lt
    obtain ⟨he, hfit, htl⟩ := h
    cases fuel with
    | zero => simp at hfuel
    | succ fuel =>
      cases room with
      | zero => rw [readdirBlock, if_neg (by omega), take_zero]
      | succ room =>
        have ih : ∀ r, readdirBlock b size 1024 fuel (off + e.recLen.toNat) r = _ :=
          fun r => ih htl (by simpa using hfuel)
        rw [readdirBlock, if_pos ⟨by omega, hlt, by omega⟩]
        simp only [he, if_neg hfit.recLen_ne_zero, ih]
        by_cases hlive : e.inode ≠ 0 ∧ e.nameLen > 0
        · rw [if_pos hlive, filter_cons_of_pos (by simpa using hlive), take_succ_cons, Nat.add_sub_cancel]
        · rw [if_neg hlive, filter_cons_of_neg (by simpa using hlive)]

end

end VibeOS
