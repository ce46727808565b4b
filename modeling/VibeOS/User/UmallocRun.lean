import VibeOS.User.Umalloc
import VibeOS.Lib.Run

/-!
# Runs of the user heap

`UInv` ties the list of blocks to the allocations of the program. `umalloc`, `ufree` and `urealloc` keep
it whatever `SYS_SBRK` answers, and each says which bytes of the live payloads stay. The result is
`run_user_heap`.
-/

namespace VibeOS

open Buf Blk List Option Function

/-- The blocks of a user heap and the allocations of the program agree. -/
structure UInv (base : Nat) (u : UHeap) (live : Nat → Option Nat) (l : List Blk) : Prop where
  listed : Listed base u l
  compact : Compact l
  aligned : 16 ∣ base
  sizes : ∀ d ∈ l, 16 ∣ d.size
  used : u.used = liveSum l
  tracks : Tracks 32 base l live

/-- The payloads in `live` hold the same bytes in both heaps. -/
def SamePayloads (live : Nat → Option Nat) (u v : UHeap) : Prop :=
  ∀ q k, live q = some k → ∀ i < k, v.mem (q + i) = u.mem (q + i)

section steps

variable {base q p n s need m : Nat} {u v w : UHeap} {live : Nat → Option Nat} {l l1 l2 : List Blk}

lemma SamePayloads.trans (h1 : SamePayloads live u v) (h2 : SamePayloads live v w) : SamePayloads live u w :=
  fun q k hq i hi => (h2 q k hq i hi).trans (h1 q k hq i hi)

lemma Blk.Tracks.offHeaders (ht : Tracks 32 base l live) {k i : Nat} (hq : live q = some k)
    (hi : i < k) : OffHeaders base l (q + i) ∧ q + i < base + extent 32 l := by
  obtain ⟨x, d, hx, -, rfl, hk⟩ := ht.block q k hq
  have hb := bounds_of_mem hx
  exact ⟨offHeaders_of_mem hx (by omega) (by omega), by omega⟩

lemma samePayloads_of_offHeaders (ht : Tracks 32 base l live)
    (h : ∀ i, OffHeaders base l i → v.mem i = u.mem i) : SamePayloads live u v :=
  fun _ _ hq _ hi => h _ (ht.offHeaders hq hi).1

lemma UInv.block (hi : UInv base u live l) (hp : live p = some n) :
    ∃ l1 b l2, l = l1 ++ b :: l2 ∧ b.free = false ∧ n ≤ b.size ∧ p = base + extent 32 l1 + 32 ∧
      ublockOf p = base + extent 32 l1 := by
  obtain ⟨x, b, hx, hb, rfl, hn⟩ := hi.tracks.block p n hp
  obtain ⟨l1, l2, rfl, rfl⟩ := split_of_mem hx
  refine ⟨l1, b, l2, rfl, hb, hn, rfl, ?_⟩
  have hbrk := hi.listed.bounds
  have hlt := hi.listed.lt
  rw [ublockOf, show base + extent 32 l1 + 32 + 2 ^ 64 - 32 = base + extent 32 l1 + 2 ^ 64 by omega,
    Nat.add_mod_right, Nat.mod_eq_of_lt (by omega)]

lemma UInv.take {f : Bool} (hl : Listed base u (l1 ++ ⟨s, f⟩ :: l2))
    (hc1 : Compact l1) (hc2 : Compact (⟨s, true⟩ :: l2)) (h16 : 16 ∣ base)
    (hsizes : ∀ d ∈ l1 ++ ⟨s, true⟩ :: l2, 16 ∣ d.size) (hused : u.used = liveSum (l1 ++ ⟨s, true⟩ :: l2))
    (ht : Tracks 32 base (l1 ++ ⟨s, true⟩ :: l2) live) (hneed : need ≤ s) (hdvd : 16 ∣ need)
    (hlt : need + 48 < 2 ^ 64) (hn : n ≤ need) : ∃ l', UInv base (takeBlock u (base + extent 32 l1) need)
        (update live (base + extent 32 l1 + 32) (some n)) l' ∧ live (base + extent 32 l1 + 32) = none ∧
      SamePayloads live u (takeBlock u (base + extent 32 l1) need) ∧
      ∀ i < need, (takeBlock u (base + extent 32 l1) need).mem (base + extent 32 l1 + 32 + i) =
        u.mem (base + extent 32 l1 + 32 + i) := by
  obtain ⟨m, r, hl', hm, hdiv, hr, hext, hused', hmem⟩ := hl.takeBlock (b := ⟨s, f⟩) hneed hlt
  have hs16 : 16 ∣ s := hsizes ⟨s, true⟩ (by simp)
  have hrfree : ∀ d ∈ r, d.free = true := by
    rcases hr with rfl | ⟨k, rfl⟩ <;> simp
  have ht' : Tracks 32 base (l1 ++ ⟨m, false⟩ :: r ++ l2)
      (update live (base + extent 32 l1 + 32) (some n)) :=
    ht.take rfl hrfree hext (by omega)
  have hnone : live (base + extent 32 l1 + 32) = none := by
    rcases hl : live (base + extent 32 l1 + 32) with _ | k
    · rfl
    · obtain ⟨x, d, hx, hd, hpx, -⟩ := ht.block _ k hl
      have hxA : x = base + extent 32 l1 := by omega
      rw [hxA] at hx
      rw [eq_of_mem (by omega) hx mem_spans_split] at hd
      cases hd
  refine ⟨_, ⟨hl', ?_, h16, ?_, ?_, ht'⟩, hnone, fun q k hq i hi => ?_, fun i hi => ?_⟩
  · rw [append_assoc, cons_append]
    refine compact_append_cons.mpr ⟨(compact_concat_live rfl).mpr hc1, (compact_cons_live rfl).mpr ?_⟩
    rcases hr with rfl | ⟨k, rfl⟩
    · exact hc2.tail
    · exact (compact_cons_congr (b := ⟨s, true⟩) (c := ⟨k, true⟩) rfl).mp hc2
  · intro d hd
    simp only [mem_append, mem_cons] at hd
    rcases hd with (hd | rfl | hd) | hd
    · exact hsizes d (by simp [hd])
    · exact (hdiv hs16 hdvd).1
    · exact (hdiv hs16 hdvd).2 d hd
    · exact hsizes d (by simp [hd])
  · have hle := liveSum_le_extent 32 (l1 ++ ⟨m, false⟩ :: r ++ l2)
    have htiles := hl'.tiles
    have hbrk := hl'.lt
    have hsum : liveSum (l1 ++ ⟨m, false⟩ :: r ++ l2) = u.used + m := by
      rw [hused]
      simp only [liveSum_append, liveSum, liveSum_of_free hrfree, if_true, Bool.false_eq_true, if_false]
      omega
    rw [hused', hsum, Nat.mod_eq_of_lt (by omega)]
  · -- the other payloads are live in the new list, so off its headers
    have hp : q ≠ base + extent 32 l1 + 32 := fun heq => by
      rw [heq, hnone] at hq
      cases hq
    refine hmem _ (ht'.offHeaders (q := q) ?_ hi).1
    rw [update_of_ne hp]
    exact hq
  · refine hmem _ (offHeaders_of_mem (x := base + extent 32 l1) (b := ⟨m, false⟩) ?_ (by omega) (by dsimp only; omega))
    rw [append_assoc]
    exact mem_spans_split

/-- A free block in front of a compact list takes in the free block that follows. -/
lemma absorb_free (base s : Nat) (hc : Compact l2) :
    ∃ t l3, absorb ⟨s, true⟩ l2 = ⟨t, true⟩ :: l3 ∧ Compact (⟨t, true⟩ :: l3) ∧
      (∀ l1 live, Tracks 32 base (l1 ++ ⟨s, true⟩ :: l2) live → Tracks 32 base (l1 ++ ⟨t, true⟩ :: l3) live) ∧
      liveSum l3 = liveSum l2 ∧ s ≤ t ∧ (16 ∣ s → (∀ d ∈ l2, 16 ∣ d.size) → 16 ∣ t ∧ ∀ d ∈ l3, 16 ∣ d.size) := by
  rcases l2 with _ | ⟨⟨c, f⟩, l2⟩
  · exact ⟨s, [], rfl, trivial, fun _ _ h => h, rfl, le_rfl, fun h1 h2 => ⟨h1, h2⟩⟩
  · cases f with
    | false => exact ⟨s, _, rfl, ⟨by simp, hc⟩, fun _ _ h => h, rfl, le_rfl, fun h1 h2 => ⟨h1, h2⟩⟩
    | true =>
      refine ⟨s + (32 + c), l2, rfl, (compact_cons_congr (b := ⟨c, true⟩) (c := ⟨s + (32 + c), true⟩) rfl).mp hc,
        fun _ _ h => h.merge_pair, by simp [liveSum], by omega, fun h1 h2 => ⟨?_, fun d hd => h2 d (by simp [hd])⟩⟩
      have hc16 := h2 ⟨c, true⟩ (by simp)
      dsimp only at hc16
      omega

lemma UHeap.two_le_fuel (h : Listed base u l) : 2 ≤ u.fuel := by
  have := h.tiles
  have := h.pos
  rw [UHeap.fuel]
  omega

lemma Listed.prev_free {b : Blk} (h : Listed base u (l1 ++ b :: l2)) :
    (UBlock.load u.mem (base + extent 32 l1)).prev = 0 ∧ l1 = [] ∨
    ∃ l0 c, l1 = l0 ++ [c] ∧ (UBlock.load u.mem (base + extent 32 l1)).prev = base + extent 32 l0 ∧
      base + extent 32 l0 ≠ 0 ∧ (UBlock.load u.mem (base + extent 32 l0)).free = c.free := by
  rw [h.header]
  rcases eq_nil_or_concat l1 with rfl | ⟨l0, c, rfl⟩
  · exact .inl ⟨rfl, rfl⟩
  · have hpos := h.pos
    rw [concat_eq_append] at h ⊢
    refine .inr ⟨l0, c, rfl, by simp [lastBlock], by omega, ?_⟩
    rw [append_assoc] at h
    rw [h.header]

lemma UInv.used_release (hi : UInv base u live (l1 ++ ⟨s, false⟩ :: l2)) :
    (u.used + 2 ^ 64 - s) % 2 ^ 64 = liveSum (l1 ++ (⟨s, true⟩ : Blk) :: l2) := by
  have hle := liveSum_le_extent 32 (l1 ++ (⟨s, false⟩ : Blk) :: l2)
  have htiles := hi.listed.tiles
  have hlt := hi.listed.lt
  have hused := hi.used
  simp only [liveSum_append, liveSum, if_true, Bool.false_eq_true, if_false] at hle hused ⊢
  omega

/-- Two blocks become one with the header between them; the sizes stay multiples of 16. -/
lemma sizes_merge {c : Nat} {f g f' : Bool} (hs : ∀ d ∈ l1 ++ (⟨s, f⟩ : Blk) :: ⟨c, g⟩ :: l2, 16 ∣ d.size) :
    ∀ d ∈ l1 ++ (⟨s + (32 + c), f'⟩ : Blk) :: l2, 16 ∣ d.size := by
  have h1 := hs ⟨s, f⟩ (by simp)
  have h2 := hs ⟨c, g⟩ (by simp)
  intro d hd
  simp only [mem_append, mem_cons] at hd
  rcases hd with hd | rfl | hd
  · exact hs d (by simp [hd])
  · dsimp only at h1 h2 ⊢
    omega
  · exact hs d (by simp [hd])

lemma ufree_live (hi : UInv base u live l) (hp : live p = some n) :
    ∃ v l', ufree u p = some v ∧ UInv base v (update live p none) l' ∧ SamePayloads live u v := by
  obtain ⟨l1, ⟨s, f⟩, l2, rfl, hf, hns, rfl, hptr⟩ := hi.block hp
  obtain rfl : f = false := hf
  have hhead := hi.listed.header
  have hc := compact_append_cons.mp hi.compact
  have hfuel := UHeap.two_le_fuel hi.listed
  have hsame : SamePayloads live u { u with mem := UBlock.setFree u.mem (base + extent 32 l1) true } :=
    samePayloads_of_offHeaders hi.tracks fun i hi => UBlock.setFree_of_not_mem (hi _ _ mem_spans_split)
  have hrel := hi.tracks.release (by omega)
  -- the flag is set, then the block takes in the one after it
  have hl1 := hi.listed.setFree true
  obtain ⟨u1, hu1⟩ : ∃ w : UHeap, w = { u with
      mem := UBlock.setFree u.mem (base + extent 32 l1) true, used := (u.used + 2 ^ 64 - s) % 2 ^ 64 } := ⟨_, rfl⟩
  have hl1' : Listed base u1 (l1 ++ ⟨s, true⟩ :: l2) := by
    rw [hu1]
    exact ⟨hl1.links, hl1.head, hl1.tail, hl1.tiles, hl1.pos, hl1.lt⟩
  obtain ⟨v, hrun, hv, hvused, hvbrk, -, hvmem⟩ := hl1'.coalesce hc.2.tail hfuel
  obtain ⟨t, l3, habs, hct, htr, hls, hst, hdiv⟩ := absorb_free base s hc.2.tail
  rw [habs] at hv
  have htv := htr _ _ hrel
  have hvsame : SamePayloads live u v := by
    refine hsame.trans (samePayloads_of_offHeaders hi.tracks fun i hi => ?_)
    rw [hvmem i (hi.of_size rfl), hu1]
  have hsizes : ∀ d ∈ l1 ++ (⟨t, true⟩ : Blk) :: l3, 16 ∣ d.size := by
    have h0 := hi.sizes
    obtain ⟨h1, h2⟩ := hdiv (h0 ⟨s, false⟩ (by simp)) fun d hd => h0 d (by simp [hd])
    intro d hd
    simp only [mem_append, mem_cons] at hd
    rcases hd with hd | rfl | hd
    · exact h0 d (by simp [hd])
    · exact h1
    · exact h2 d hd
  have hvsum : v.used = liveSum (l1 ++ (⟨t, true⟩ : Blk) :: l3) := by
    rw [hvused, hu1]
    rw [hi.used_release]
    simp only [liveSum_append, liveSum, hls, if_true]
  have hunfold : ufree u (base + extent 32 l1 + 32) =
      let prev := (UBlock.load v.mem (base + extent 32 l1)).prev
      if prev ≠ 0 ∧ (UBlock.load v.mem prev).free then coalesceForward v u.fuel prev else some v := by
    rw [ufree, if_neg (by omega)]
    dsimp only
    rw [hptr, if_neg (by rw [hhead]; simp), hhead]
    rw [← hu1, hrun]
    rfl
  rw [hunfold]
  rcases hv.prev_free with ⟨h0, rfl⟩ | ⟨l0, c, rfl, hprev, hne, hfree⟩
  · refine ⟨v, _, if_neg (by rw [h0]; simp), ⟨hv, hct, hi.aligned, hsizes, hvsum, htv⟩, hvsame⟩
  · rw [hprev]
    have hcomp := hc.1.left
    by_cases hcf : c.free = true
    · obtain ⟨cs, cf⟩ := c
      obtain rfl : cf = true := hcf
      rw [if_pos ⟨hne, hfree⟩]
      rw [append_assoc] at hv htv hvsum hsizes
      obtain ⟨w, hrun', hw, hwused, -, -, hwmem⟩ := hv.coalesce hct hfuel
      change Listed base w (l0 ++ ⟨cs + (32 + t), true⟩ :: l3) at hw
      refine ⟨w, _, hrun', ⟨hw, ?_, hi.aligned, sizes_merge hsizes, ?_, htv.merge_pair⟩, ?_⟩
      · exact compact_append_cons.mpr ⟨(compact_concat_congr (b := ⟨cs, true⟩) (c := ⟨cs + (32 + t), true⟩) rfl).mp
          hcomp, (compact_cons_congr (b := ⟨t, true⟩) (c := ⟨cs + (32 + t), true⟩) rfl).mp hct⟩
      · rw [hwused, hvsum]
        simp [liveSum]
      · refine hvsame.trans fun q k hq i hik => hwmem _ ?_
        by_cases hqp : q = base + extent 32 (l0 ++ [⟨cs, true⟩]) + 32
        · -- the payload that was given up lies in the free block
          rw [hqp, hp] at hq
          cases hq
          refine offHeaders_of_mem (x := base + extent 32 (l0 ++ [⟨cs, true⟩])) (b := ⟨t, true⟩) ?_
            (by omega) (by dsimp only at hns ⊢; omega)
          rw [append_cons]
          exact mem_spans_split
        · refine (htv.offHeaders (q := q) ?_ hik).1
          rw [update_of_ne hqp]
          exact hq
    · rw [if_neg fun h0 => hcf (hfree.symm.trans h0.2)]
      refine ⟨v, _, rfl, ⟨hv, ?_, hi.aligned, hsizes, hvsum, htv⟩, hvsame⟩
      refine compact_append_cons.mpr ⟨?_, hct⟩
      rw [append_assoc]
      exact compact_append_cons.mpr ⟨hcomp, fun h0 => hcf h0.1, trivial⟩

lemma ufree_of_free (hp : p = 0 ∨ (UBlock.load u.mem (ublockOf p)).free) : ufree u p = some u := by
  rw [ufree]
  rcases hp with hp | hp
  · rw [if_pos hp]
  · rw [if_pos hp, ite_self]

lemma UInv.update_none (hi : UInv base u live l)
    (hp : p = 0 ∨ (UBlock.load u.mem (ublockOf p)).free) : update live p none = live := by
  refine update_eq_self_iff.mpr ?_
  rcases hl : live p with _ | n
  · rfl
  · obtain ⟨l1, b, l2, rfl, hb, -, hpx, hptr⟩ := hi.block hl
    rw [hptr, hi.listed.header] at hp
    rcases hp with hp | hp
    · omega
    · rw [hb] at hp
      cases hp

lemma findBlock_spec {mem : Buf} (need : Nat) {a fuel : Nat} (hfuel : l.length < fuel) (ha : 0 < a)
    (h : DLinks mem q a l 0) : (findBlock mem need fuel (if l = [] then 0 else a) = some 0 ∧
      ∀ d ∈ l, d.free → d.size < need) ∨ ∃ l1 b l2, l = l1 ++ b :: l2 ∧ b.free ∧ need ≤ b.size ∧
      findBlock mem need fuel (if l = [] then 0 else a) = some (a + extent 32 l1) := by
  induction l generalizing a q fuel with
  | nil =>
    obtain ⟨fuel, rfl⟩ : ∃ k, fuel = k + 1 := ⟨fuel - 1, by omega⟩
    exact .inl ⟨rfl, by simp⟩
  | cons b l ih =>
    rw [length_cons] at hfuel
    obtain ⟨fuel, rfl⟩ : ∃ k, fuel = k + 1 := ⟨fuel - 1, by omega⟩
    rw [if_neg (by simp), findBlock, if_neg (by omega), h.1]
    by_cases hb : b.free = true ∧ need ≤ b.size
    · exact .inr ⟨[], b, l, rfl, hb.1, hb.2, by rw [if_pos hb]; rfl⟩
    · rw [if_neg hb]
      have hlen : l.length < fuel := by omega
      rcases ih hlen (by omega) h.2 with ⟨hrun, hall⟩ | ⟨l1, c, l2, rfl, hc, hsize, hrun⟩
      · refine .inl ⟨hrun, fun d hd hf => ?_⟩
        rcases mem_cons.mp hd with rfl | hd
        · by_contra hle
          exact hb ⟨hf, by omega⟩
        · exact hall d hd hf
      · refine .inr ⟨b :: l1, c, l2, rfl, hc, hsize, ?_⟩
        rw [hrun, extent]
        congr 1
        omega

lemma Listed.length_lt (h : Listed base u l) : l.length < u.fuel := by
  have hlen : ∀ l : List Blk, l.length ≤ extent 32 l := by
    intro l
    induction l with
    | nil => simp
    | cons b l ih =>
      rw [length_cons, extent]
      omega
  have := hlen l
  have := h.tiles
  rw [UHeap.fuel]
  omega

section

variable (hi : UInv base u live l) (avail : Nat → Nat → Bool)

include hi avail

lemma UInv.found (hn : n ≤ need)
    (hdvd : 16 ∣ need) (hlt : need + 48 < 2 ^ 64) (fuel : Nat) :
    (findBlock u.mem need u.fuel u.head = some 0 ∧ ∀ d ∈ l, d.free → d.size < need) ∨
    ∃ p v l', umallocLoop avail need (fuel + 1) u = some (p, v) ∧ p ≠ 0 ∧ live p = none ∧
      UInv base v (update live p (some n)) l' ∧ SamePayloads live u v := by
  have hpos := hi.listed.pos
  rcases findBlock_spec need hi.listed.length_lt hpos hi.listed.links with
    hnone | ⟨l1, ⟨s, f⟩, l2, rfl, hf, hsize, hrun⟩
  · rw [hi.listed.head]
    exact .inl hnone
  · obtain rfl : f = true := hf
    obtain ⟨hc1, hc2⟩ := compact_append_cons.mp hi.compact
    obtain ⟨l', hi', hnone, hsame, -⟩ := UInv.take hi.listed hc1.left hc2 hi.aligned hi.sizes hi.used hi.tracks
      hsize hdvd hlt hn
    refine .inr ⟨_, _, l', ?_, by omega, hnone, hi', hsame⟩
    rw [umallocLoop, hi.listed.head, hrun, bind_some, if_pos (by omega)]

lemma UInv.grow (hneed : need + 32 + 4095 < 2 ^ 64) : growHeap avail u need = some (false, u) ∨
    ∃ v l', growHeap avail u need = some (true, v) ∧ UInv base v live l' ∧ SamePayloads live u v ∧
      ∃ d ∈ l', d.free ∧ need ≤ d.size := by
  rw [growHeap]
  obtain ⟨bytes, hb⟩ : ∃ k, k = pageAlign
    (if (need + 32) % 2 ^ 64 < 64 * 1024 then 64 * 1024 else (need + 32) % 2 ^ 64) := ⟨_, rfl⟩
  have hbytes : need + 32 ≤ bytes ∧ 16 ∣ bytes := by
    rw [hb, pageAlign]
    split_ifs <;> omega
  rw [← hb, sbrk]
  by_cases hav : avail u.brk bytes = true ∧ u.brk + bytes < 2 ^ 64
  · rw [if_pos hav]
    dsimp only
    obtain ⟨hl, hmem⟩ := hi.listed.linkBlock (by omega : 32 ≤ bytes) hav.2
    obtain ⟨v, hv⟩ : ∃ w, w = linkBlock { u with brk := u.brk + bytes } u.brk bytes := ⟨_, rfl⟩
    rw [← hv] at hl hmem ⊢
    have hvused : v.used = u.used := by
      rw [hv, linkBlock]
      split_ifs <;> rfl
    have hsame : SamePayloads live u v := fun q k hq i hik => by
      obtain ⟨hoff, hlt⟩ := hi.tracks.offHeaders hq hik
      rw [hi.listed.tiles] at hlt
      exact hmem _ hlt hoff
    have hfuel := UHeap.two_le_fuel hl
    have htr := hi.tracks.concat_free (s := bytes - 32)
    have hsum : v.used = liveSum (l ++ [⟨bytes - 32, true⟩]) := by
      rw [hvused, hi.used]
      simp [liveSum]
    have hsizes : ∀ d ∈ l ++ [(⟨bytes - 32, true⟩ : Blk)], 16 ∣ d.size := by
      intro d hd
      rcases mem_append.mp hd with hd | hd
      · exact hi.sizes d hd
      · rw [mem_singleton.mp hd]
        dsimp only
        omega
    rw [← hi.listed.tiles]
    refine .inr ?_
    rcases hl.prev_free with ⟨h0, rfl⟩ | ⟨l0, c, rfl, hprev, hne, hfree⟩
    · rw [h0, if_neg (by simp)]
      exact ⟨v, _, rfl, ⟨hl, trivial, hi.aligned, hsizes, hsum, htr⟩, hsame, ⟨bytes - 32, true⟩, by simp,
        rfl, by dsimp only; omega⟩
    · rw [hprev]
      by_cases hcf : c.free = true
      · obtain ⟨cs, cf⟩ := c
        obtain rfl : cf = true := hcf
        rw [if_pos ⟨hne, hfree⟩]
        rw [append_assoc] at hl htr hsum hsizes
        obtain ⟨w, hrun, hw, hwused, -, -, hwmem⟩ := hl.coalesce trivial hfuel
        change Listed base w (l0 ++ [⟨cs + (32 + (bytes - 32)), true⟩]) at hw
        have hwtail : { w with tail := base + extent 32 l0 } = w := by
          have htail : w.tail = base + extent 32 l0 := by
            rw [hw.tail, lastBlock_append]
            rfl
          rw [← htail]
        rw [hrun, map_some, hwtail, ite_self]
        have hcs := hsizes ⟨cs, true⟩ (by simp)
        refine ⟨w, _, rfl, ⟨hw, ?_, hi.aligned, ?_, ?_, htr.merge_pair⟩, ?_,
          ⟨cs + (32 + (bytes - 32)), true⟩, by simp, rfl, by dsimp only; omega⟩
        · exact (compact_concat_congr (b := ⟨cs, true⟩) (c := ⟨cs + (32 + (bytes - 32)), true⟩) rfl).mp hi.compact
        · intro d hd
          rcases mem_append.mp hd with hd | hd
          · exact hsizes d (by simp [hd])
          · rw [mem_singleton.mp hd]
            dsimp only at hcs ⊢
            omega
        · rw [hwused, hsum]
          simp [liveSum]
        · exact hsame.trans (samePayloads_of_offHeaders htr hwmem)
      · rw [if_neg fun h0 => hcf (hfree.symm.trans h0.2)]
        refine ⟨v, _, rfl, ⟨hl, ?_, hi.aligned, hsizes, hsum, htr⟩, hsame, ⟨bytes - 32, true⟩, by simp,
          rfl, by dsimp only; omega⟩
        rw [append_assoc]
        exact compact_append_cons.mpr ⟨hi.compact, fun h0 => hcf h0.1, trivial⟩
  · rw [if_neg hav]
    exact .inl rfl

lemma umalloc_spec (hn : n + 4127 < 2 ^ 64) :
    umalloc avail u n = some (0, u) ∨ ∃ p v l', umalloc avail u n = some (p, v) ∧ p ≠ 0 ∧ live p = none ∧
      UInv base v (update live p (some n)) l' ∧ SamePayloads live u v := by
  have hround : n ≤ alignUp n ∧ 16 ∣ alignUp n ∧ alignUp n + 4127 < 2 ^ 64 := by
    rw [alignUp]
    omega
  rw [umalloc]
  by_cases h0 : n = 0
  · rw [if_pos h0]
    exact .inl rfl
  · rw [if_neg h0]
    rcases hi.found avail hround.1 hround.2.1 (by omega) 1 with ⟨hnone, -⟩ | hsome
    · have hturn : ∀ r, growHeap avail u (alignUp n) = some r → umallocLoop avail (alignUp n) 2 u =
          if r.1 then umallocLoop avail (alignUp n) 1 r.2 else some (0, r.2) := by
        intro r hr
        rw [umallocLoop, hnone, bind_some, if_neg (by simp), hr, bind_some]
      rcases hi.grow avail (by omega : alignUp n + 32 + 4095 < 2 ^ 64) with
        hfail | ⟨v, l', hgrow, hi', hsame, d, hd, hdf, hds⟩
      · exact .inl (hturn _ hfail)
      · rcases hi'.found avail hround.1 hround.2.1 (by omega) 0 with
          ⟨-, hall⟩ | ⟨p, w, l'', hrun, hp, hnone', hi'', hsame'⟩
        · have := hall d hd hdf
          omega
        · exact .inr ⟨p, w, l'', (hturn _ hgrow).trans hrun, hp, hnone', hi'', hsame.trans hsame'⟩
    · exact .inr hsome

end

lemma ucopy_spec (mem : Buf) (src dst n : Nat) (hd : src + n ≤ dst ∨ dst + n ≤ src) :
    (∀ i < n, ucopy mem src dst n (dst + i) = mem (src + i)) ∧
      ∀ j, ¬ (dst ≤ j ∧ j < dst + n) → ucopy mem src dst n j = mem j := by
  induction n with
  | zero => exact ⟨fun i hi => absurd hi (by omega), fun _ _ => rfl⟩
  | succ n ih =>
    obtain ⟨hin, hout⟩ := ih (by omega)
    rw [ucopy]
    refine ⟨fun i hi => ?_, fun j hj => ?_⟩
    · by_cases hin' : i = n
      · rw [hin', update_self, hout _ (by omega)]
      · rw [update_of_ne (by omega), hin i (by omega)]
    · rw [update_of_ne (by omega), hout j (by omega)]

lemma UInv.write (hi : UInv base u live l) {x : Nat} {b : Blk} (hx : (x, b) ∈ spans 32 base l)
    (mem : Buf) (hout : ∀ j, ¬ (x + 32 ≤ j ∧ j < x + 32 + b.size) → mem j = u.mem j) :
    UInv base { u with mem := mem } live l := by
  refine { hi with listed := { hi.listed with links := ?_ } }
  refine hi.listed.links.of_headers fun y d hy => UBlock.load_congr fun i h1 h2 => hout i ?_
  by_cases hxy : x = y
  · omega
  · have := disjoint_of_mem hx hy hxy
    omega

/-- The allocate-copy-free part of `urealloc_nolock`, after the allocation. -/
lemma UInv.move (hi : UInv base v live l) {r : Nat} (hp : live p = some m)
    (hr : live r = some n) (hpr : p ≠ r) (hn : n + 4127 < 2 ^ 64) : ∃ w l', ufree { v with
        mem := ucopy v.mem p r (min (UBlock.load v.mem (ublockOf p)).size (alignUp n)) } p = some w ∧
      UInv base w (update live p none) l' ∧ (∀ i < min m n, w.mem (r + i) = v.mem (p + i)) ∧
      ∀ q k, q ≠ r → live q = some k → ∀ i < k, w.mem (q + i) = v.mem (q + i) := by
  obtain ⟨x, b, hx, -, rfl, hm⟩ := hi.tracks.block p m hp
  obtain ⟨y, d, hy, -, rfl, hnd⟩ := hi.tracks.block r n hr
  have hsize : (UBlock.load v.mem (ublockOf (x + 32))).size = b.size := by
    obtain ⟨l1, c, l2, rfl, -, -, hpx, hptr⟩ := hi.block hp
    have hxA : x = base + extent 32 l1 := by omega
    rw [hxA] at hx
    rw [hptr, hi.listed.header, eq_of_mem (by omega) hx mem_spans_split]
  have hneed : alignUp n ≤ d.size ∧ n ≤ alignUp n := by
    obtain ⟨l1, l2, rfl, -⟩ := split_of_mem hy
    have h16 := hi.sizes d (by simp)
    rw [alignUp]
    omega
  have hdis := disjoint_of_mem hx hy (by omega)
  rw [hsize]
  obtain ⟨hin, hout⟩ := ucopy_spec v.mem (x + 32) (y + 32) (min b.size (alignUp n)) (by omega)
  obtain ⟨w, l', hrun, hi', hsame⟩ := ufree_live (hi.write hy _ fun j hj => hout j (by omega)) hp
  refine ⟨w, l', hrun, hi', fun i hik => ?_, fun q k hqr hq i hik => ?_⟩
  · rw [hsame _ _ hr i (by omega)]
    exact hin i (by omega)
  · rw [hsame q k hq i hik]
    obtain ⟨z, e, hz, -, rfl, hk⟩ := hi.tracks.block q k hq
    have := disjoint_of_mem hz hy (by omega)
    exact hout _ (by omega)

lemma live_of_update_none {k : Nat} (h : update live p none q = some k) : live q = some k ∧ q ≠ p := by
  by_cases hqp : q = p
  · rw [hqp, update_self] at h
    cases h
  · rw [update_of_ne hqp] at h
    exact ⟨h, hqp⟩

/-- The part of `urealloc_nolock` that grows a block into the free one after it. -/
lemma UInv.growInto {l1 l3 : List Blk} {c : Nat}
    (hi : UInv base u live (l1 ++ ⟨s, false⟩ :: ⟨c, true⟩ :: l3)) (hp : live (base + extent 32 l1 + 32) = some m)
    (hneed : need ≤ s + 32 + c) (hdvd : 16 ∣ need) (hlt : need + 48 < 2 ^ 64) (hn : n ≤ need) :
    ∃ v l', coalesceForward { u with used := (u.used + 2 ^ 64 - s) % 2 ^ 64 } u.fuel (base + extent 32 l1) = some v ∧
      UInv base (takeBlock v (base + extent 32 l1) need) (update
        (update live (base + extent 32 l1 + 32) none) (base + extent 32 l1 + 32) (some n)) l' ∧
      (∀ i < min m n, (takeBlock v (base + extent 32 l1) need).mem (base + extent 32 l1 + 32 + i) =
        u.mem (base + extent 32 l1 + 32 + i)) ∧ SamePayloads (update live (base + extent 32 l1 + 32) none) u
        (takeBlock v (base + extent 32 l1) need) := by
  have hl := hi.listed
  have hc := compact_append_cons.mp hi.compact
  have hl0 : Listed base { u with used := (u.used + 2 ^ 64 - s) % 2 ^ 64 }
      (l1 ++ ⟨s, false⟩ :: ⟨c, true⟩ :: l3) := ⟨hl.links, hl.head, hl.tail, hl.tiles, hl.pos, hl.lt⟩
  obtain ⟨v, hrun, hv, hvused, -, -, hvmem⟩ := hl0.coalesce hc.2.tail (UHeap.two_le_fuel hl)
  change Listed base v (l1 ++ ⟨s + (32 + c), false⟩ :: l3) at hv
  have htr := (hi.tracks.release (by omega)).merge_pair
  have hsum : v.used = liveSum (l1 ++ (⟨s + (32 + c), true⟩ : Blk) :: l3) := by
    rw [hvused]
    rw [hi.used_release]
    simp only [liveSum_append, liveSum, if_true, zero_add]
  obtain ⟨l', hi', -, hsame, hown⟩ := UInv.take (n := n) hv hc.1.left ((compact_cons_congr (b := ⟨c, true⟩) (c := ⟨s +
    (32 + c), true⟩) rfl).mp hc.2.tail) hi.aligned (sizes_merge hi.sizes) hsum htr (by omega) hdvd hlt hn
  refine ⟨v, l', hrun, hi', fun i him => ?_, ?_⟩
  · rw [hown i (by omega)]
    exact hvmem _ (hi.tracks.offHeaders hp (by omega)).1
  · refine SamePayloads.trans (fun q k hq i hik => hvmem _ ?_) hsame
    exact (hi.tracks.offHeaders (live_of_update_none hq).1 hik).1

/-- `urealloc` of a live pointer to another size. The result holds the bytes of the old block, the other
payloads stay, and a failure leaves the heap as it is. -/
lemma urealloc_spec (hi : UInv base u live l) (avail : Nat → Nat → Bool)
    (hp : live p = some m) (hn : n + 4127 < 2 ^ 64) (hn0 : n ≠ 0) : urealloc avail u p n = some (0, u) ∨
    ∃ r v l', urealloc avail u p n = some (r, v) ∧ r ≠ 0 ∧ UInv base v (update (update live p none) r (some n)) l' ∧
      (∀ i < min m n, v.mem (r + i) = u.mem (p + i)) ∧ SamePayloads (update live p none) u v := by
  have hround : n ≤ alignUp n ∧ 16 ∣ alignUp n ∧ alignUp n + 4127 < 2 ^ 64 := by
    rw [alignUp]
    omega
  obtain ⟨l1, ⟨s, f⟩, l2, rfl, hf, hms, rfl, hptr⟩ := hi.block hp
  obtain rfl : f = false := hf
  have hhead := hi.listed.header
  rw [urealloc, if_neg (by omega), if_neg hn0]
  dsimp only
  rw [hptr, hhead]
  dsimp only
  by_cases hfit : s ≥ alignUp n
  · -- the block is large enough already
    rw [if_pos hfit]
    refine .inr ⟨_, u, l1 ++ ⟨s, false⟩ :: l2, rfl, by omega, ?_, fun _ _ => rfl, fun _ _ _ _ _ => rfl⟩
    rw [update_idem]
    exact { hi with tracks := hi.tracks.resize mem_spans_split rfl (by dsimp only; omega) }
  · rw [if_neg hfit]
    by_cases hgrow : (∃ c l3, l2 = c :: l3 ∧ c.free = true ∧ alignUp n ≤ s + 32 + c.size)
    · -- it grows into the free block after it
      obtain ⟨⟨c, f⟩, l3, rfl, hcf, hsize⟩ := hgrow
      obtain rfl : f = true := hcf
      have hnext := hi.listed.after_header
      have hbrk := hi.listed.bounds
      have hlt := hi.listed.lt
      rw [extent] at hbrk
      dsimp only at hbrk hsize hnext
      obtain ⟨v, l', hrun, hi', hbytes, hsame⟩ := hi.growInto hp hsize hround.2.1 (by omega) hround.1
      rw [if_neg (c := (⟨c, true⟩ : Blk) :: l3 = []) (by simp), hnext, if_pos
        ⟨by omega, rfl, by rw [Nat.mod_eq_of_lt (by dsimp only; omega)]; exact hsize⟩, hrun, map_some]
      exact .inr ⟨_, _, l', rfl, by omega, hi', hbytes, hsame⟩
    · -- it moves
      rw [if_neg]
      rotate_left
      · rintro ⟨hne, hfree, hsize⟩
        rcases l2 with _ | ⟨c, l3⟩
        · exact hne rfl
        · have hnext := hi.listed.after_header
          rw [if_neg (by simp), hnext] at hfree hsize
          refine hgrow ⟨c, l3, rfl, hfree, hsize.trans (Nat.mod_le _ _)⟩
      rcases umalloc_spec hi avail hn with hfail | ⟨r, v, l', hrun, hr, hnone, hi', hsame⟩
      · rw [hfail, bind_some, if_pos rfl]
        exact .inl rfl
      · have hpr : base + extent 32 l1 + 32 ≠ r := fun heq => by
          rw [← heq, hp] at hnone
          cases hnone
        obtain ⟨w, l'', hfree, hi'', hbytes, hother⟩ := hi'.move (m := m) (n := n)
          (by rw [update_of_ne hpr]; exact hp) (update_self _ _ _) hpr hn
        rw [hptr] at hfree
        refine .inr ⟨r, w, l'', ?_, hr, ?_, fun i him => ?_, fun q k hq i hik => ?_⟩
        · rw [hrun, bind_some, if_neg hr]
          rw [hfree, map_some]
        · rw [update_comm hpr]
          exact hi''
        · rw [hbytes i him]
          exact hsame _ _ hp i (by omega)
        · obtain ⟨hq', -⟩ := live_of_update_none hq
          have hqr : q ≠ r := fun heq => by
            rw [heq, hnone] at hq'
            cases hq'
          rw [hother q k hqr (by rw [update_of_ne hqr]; exact hq') i hik]
          exact hsame q k hq' i hik

end steps

/-! ### Whole runs -/

/-- A heap before the first allocation; `base` is where `SYS_SBRK` starts. -/
def UHeap.start (mem : Buf) (base : Nat) : UHeap := ⟨mem, 0, 0, 0, 0, base⟩

/-- A user heap with the live pointers and the sizes asked for. -/
structure URun where
  heap : UHeap
  live : Nat → Option Nat

/-- What the program does; `avail` is what the kernel answers to `SYS_SBRK` meanwhile. -/
inductive UOp where
  | umalloc (n : Nat) (avail : Nat → Nat → Bool)
  | ufree (p : Nat)
  | urealloc (p n : Nat) (avail : Nat → Nat → Bool)
  | store (a : Nat) (v : UInt8)

def URun.step (s : URun) : UOp → Option URun
  | .umalloc n avail => (umalloc avail s.heap n).map fun r =>
    ⟨r.2, if r.1 = 0 then s.live else update s.live r.1 (some n)⟩
  | .ufree p => (ufree s.heap p).map fun h => ⟨h, update s.live p none⟩
  | .urealloc p n avail => (urealloc avail s.heap p n).map fun r =>
    -- a null result for a size that is not 0 leaves the old block alive
    ⟨r.2, if r.1 = 0 then if n = 0 then update s.live p none else s.live
      else update (update s.live p none) r.1 (some n)⟩
  | .store a v => some { s with heap := { s.heap with mem := update s.heap.mem a v } }

def URun.next (s : Option URun) (op : UOp) : Option URun := s.bind fun s => s.step op

/-- What the program may do: sizes whose rounding (to 16, with a header, to pages) does not overflow,
frees of the null pointer, of live pointers and of pointers whose header says that they are free, and
stores into live payloads. -/
def UOp.Fair (s : URun) : UOp → Prop
  | .umalloc n _ => n + 4142 < 2 ^ 64
  | .ufree p => p = 0 ∨ (s.live p).isSome ∨ (UBlock.load s.heap.mem (ublockOf p)).free
  | .urealloc p n _ => (p = 0 ∨ (s.live p).isSome) ∧ n + 4142 < 2 ^ 64
  | .store a _ => ∃ p ≤ a, ∃ n ∈ s.live p, a < p + n

instance UOp.instDecidableFair (s : URun) (op : UOp) : Decidable (op.Fair s) := by
  cases op <;> unfold UOp.Fair <;> infer_instance

/-- What holds of a user heap. `Listed` says that the list is in address order, that `prev`, `next`,
`g_head` and `g_tail` agree with it and that it tiles the memory obtained. -/
structure USound (base : Nat) (u : UHeap) (live : Nat → Option Nat) (l : List Blk) : Prop where
  listed : Listed base u l
  compact : Compact l
  used : u.used = liveSum l
  disjoint : ∀ p n q m, live p = some n → live q = some m → p ≠ q → p + n ≤ q ∨ q + m ≤ p
  block : ∀ p n, live p = some n → 16 ∣ p ∧ ∃ d, (p - 32, d) ∈ spans 32 base l ∧ d.free = false ∧ n ≤ d.size
  used_live : ∀ x d, (x, d) ∈ spans 32 base l → d.free = false → ∃ n, live (x + 32) = some n

section runs

variable {base q p n s need m : Nat} {live : Nat → Option Nat} {l : List Blk}

lemma dvd_of_mem {x : Nat} {d : Blk} (hl : ∀ d ∈ l, 16 ∣ d.size) (hb : 16 ∣ base)
    (hx : (x, d) ∈ spans 32 base l) : 16 ∣ x := by
  induction l generalizing base with
  | nil => cases hx
  | cons b l ih =>
    rcases mem_cons.mp hx with heq | hx
    · cases heq
      exact hb
    · have hb' := hl b (by simp)
      exact ih (fun d hd => hl d (by simp [hd])) (by omega) hx

lemma UInv.sound {u : UHeap} (hi : UInv base u live l) : USound base u live l where
  listed := hi.listed
  compact := hi.compact
  used := hi.used
  disjoint _ _ _ _ hp hq hne := hi.tracks.disjoint hp hq hne
  block p n hp := by
    obtain ⟨x, d, hx, hd, rfl, hn⟩ := hi.tracks.block p n hp
    have h16 := dvd_of_mem hi.sizes hi.aligned hx
    exact ⟨by omega, d, hx, hd, hn⟩
  used_live := hi.tracks.live

lemma UInv.start (mem : Buf) (hpos : 0 < base) (h16 : 16 ∣ base) (hlt : base < 2 ^ 64) :
    UInv base (UHeap.start mem base) (fun _ => none) [] :=
  ⟨⟨trivial, rfl, rfl, rfl, hpos, hlt⟩, trivial, h16, by simp, rfl,
    ⟨fun _ _ hp => (nomatch hp), fun _ _ hx => (nomatch hx)⟩⟩

lemma UInv.live_zero {u : UHeap} (hi : UInv base u live l) : live 0 = none := by
  rcases hl : live 0 with _ | n
  · rfl
  · obtain ⟨x, d, -, -, hx, -⟩ := hi.tracks.block 0 n hl
    omega

/-- What the program may do, up to the last size whose rounding does not overflow. -/
def UOp.Sized (s : URun) : UOp → Prop
  | .umalloc n _ => n + 4127 < 2 ^ 64
  | .urealloc p n _ => (p = 0 ∨ (s.live p).isSome) ∧ n + 4127 < 2 ^ 64
  | op => op.Fair s

lemma UOp.Fair.sized {s : URun} {op : UOp} (h : op.Fair s) : op.Sized s := by
  cases op with
  | umalloc n avail =>
    have h : n + 4142 < 2 ^ 64 := h
    show n + 4127 < 2 ^ 64
    omega
  | ufree p => exact h
  | urealloc p n avail => exact ⟨h.1, lt_trans (Nat.add_lt_add_left (by decide) n) h.2⟩
  | store a v => exact h

lemma uinv_step {s : URun} {op : UOp} (hi : UInv base s.heap s.live l) (hop : op.Sized s) :
    ∃ t l', s.step op = some t ∧ UInv base t.heap t.live l' := by
  have hmalloc : ∀ n avail, n + 4127 < 2 ^ 64 → ∃ r l', umalloc avail s.heap n = some r ∧
      UInv base r.2 (if r.1 = 0 then s.live else update s.live r.1 (some n)) l' := by
    intro n avail hn
    rcases umalloc_spec hi avail hn with hfail | ⟨p, v, l', hrun, hp, -, hi', -⟩
    · exact ⟨_, l, hfail, hi⟩
    · exact ⟨_, l', hrun, by rw [if_neg hp]; exact hi'⟩
  have hfree : ∀ p, (p = 0 ∨ (s.live p).isSome ∨ (UBlock.load s.heap.mem (ublockOf p)).free) →
      ∃ v l', ufree s.heap p = some v ∧ UInv base v (update s.live p none) l' := by
    intro p hp
    by_cases hf : p = 0 ∨ (UBlock.load s.heap.mem (ublockOf p)).free
    · exact ⟨_, l, ufree_of_free hf, by rw [hi.update_none hf]; exact hi⟩
    · obtain ⟨n, hn⟩ := isSome_iff_exists.mp (by tauto : (s.live p).isSome = true)
      obtain ⟨v, l', hrun, hi', -⟩ := ufree_live hi hn
      exact ⟨v, l', hrun, hi'⟩
  cases op with
  | umalloc n avail =>
    obtain ⟨r, l', hrun, hi'⟩ := hmalloc n avail hop
    exact ⟨_, l', map_eq_some_iff.mpr ⟨_, hrun, rfl⟩, hi'⟩
  | ufree p =>
    obtain ⟨v, l', hrun, hi'⟩ := hfree p hop
    exact ⟨_, l', map_eq_some_iff.mpr ⟨_, hrun, rfl⟩, hi'⟩
  | urealloc p n avail =>
    obtain ⟨hp, hn⟩ := hop
    by_cases hp0 : p = 0
    · subst hp0
      obtain ⟨r, l', hrun, hi'⟩ := hmalloc n avail hn
      have hz : update s.live 0 none = s.live := hi.update_none (.inl rfl)
      refine ⟨_, l', map_eq_some_iff.mpr ⟨r, by rw [urealloc, if_pos rfl, hrun], rfl⟩, ?_⟩
      rw [hz, ite_self]
      exact hi'
    · by_cases hn0 : n = 0
      · obtain ⟨v, l', hrun, hi'⟩ := hfree p (by tauto)
        refine ⟨_, l', map_eq_some_iff.mpr
          ⟨(0, v), by rw [urealloc, if_neg hp0, if_pos hn0, hrun]; rfl, rfl⟩, ?_⟩
        rw [if_pos rfl, if_pos hn0]
        exact hi'
      · obtain ⟨m, hm⟩ := isSome_iff_exists.mp (by tauto : (s.live p).isSome = true)
        rcases urealloc_spec hi avail hm hn hn0 with hfail | ⟨r, v, l', hrun, hr, hi', -⟩
        · refine ⟨_, l, map_eq_some_iff.mpr ⟨_, hfail, rfl⟩, ?_⟩
          rw [if_pos rfl, if_neg hn0]
          exact hi
        · refine ⟨_, l', map_eq_some_iff.mpr ⟨_, hrun, rfl⟩, ?_⟩
          rw [if_neg hr]
          exact hi'
  | store a v =>
    obtain ⟨p, hpa, n, hp, ha⟩ := hop
    obtain ⟨x, d, hx, -, rfl, hn⟩ := hi.tracks.block p n hp
    exact ⟨_, l, rfl, hi.write hx _ fun j hj => update_of_ne (by omega) _ _⟩

lemma uinv_run {s : URun} (hi : UInv base s.heap s.live l) {ops : List UOp}
    (h : Along URun.next (fun s op => ∀ t ∈ s, op.Sized t) (some s) ops) :
    ∃ t l', run URun.next (some s) ops = some t ∧ UInv base t.heap t.live l' := by
  refine run_invariant (I := fun o : Option URun => ∃ t l', o = some t ∧ UInv base t.heap t.live l') ?_
    ⟨s, l, rfl, hi⟩ h
  rintro _ op ⟨t, l', rfl, hi'⟩ hop
  exact uinv_step hi' (hop t rfl)

/-- Every run of the user heap completes and leaves a sound heap, whatever `SYS_SBRK` answers. In the
state reached, `urealloc` of a live block keeps its first bytes and the payloads of the others, and
leaves everything as it is when it returns null for a size that is not 0. -/
theorem run_user_heap (mem : Buf) (base : Nat) (hpos : 0 < base) (h16 : 16 ∣ base)
    (hlt : base < 2 ^ 64) (ops : List UOp) (h : Along URun.next (fun s op => ∀ t ∈ s, op.Fair t)
      (some ⟨UHeap.start mem base, fun _ => none⟩) ops) :
    ∃ s l, run URun.next (some ⟨UHeap.start mem base, fun _ => none⟩) ops = some s ∧ USound base s.heap s.live l ∧
      ∀ avail p m n, s.live p = some m → n + 4142 < 2 ^ 64 → ∃ r v, urealloc avail s.heap p n = some (r, v) ∧
          (r ≠ 0 → ∀ i < min m n, v.mem (r + i) = s.heap.mem (p + i)) ∧
          (∀ q k, q ≠ p → s.live q = some k → ∀ i < k, v.mem (q + i) = s.heap.mem (q + i)) ∧
          (r = 0 → n ≠ 0 → v = s.heap) := by
  obtain ⟨s, l, hs, hi⟩ := uinv_run (UInv.start mem hpos h16 hlt) (h.mono fun _ _ hop t ht => (hop t ht).sized)
  refine ⟨s, l, hs, hi.sound, fun avail p m n hp hn => ?_⟩
  by_cases hn0 : n = 0
  · obtain ⟨v, l', hfree, -, hsame⟩ := ufree_live hi hp
    have hp0 : p ≠ 0 := fun heq => by
      rw [heq, hi.live_zero] at hp
      cases hp
    refine ⟨0, v, by rw [urealloc, if_neg hp0, if_pos hn0, hfree]; rfl, fun h0 => absurd rfl h0,
      fun q k _ hq => hsame q k hq, fun _ h0 => absurd hn0 h0⟩
  · rcases urealloc_spec hi avail hp (by omega) hn0 with hfail | ⟨r, v, l', hrun, hr, -, hbytes, hsame⟩
    · exact ⟨0, _, hfail, fun h0 => absurd rfl h0, fun _ _ _ _ _ _ => rfl, fun _ _ => rfl⟩
    · refine ⟨r, v, hrun, fun _ => hbytes, fun q k hqp hq => hsame q k ?_, fun h0 => absurd h0 hr⟩
      rw [update_of_ne hqp]
      exact hq

set_option maxRecDepth 8192 in
/-- Three blocks; the second grows over the third, and `SYS_SBRK` fails for a large request. -/
theorem run_user_heap_grow :
    let yes : Nat → Nat → Bool := fun _ _ => true
    let no : Nat → Nat → Bool := fun _ _ => false
    let ops : List UOp := [.umalloc 10 yes, .umalloc 20 no, .umalloc 30 no, .store 100 7,
      .ufree 208, .urealloc 144 40 no, .umalloc 100000 no, .ufree 96, .ufree 96]
    ∃ s l, run URun.next (some ⟨UHeap.start Buf.zero 64, fun _ => none⟩) ops = some s ∧ USound 64 s.heap s.live l ∧
      ∀ avail p m n, s.live p = some m → n + 4142 < 2 ^ 64 → ∃ r v, urealloc avail s.heap p n = some (r, v) ∧
          (r ≠ 0 → ∀ i < min m n, v.mem (r + i) = s.heap.mem (p + i)) ∧
          (∀ q k, q ≠ p → s.live q = some k → ∀ i < k, v.mem (q + i) = s.heap.mem (q + i)) ∧
          (r = 0 → n ≠ 0 → v = s.heap) :=
  run_user_heap Buf.zero 64 (by decide) (by decide) (by decide) _ (by decide)

end runs

end VibeOS
