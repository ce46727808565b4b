import Mathlib

/-!
# Tilings by blocks

A heap of consecutive blocks, each a header of `hdr` bytes and a payload, as the list of its blocks.
`spans hdr a l` pairs every block with its address when the first one is at `a`; it is ordered and
tiles `[a, a + extent hdr l)` by construction. `Compact` lists have no two neighbours that are both
free, and `mergeAll` makes a list compact without moving a live block.
-/

namespace VibeOS

open List Function

/-- A block: the size of its payload and whether it is free. -/
structure Blk where
  size : Nat
  free : Bool
  deriving DecidableEq

namespace Blk

def extent (hdr : Nat) : List Blk → Nat
  | [] => 0
  | b :: l => hdr + b.size + extent hdr l

def spans (hdr : Nat) : Nat → List Blk → List (Nat × Blk)
  | _, [] => []
  | a, b :: l => (a, b) :: spans hdr (a + hdr + b.size) l

def liveSum : List Blk → Nat
  | [] => 0
  | b :: l => (if b.free then 0 else b.size) + liveSum l

def Compact : List Blk → Prop
  | b :: c :: l => ¬ (b.free = true ∧ c.free = true) ∧ Compact (c :: l)
  | _ => True

def mergeAll (hdr : Nat) : List Blk → List Blk
  | b :: c :: l =>
    if b.free ∧ c.free then mergeAll hdr (⟨b.size + hdr + c.size, true⟩ :: l)
    else b :: mergeAll hdr (c :: l)
  | l => l
  termination_by l => l.length

variable {hdr a x : Nat} {b c : Blk} {l l1 l2 : List Blk}

/-! ### Addresses -/

@[simp] lemma extent_append : extent hdr (l1 ++ l2) = extent hdr l1 + extent hdr l2 := by
  induction l1 with
  | nil => simp [extent]
  | cons b l1 ih =>
    rw [cons_append, extent, ih, extent]
    omega

@[simp] lemma spans_append : spans hdr a (l1 ++ l2) = spans hdr a l1 ++ spans hdr (a + extent hdr l1) l2 := by
  induction l1 generalizing a with
  | nil => simp [spans, extent]
  | cons b l1 ih =>
    rw [cons_append, spans, ih, spans, extent, cons_append]
    congr 3
    omega

@[simp] lemma liveSum_append : liveSum (l1 ++ l2) = liveSum l1 + liveSum l2 := by
  induction l1 with
  | nil => simp [liveSum]
  | cons b l1 ih =>
    rw [cons_append, liveSum, ih, liveSum]
    omega

lemma liveSum_of_free (h : ∀ d ∈ l, d.free) : liveSum l = 0 := by
  induction l with
  | nil => rfl
  | cons d l ih => rw [liveSum, h d (by simp), if_pos rfl, ih fun e he => h e (by simp [he])]

lemma liveSum_le_extent (hdr : Nat) (l : List Blk) : liveSum l ≤ extent hdr l := by
  induction l with
  | nil => simp [liveSum]
  | cons d l ih =>
    rw [liveSum, extent]
    split_ifs <;> omega

lemma bounds_of_mem (h : (x, b) ∈ spans hdr a l) : a ≤ x ∧ x + hdr + b.size ≤ a + extent hdr l := by
  induction l generalizing a with
  | nil => cases h
  | cons c l ih =>
    rcases mem_cons.mp h with heq | h
    · obtain ⟨rfl, rfl⟩ := Prod.mk.inj heq
      rw [extent]
      omega
    · have := ih h
      rw [extent]
      omega

lemma split_of_mem (h : (x, b) ∈ spans hdr a l) : ∃ l1 l2, l = l1 ++ b :: l2 ∧ x = a + extent hdr l1 := by
  induction l generalizing a with
  | nil => cases h
  | cons c l ih =>
    rcases mem_cons.mp h with heq | h
    · obtain ⟨rfl, rfl⟩ := Prod.mk.inj heq
      exact ⟨[], l, rfl, rfl⟩
    · obtain ⟨l1, l2, rfl, rfl⟩ := ih h
      exact ⟨c :: l1, l2, rfl, by rw [extent]; omega⟩

lemma mem_spans_split : (a + extent hdr l1, b) ∈ spans hdr a (l1 ++ b :: l2) := by
  rw [spans_append, spans]
  simp

lemma disjoint_of_mem {y : Nat} (hx : (x, b) ∈ spans hdr a l) (hy : (y, c) ∈ spans hdr a l)
    (hne : x ≠ y) : x + hdr + b.size ≤ y ∨ y + hdr + c.size ≤ x := by
  obtain ⟨l1, l2, rfl, rfl⟩ := split_of_mem hx
  rw [spans_append, mem_append, spans] at hy
  rcases hy with hy | hy
  · exact .inr (bounds_of_mem hy).2
  · rcases mem_cons.mp hy with heq | hy
    · exact absurd (Prod.mk.inj heq).1.symm hne
    · exact .inl (bounds_of_mem hy).1

lemma eq_of_mem (hpos : 0 < hdr) (hx : (x, b) ∈ spans hdr a l) (hy : (x, c) ∈ spans hdr a l) : b = c := by
  obtain ⟨l1, l2, rfl, rfl⟩ := split_of_mem hx
  rw [spans_append, mem_append, spans] at hy
  rcases hy with hy | hy
  · have := bounds_of_mem hy
    omega
  · rcases mem_cons.mp hy with heq | hy
    · exact (Prod.mk.inj heq).2.symm
    · have := bounds_of_mem hy
      omega

/-! ### Merging -/

lemma mergeAll_cons_cons : mergeAll hdr (b :: c :: l) =
    if b.free ∧ c.free then mergeAll hdr (⟨b.size + hdr + c.size, true⟩ :: l) else b :: mergeAll hdr (c :: l) := by
  rw [mergeAll]

@[simp] lemma mergeAll_single : mergeAll hdr [b] = [b] := by
  rw [mergeAll]
  intro _ _ _ h
  cases h

lemma mergeAll_head (hdr : Nat) (b : Blk) (l : List Blk) :
    ∃ c l', mergeAll hdr (b :: l) = c :: l' ∧ c.free = b.free := by
  induction l generalizing b with
  | nil => exact ⟨b, [], mergeAll_single, rfl⟩
  | cons c l ih =>
    rw [mergeAll_cons_cons]
    split_ifs with hf
    · obtain ⟨d, l', h, hd⟩ := ih ⟨b.size + hdr + c.size, true⟩
      exact ⟨d, l', h, by rw [hd, hf.1]⟩
    · exact ⟨b, _, rfl, rfl⟩

lemma compact_mergeAll (b : Blk) (l : List Blk) : Compact (mergeAll hdr (b :: l)) := by
  induction l generalizing b with
  | nil =>
    rw [mergeAll_single]
    trivial
  | cons c l ih =>
    rw [mergeAll_cons_cons]
    split_ifs with hf
    · exact ih _
    · obtain ⟨d, l', h, hd⟩ := mergeAll_head hdr c l
      have hc := ih c
      rw [h] at hc ⊢
      exact ⟨by rw [hd]; exact hf, hc⟩

lemma extent_mergeAll (b : Blk) (l : List Blk) : extent hdr (mergeAll hdr (b :: l)) = extent hdr (b :: l) := by
  induction l generalizing b with
  | nil => rw [mergeAll_single]
  | cons c l ih =>
    rw [mergeAll_cons_cons]
    split_ifs with hf
    · rw [ih]
      simp only [extent]
      omega
    · rw [extent, ih]
      rfl

lemma liveSum_mergeAll (b : Blk) (l : List Blk) : liveSum (mergeAll hdr (b :: l)) = liveSum (b :: l) := by
  induction l generalizing b with
  | nil => rw [mergeAll_single]
  | cons c l ih =>
    rw [mergeAll_cons_cons]
    split_ifs with hf
    · rw [ih]
      simp [liveSum, hf.1, hf.2]
    · rw [liveSum, ih]
      rfl

lemma addr_mergeAll (b : Blk) (l : List Blk) (h : x ∈ (spans hdr a (mergeAll hdr (b :: l))).map Prod.fst) :
    x ∈ (spans hdr a (b :: l)).map Prod.fst := by
  induction l generalizing a b with
  | nil =>
    rw [mergeAll_single] at h
    exact h
  | cons c l ih =>
    rw [mergeAll_cons_cons] at h
    split_ifs at h with hf
    · have := ih _ h
      simp only [spans, map_cons, mem_cons] at this ⊢
      rcases this with hx | hx
      · exact .inl hx
      · right; right
        rwa [show a + hdr + (b.size + hdr + c.size) = a + hdr + b.size + hdr + c.size by omega] at hx
    · rw [spans, map_cons, mem_cons] at h
      rw [spans, map_cons, mem_cons]
      exact h.imp id fun h => ih _ h

lemma live_mergeAll {d : Blk} (hd : d.free = false) (b : Blk) (l : List Blk) :
    (x, d) ∈ spans hdr a (mergeAll hdr (b :: l)) ↔ (x, d) ∈ spans hdr a (b :: l) := by
  induction l generalizing a b with
  | nil => rw [mergeAll_single]
  | cons c l ih =>
    rw [mergeAll_cons_cons]
    split_ifs with hf
    · have hb : d ≠ b := fun h => by rw [h, hf.1] at hd; cases hd
      have hc : d ≠ c := fun h => by rw [h, hf.2] at hd; cases hd
      have hm : d ≠ ⟨b.size + hdr + c.size, true⟩ := fun h => by rw [h] at hd; cases hd
      rw [ih]
      simp only [spans, mem_cons, Prod.mk.injEq, hb, hc, hm, and_false, false_or]
      rw [show a + hdr + (b.size + hdr + c.size) = a + hdr + b.size + hdr + c.size by omega]
    · rw [spans, mem_cons, ih]
      exact mem_cons.symm

lemma single_of_free (hc : Compact (b :: l)) (hfree : ∀ d ∈ b :: l, d.free) : l = [] := by
  cases l with
  | nil => rfl
  | cons c l => exact absurd ⟨hfree b (by simp), hfree c (by simp)⟩ hc.1

lemma compact_append_cons : Compact (l1 ++ b :: l2) ↔ Compact (l1 ++ [b]) ∧ Compact (b :: l2) := by
  induction l1 with
  | nil => simp [Compact]
  | cons c l1 ih =>
    cases l1 with
    | nil => simp [Compact]
    | cons d l1 =>
      simp only [cons_append, Compact] at ih ⊢
      rw [ih, and_assoc]

lemma compact_cons_live (hb : b.free = false) : Compact (b :: l) ↔ Compact l := by
  cases l with
  | nil => simp [Compact]
  | cons c l => simp [Compact, hb]

lemma compact_concat_live (hb : b.free = false) : Compact (l ++ [b]) ↔ Compact l := by
  induction l with
  | nil => simp [Compact]
  | cons c l ih =>
    cases l with
    | nil => simp [Compact, hb]
    | cons d l =>
      simp only [cons_append, Compact] at ih ⊢
      rw [ih]

lemma compact_cons_congr (h : b.free = c.free) : Compact (b :: l) ↔ Compact (c :: l) := by
  cases l with
  | nil => simp [Compact]
  | cons d l => simp [Compact, h]

lemma compact_concat_congr (h : b.free = c.free) : Compact (l ++ [b]) ↔ Compact (l ++ [c]) := by
  induction l with
  | nil => simp [Compact]
  | cons d l ih =>
    cases l with
    | nil => simp [Compact, h]
    | cons e l =>
      simp only [cons_append, Compact] at ih ⊢
      rw [ih]

lemma Compact.left (h : Compact (l1 ++ [b])) : Compact l1 := by
  induction l1 with
  | nil => trivial
  | cons c l1 ih =>
    cases l1 with
    | nil => trivial
    | cons d l1 => exact ⟨h.1, ih h.2⟩

lemma Compact.tail (h : Compact (b :: l)) : Compact l := by
  cases l with
  | nil => trivial
  | cons c l => exact h.2

/-- A block of a compact list may become live, followed by a free rest if it was free. -/
lemma Compact.take (h : Compact (l1 ++ b :: l2)) (hb : b.free) (n : Nat) {r : List Blk}
    (hr : r = [] ∨ ∃ m, r = [⟨m, true⟩]) : Compact (l1 ++ ⟨n, false⟩ :: (r ++ l2)) := by
  obtain ⟨hl, hright⟩ := compact_append_cons.mp h
  refine compact_append_cons.mpr ⟨(compact_concat_live rfl).mpr hl.left, (compact_cons_live rfl).mpr ?_⟩
  rcases hr with rfl | ⟨m, rfl⟩
  · exact hright.tail
  · exact (compact_cons_congr (b := b) (c := ⟨m, true⟩) hb).mp hright

/-! ### Live allocations -/

/-- `live` maps the payload address of every block in use to the size that was asked for. -/
structure Tracks (hdr a : Nat) (l : List Blk) (live : Nat → Option Nat) : Prop where
  block : ∀ p n, live p = some n → ∃ x d, (x, d) ∈ spans hdr a l ∧ d.free = false ∧ p = x + hdr ∧ n ≤ d.size
  live : ∀ x d, (x, d) ∈ spans hdr a l → d.free = false → ∃ n, live (x + hdr) = some n

section tracks

variable {live : Nat → Option Nat} {n s : Nat} {r : List Blk}

lemma spans_replace {m : List Blk} (hm : extent hdr m = hdr + b.size) :
    spans hdr a (l1 ++ m ++ l2) = spans hdr a l1 ++ spans hdr (a + extent hdr l1) m ++
      spans hdr (a + extent hdr l1 + hdr + b.size) l2 := by
  rw [spans_append, spans_append, extent_append, hm,
    show a + (extent hdr l1 + (hdr + b.size)) = a + extent hdr l1 + hdr + b.size by omega]

lemma Tracks.disjoint (h : Tracks hdr a l live) {p q m : Nat} (hp : live p = some n)
    (hq : live q = some m) (hne : p ≠ q) : p + n ≤ q ∨ q + m ≤ p := by
  obtain ⟨x, d, hx, -, rfl, hn⟩ := h.block p n hp
  obtain ⟨y, e, hy, -, rfl, hm⟩ := h.block q m hq
  have := disjoint_of_mem hx hy (by omega)
  omega

lemma Tracks.congr {l' : List Blk} (h : Tracks hdr a l live)
    (hl : ∀ x d, d.free = false → ((x, d) ∈ spans hdr a l' ↔ (x, d) ∈ spans hdr a l)) : Tracks hdr a l' live where
  block p n hp := by
    obtain ⟨x, d, hx, hd, hpx, hn⟩ := h.block p n hp
    exact ⟨x, d, (hl x d hd).mpr hx, hd, hpx, hn⟩
  live x d hx hd := h.live x d ((hl x d hd).mp hx) hd

lemma Tracks.resize (h : Tracks hdr a l live) (hx : (x, b) ∈ spans hdr a l)
    (hb : b.free = false) (hn : n ≤ b.size) : Tracks hdr a l (update live (x + hdr) (some n)) where
  block q k hq := by
    by_cases hqx : q = x + hdr
    · rw [hqx, update_self] at hq
      cases hq
      exact ⟨x, b, hx, hb, hqx, hn⟩
    · rw [update_of_ne hqx] at hq
      exact h.block q k hq
  live y d hy hd := by
    by_cases hyx : y + hdr = x + hdr
    · exact ⟨n, by rw [hyx, update_self]⟩
    · rw [update_of_ne hyx]
      exact h.live y d hy hd

lemma Tracks.merge_pair {t : Nat} (h : Tracks hdr a (l1 ++ ⟨s, true⟩ :: ⟨t, true⟩ :: l2) live) :
    Tracks hdr a (l1 ++ ⟨s + (hdr + t), true⟩ :: l2) live := by
  refine h.congr fun x d hd => ?_
  have h1 : ∀ y m, (x, d) ≠ (y, ⟨m, true⟩) := fun y m heq => by
    cases heq
    cases hd
  simp only [spans_append, spans, mem_append, mem_cons, h1, false_or]
  rw [show a + extent hdr l1 + hdr + (s + (hdr + t)) = a + extent hdr l1 + hdr + s + hdr + t by omega]

lemma Tracks.concat_free (h : Tracks hdr a l live) : Tracks hdr a (l ++ [⟨s, true⟩]) live := by
  refine h.congr fun x d hd => ?_
  have h1 : ∀ y, (x, d) ≠ (y, ⟨s, true⟩) := fun y heq => by
    cases heq
    cases hd
  simp [spans, h1]

lemma Tracks.mergeAll (h : Tracks hdr a (b :: l) live) : Tracks hdr a (mergeAll hdr (b :: l)) live :=
  h.congr fun _ _ hd => live_mergeAll hd b l

lemma Tracks.take (h : Tracks hdr a (l1 ++ b :: l2) live) (hb : b.free)
    (hr : ∀ d ∈ r, d.free) (hm : extent hdr (⟨s, false⟩ :: r) = hdr + b.size) (hn : n ≤ s) :
    Tracks hdr a (l1 ++ ⟨s, false⟩ :: r ++ l2) (update live (a + extent hdr l1 + hdr) (some n)) := by
  have hspans : spans hdr a (l1 ++ ⟨s, false⟩ :: r ++ l2) = spans hdr a l1 ++ spans hdr (a + extent hdr l1) (⟨s, false⟩
      :: r) ++ spans hdr (a + extent hdr l1 + hdr + b.size) l2 := spans_replace hm
  have hold : spans hdr a (l1 ++ b :: l2) = spans hdr a l1 ++ (a + extent hdr l1, b) ::
      spans hdr (a + extent hdr l1 + hdr + b.size) l2 := by
    rw [spans_append, spans]
  -- the live blocks are the old ones and the one just taken
  have hmem : ∀ x d, d.free = false → ((x, d) ∈ spans hdr a (l1 ++ ⟨s, false⟩ :: r ++ l2) ↔
      (x, d) ∈ spans hdr a (l1 ++ b :: l2) ∨ x = a + extent hdr l1 ∧ d = ⟨s, false⟩) := by
    intro x d hd
    have hdb : d ≠ b := fun heq => by
      rw [heq, hb] at hd
      cases hd
    have hdr : ∀ y, (x, d) ∉ spans hdr y r := fun y hy => by
      obtain ⟨r1, r2, rfl, -⟩ := split_of_mem hy
      rw [hr d (by simp)] at hd
      cases hd
    rw [hspans, hold]
    simp only [spans, mem_append, mem_cons, Prod.mk.injEq, hdb, and_false, false_or, hdr, or_false]
    tauto
  constructor
  · intro p m hp
    by_cases hpe : p = a + extent hdr l1 + hdr
    · rw [hpe, update_self, Option.some.injEq] at hp
      exact ⟨_, _, (hmem _ _ rfl).mpr (.inr ⟨rfl, rfl⟩), rfl, hpe, hp ▸ hn⟩
    · rw [update_of_ne hpe] at hp
      obtain ⟨x, d, hx, hd, hpx, hm'⟩ := h.block p m hp
      exact ⟨x, d, (hmem x d hd).mpr (.inl hx), hd, hpx, hm'⟩
  · intro x d hx hd
    by_cases hpe : x + hdr = a + extent hdr l1 + hdr
    · rw [hpe, update_self]
      exact ⟨n, rfl⟩
    · rw [update_of_ne hpe]
      rcases (hmem x d hd).mp hx with hx | hx
      · exact h.live x d hx hd
      · omega

lemma Tracks.release (hpos : 0 < hdr) (h : Tracks hdr a (l1 ++ b :: l2) live) :
    Tracks hdr a (l1 ++ ⟨b.size, true⟩ :: l2) (update live (a + extent hdr l1 + hdr) none) := by
  have hmem : ∀ x d, d.free = false → ((x, d) ∈ spans hdr a (l1 ++ ⟨b.size, true⟩ :: l2) ↔
      (x, d) ∈ spans hdr a (l1 ++ b :: l2) ∧ x ≠ a + extent hdr l1) := by
    intro x d hd
    have hdb : d ≠ ⟨b.size, true⟩ := fun heq => by
      rw [heq] at hd
      cases hd
    have h1 : (x, d) ∈ spans hdr a l1 → x ≠ a + extent hdr l1 := fun hx => by
      have := bounds_of_mem hx
      omega
    have h2 : (x, d) ∈ spans hdr (a + extent hdr l1 + hdr + b.size) l2 → x ≠ a + extent hdr l1 :=
      fun hx => by
        have := bounds_of_mem hx
        omega
    simp only [spans_append, spans, mem_append, mem_cons, Prod.mk.injEq, hdb, and_false, false_or]
    tauto
  constructor
  · intro p m hp
    have hpe : p ≠ a + extent hdr l1 + hdr := fun hpe => by
      rw [hpe, update_self] at hp
      cases hp
    rw [update_of_ne hpe] at hp
    obtain ⟨x, d, hx, hd, hpx, hm⟩ := h.block p m hp
    exact ⟨x, d, (hmem x d hd).mpr ⟨hx, by omega⟩, hd, hpx, hm⟩
  · intro x d hx hd
    obtain ⟨hx, hne⟩ := (hmem x d hd).mp hx
    rw [update_of_ne (by omega)]
    exact h.live x d hx hd

lemma Tracks.free_of_none (h : Tracks hdr a l live) (hnone : ∀ p, live p = none) : ∀ d ∈ l, d.free = true := by
  intro d hd
  obtain ⟨l1, l2, rfl⟩ := append_of_mem hd
  by_contra hf
  obtain ⟨n, hn⟩ := h.live _ d mem_spans_split (by simpa using hf)
  rw [hnone] at hn
  cases hn

end tracks

end Blk

end VibeOS
