import VibeOS.Kernel.Alloc

/-!
# Runs of the kernel heaps

A run of a heap is a sequence of allocations, frees and stores of its clients, with the live
allocations and the sizes asked for beside it. The main heap and the graphics and image heaps differ in
their counter, in the width of the rounding and in what a bad block means for the search; what a run
keeps is stated once over `Allocator`. The result is `run_heap_invariant`.
-/

namespace VibeOS

open Buf Blk List Option Function

/-- The entry points of a kind of heap; `limit` bounds the sizes for which the rounding does not
overflow. -/
structure Allocator (H : Type) where
  alloc : H → Nat → Option (Nat × H)
  free : H → Nat → Option H
  kheap : H → Kheap
  store : H → Nat → UInt8 → H
  limit : Nat

def Kheap.store (h : Kheap) (a : Nat) (v : UInt8) : Kheap :=
  { h with mem := update h.mem a v }

def kmallocHeap : Allocator KmallocHeap where
  alloc := kmalloc
  free := kfree
  kheap := KmallocHeap.heap
  store k a v := { k with heap := k.heap.store a v }
  limit := 2 ^ 64 - 7

def imageHeap : Allocator Kheap where
  alloc := kheapAlloc
  free := kheapFree
  kheap h := h
  store := Kheap.store
  limit := 2 ^ 32 - 8

/-- A heap with the live pointers and the sizes their clients asked for. -/
structure HeapRun (H : Type) where
  heap : H
  live : Nat → Option Nat

/-- Calls of the allocator, and stores of its users into what they hold. -/
inductive HeapOp where
  | alloc (n : Nat)
  | free (p : Nat)
  | store (a : Nat) (v : UInt8)

section runs

variable {H : Type} (A : Allocator H)

def HeapRun.step (s : HeapRun H) : HeapOp → Option (HeapRun H)
  | .alloc n => (A.alloc s.heap n).map fun r =>
    ⟨r.2, if r.1 = 0 then s.live else update s.live r.1 (some n)⟩
  | .free p => (A.free s.heap p).map fun h => ⟨h, update s.live p none⟩
  | .store a v => some { s with heap := A.store s.heap a v }

/-- A run stops where a loop does not end. -/
def HeapRun.next (s : Option (HeapRun H)) (op : HeapOp) : Option (HeapRun H) :=
  s.bind fun s => s.step A op

/-- What a client may do: ask for a size whose rounding does not overflow, free the null pointer, a
live pointer or one whose header says that it is free, and store into a live payload. -/
def HeapOp.Fair (s : HeapRun H) : HeapOp → Prop
  | .alloc n => n < A.limit
  | .free p => p = 0 ∨ (s.live p).isSome ∨ (headerAt (A.kheap s.heap).mem (blockOfPtr p)).isFree
  | .store a _ => ∃ p ≤ a, ∃ n ∈ s.live p, a < p + n

instance HeapOp.instDecidableFair (s : HeapRun H) (op : HeapOp) : Decidable (op.Fair A s) := by
  cases op <;> unfold HeapOp.Fair <;> infer_instance

end runs

/-- The blocks of a heap and the allocations agree. -/
structure HeapInv (base size : Nat) (h : Kheap) (live : Nat → Option Nat) (l : List Blk) : Prop where
  ok : KheapOk h l
  tracks : Tracks 24 base l live
  base : h.base = base
  size : h.size = size

section steps

variable {base size p n : Nat} {k : KmallocHeap} {h : Kheap} {live : Nat → Option Nat} {l : List Blk}

lemma HeapInv.init (mem : Buf) (hlo : 8 ≤ base) (hsize : 24 ≤ size) (hhi : base + size < 2 ^ 64) :
    HeapInv base size (kheapInit mem base size) (fun _ => none) [⟨size - 24, true⟩] := by
  refine ⟨kheapOk_init mem ⟨hlo, hhi⟩ hsize, ⟨fun p n hp => (nomatch hp), ?_⟩, rfl, rfl⟩
  intro x d hx hd
  rw [spans, spans, mem_singleton] at hx
  cases hx
  cases hd

lemma HeapInv.ne_zero (hi : HeapInv base size h live l) : live 0 = none := by
  rcases hl : live 0 with _ | n
  · rfl
  · obtain ⟨x, d, -, -, hx, -⟩ := hi.tracks.block 0 n hl
    omega

lemma HeapInv.store (hi : HeapInv base size h live l) {a : Nat} (hp : live p = some n)
    (ha : p ≤ a ∧ a < p + n) (v : UInt8) : HeapInv base size (h.store a v) live l := by
  obtain ⟨x, d, hx, -, rfl, hn⟩ := hi.tracks.block p n hp
  refine ⟨{ hi.ok with valid := ⟨hi.ok.valid.lo, hi.ok.valid.hi⟩, links := ?_ }, hi.tracks, hi.base, hi.size⟩
  refine hi.ok.links.of_headers fun y e hy => headerAt_congr fun i h1 h2 => ?_
  -- the byte lies in the payload of `d`, and no header lies there
  have hia : i ≠ a := by
    rw [hi.base] at hy
    by_cases hxy : x = y
    · omega
    · have := disjoint_of_mem hx hy hxy
      omega
  exact update_of_ne hia _ _

lemma kmalloc_spec (hi : HeapInv base size k.heap live l) (hused : k.used = liveSum l) (hn : n < 2 ^ 64 - 7) :
    ∃ p k' l', kmalloc k n = some (p, k') ∧ k'.used = liveSum l' ∧
      HeapInv base size k'.heap (if p = 0 then live else update live p (some n)) l' := by
  have hround : n ≤ (n + 7) % 2 ^ 64 / 8 * 8 := by omega
  have ht := hi.tracks
  rw [← hi.base] at ht
  rcases hi.ok.fit ht (fun curr => curr) (Dvd.intro_left _ rfl) hround with
    hnone | ⟨curr, l', hsome, hcurr, hptr, hok, ht', hsum⟩
  · refine ⟨0, k, l, ?_, hused, by rw [if_pos rfl]; exact hi⟩
    rw [kmalloc, hnone]
    rfl
  · have hle := liveSum_le_extent 24 l'
    have hhi := hok.valid.hi
    rw [hok.tiles] at hle
    refine ⟨curr + 24, ⟨carve k.heap curr ((n + 7) % 2 ^ 64 / 8 * 8), liveSum l'⟩, l', ?_, rfl, ?_⟩
    · rw [kmalloc, hsome, map_some, if_neg hcurr, hptr]
      dsimp only
      rw [hused, ← hsum, Nat.mod_eq_of_lt (a := liveSum l') (by omega)]
    · exact ⟨hok, by rw [← hi.base]; exact ht', hi.base, hi.size⟩

lemma kheapAlloc_spec (hi : HeapInv base size h live l) (hn : n + 7 < 2 ^ 32) :
    ∃ p h' l', kheapAlloc h n = some (p, h') ∧
      HeapInv base size h' (if p = 0 then live else update live p (some n)) l' := by
  have hround : n ≤ (n + 7) % 2 ^ 32 / 8 * 8 := by omega
  have hlo := hi.ok.valid.lo
  have hstart := hi.ok.start
  have ht := hi.tracks
  rw [← hi.base] at ht
  rcases hi.ok.fit ht (fun _ => 0) (Dvd.intro_left _ rfl) hround with
    hnone | ⟨curr, l', hsome, hcurr, hptr, hok, ht', -⟩
  · refine ⟨0, h, l, ?_, by rw [if_pos rfl]; exact hi⟩
    rw [kheapAlloc, if_neg (by omega)]
    dsimp only
    rw [hnone]
    rfl
  · refine ⟨curr + 24, carve h curr ((n + 7) % 2 ^ 32 / 8 * 8), l', ?_, ?_⟩
    · rw [kheapAlloc, if_neg (by omega)]
      dsimp only
      rw [hsome, map_some, if_neg hcurr, hptr]
    · exact ⟨hok, by rw [← hi.base]; exact ht', hi.base, hi.size⟩

lemma kfree_of_free (hp : p = 0 ∨ (headerAt k.heap.mem (blockOfPtr p)).isFree) : kfree k p = some k := by
  rw [kfree]
  rcases hp with hp | hp
  · rw [if_pos hp]
  · rw [if_pos hp, ite_self, ite_self]

lemma kheapFree_of_free (hp : p = 0 ∨ (headerAt h.mem (blockOfPtr p)).isFree) : kheapFree h p = some h := by
  rw [kheapFree]
  rcases hp with hp | hp
  · rw [if_pos hp]
  · rw [if_pos (Or.inr hp), ite_self]

lemma HeapInv.free (hi : HeapInv base size h live l) (hp : live p = some n) :
    p ≠ 0 ∧ blockInHeap h (blockOfPtr p) ∧ (headerAt h.mem (blockOfPtr p)).isFree = false ∧
    ∃ h' l', coalesce { h with mem := setFree h.mem (blockOfPtr p) true } h.fuel h.start = some h' ∧
      HeapInv base size h' (update live p none) l' ∧
      liveSum l = liveSum l' + (headerAt h.mem (blockOfPtr p)).size := by
  have ht := hi.tracks
  rw [← hi.base] at ht
  obtain ⟨l1, b, l2, rfl, hb, hpx, hptr, hin, hhead⟩ := hi.ok.block ht hp
  obtain ⟨h', l', hrun, hbase, hsize, hok, ht', hsum⟩ := hi.ok.free ht
  refine ⟨by omega, hin, by rw [hhead], h', l', by rw [hptr]; exact hrun, ?_, ?_⟩
  · refine ⟨hok, ?_, hbase.trans hi.base, hsize.trans hi.size⟩
    rw [hpx, ← hi.base]
    exact ht'
  · rw [hhead, hsum]
    simp only [liveSum_append, liveSum, hb, if_true, Bool.false_eq_true, if_false]
    omega

lemma HeapInv.update_none (hi : HeapInv base size h live l)
    (hp : p = 0 ∨ (headerAt h.mem (blockOfPtr p)).isFree) : update live p none = live := by
  refine update_eq_self_iff.mpr ?_
  rcases hp with rfl | hp
  · exact hi.ne_zero.symm
  · rcases hl : live p with _ | n
    · rfl
    · rw [(hi.free hl).2.2.1] at hp
      cases hp

lemma kfree_spec (hi : HeapInv base size k.heap live l) (hused : k.used = liveSum l)
    (hp : p = 0 ∨ (live p).isSome ∨ (headerAt k.heap.mem (blockOfPtr p)).isFree) :
    ∃ k' l', kfree k p = some k' ∧ k'.used = liveSum l' ∧ HeapInv base size k'.heap (update live p none) l' := by
  by_cases hfree : p = 0 ∨ (headerAt k.heap.mem (blockOfPtr p)).isFree
  · exact ⟨k, l, kfree_of_free hfree, hused, by rw [hi.update_none hfree]; exact hi⟩
  · obtain ⟨n, hn⟩ := isSome_iff_exists.mp (by tauto)
    obtain ⟨hp0, hin, hf, h', l', hrun, hi', hsum⟩ := hi.free hn
    refine ⟨⟨h', liveSum l'⟩, l', ?_, rfl, hi'⟩
    rw [kfree, if_neg hp0, if_neg (by rw [hin]; simp), if_neg (by rw [hf]; simp), hrun,
      map_some, if_pos (by omega), hused, hsum, Nat.add_sub_cancel]

lemma kheapFree_spec (hi : HeapInv base size h live l)
    (hp : p = 0 ∨ (live p).isSome ∨ (headerAt h.mem (blockOfPtr p)).isFree) :
    ∃ h' l', kheapFree h p = some h' ∧ HeapInv base size h' (update live p none) l' := by
  by_cases hfree : p = 0 ∨ (headerAt h.mem (blockOfPtr p)).isFree
  · exact ⟨h, l, kheapFree_of_free hfree, by rw [hi.update_none hfree]; exact hi⟩
  · obtain ⟨n, hn⟩ := isSome_iff_exists.mp (by tauto)
    obtain ⟨hp0, hin, hf, h', l', hrun, hi', -⟩ := hi.free hn
    refine ⟨h', l', ?_, hi'⟩
    rw [kheapFree, if_neg hp0, if_neg (by rw [hin, hf]; simp), hrun]

end steps

/-! ### Whole runs -/

/-- The blocks on the list from an address, up to the null pointer. -/
def visit (mem : Buf) : (fuel curr : Nat) → List (Nat × Blk)
  | 0, _ => []
  | fuel + 1, curr =>
    if curr = 0 then []
    else (curr, ⟨(headerAt mem curr).size, (headerAt mem curr).isFree⟩) :: visit mem fuel (headerAt mem curr).next

lemma Links.visit {mem : Buf} {a fuel : Nat} {b : Blk} {l : List Blk}
    (h : Links mem a (b :: l) 0) (ha : 0 < a) (hfuel : l.length + 1 < fuel) :
    VibeOS.visit mem fuel a = spans 24 a (b :: l) := by
  induction l generalizing a b fuel with
  | nil =>
    obtain ⟨fuel, rfl⟩ : ∃ k, fuel = k + 2 := ⟨fuel - 2, by simp at hfuel; omega⟩
    have hhead : headerAt mem a = ⟨b.size, 0, b.free⟩ := h.1
    rw [VibeOS.visit, if_neg (by omega), hhead, VibeOS.visit, if_pos rfl, spans, spans]
  | cons c l ih =>
    rw [length_cons] at hfuel
    obtain ⟨fuel, rfl⟩ : ∃ k, fuel = k + 1 := ⟨fuel - 1, by omega⟩
    have hhead : headerAt mem a = ⟨b.size, a + 24 + b.size, b.free⟩ := h.1
    rw [VibeOS.visit, if_neg (by omega), hhead, spans, ih h.2 (by omega) (by omega)]

/-- What holds of a heap: the list from its start visits the blocks in address order, they tile it, live
payloads are disjoint, aligned and as large as asked for, a block in use holds a live payload, no two
neighbours are free, and a heap with no live allocation is one free block. -/
structure HeapSound (base size : Nat) (h : Kheap) (live : Nat → Option Nat) (l : List Blk) : Prop where
  start : h.start = base
  visits : visit h.mem (size + 1) h.start = spans 24 base l
  tiles : extent 24 l = size
  disjoint : ∀ p n q m, live p = some n → live q = some m → p ≠ q → p + n ≤ q ∨ q + m ≤ p
  block : ∀ p n, live p = some n → 8 ∣ p - base ∧ ∃ d, (p - 24, d) ∈ spans 24 base l ∧ d.free = false ∧ n ≤ d.size
  used_live : ∀ x d, (x, d) ∈ spans 24 base l → d.free = false → ∃ n, live (x + 24) = some n
  compact : Compact l
  whole : (∀ p, live p = none) → l = [⟨size - 24, true⟩]

lemma HeapInv.sound {base size : Nat} {h : Kheap} {live : Nat → Option Nat} {l : List Blk}
    (hi : HeapInv base size h live l) : HeapSound base size h live l where
  start := hi.ok.start.trans hi.base
  visits := by
    have hlo := hi.ok.valid.lo
    have hfuel := hi.ok.fuel
    have hlinks := hi.ok.links
    rcases l with _ | ⟨b, l⟩
    · exact absurd rfl hi.ok.nonempty
    · rw [hi.ok.start, ← hi.base, ← hi.size]
      exact hlinks.visit (by omega) hfuel
  tiles := hi.ok.tiles.trans hi.size
  disjoint _ _ _ _ hp hq hne := hi.tracks.disjoint hp hq hne
  block p n hp := by
    obtain ⟨x, d, hx, hd, rfl, hn⟩ := hi.tracks.block p n hp
    have hal := hi.ok.aligned
    rw [hi.base] at hal
    have hx8 := hal x (List.mem_map_of_mem hx)
    have hle := (bounds_of_mem hx).1
    refine ⟨?_, d, hx, hd, hn⟩
    rw [show x + 24 - base = x - base + 24 by omega]
    exact Nat.dvd_add hx8 (by decide)
  used_live := hi.tracks.live
  compact := hi.ok.compact
  whole hnone := by
    have hfree := hi.tracks.free_of_none hnone
    have htiles := hi.ok.tiles
    have hcompact := hi.ok.compact
    rcases l with _ | ⟨b, l⟩
    · exact absurd rfl hi.ok.nonempty
    · obtain rfl := single_of_free hcompact hfree
      obtain ⟨s, f⟩ := b
      obtain rfl : f = true := hfree _ (mem_singleton_self _)
      rw [extent, extent, hi.size] at htiles
      rw [← htiles]
      simp

section runs

variable {s : HeapRun Kheap} {base size p n : Nat} {k : KmallocHeap} {l : List Blk}

lemma kmalloc_step {s : HeapRun KmallocHeap} {op : HeapOp}
    (hi : HeapInv base size s.heap.heap s.live l) (hused : s.heap.used = liveSum l) (hop : op.Fair kmallocHeap s) :
    ∃ t l', s.step kmallocHeap op = some t ∧ HeapInv base size t.heap.heap t.live l' ∧ t.heap.used = liveSum l' := by
  cases op with
  | alloc n =>
    obtain ⟨p, k, l', hk, hsum, hi'⟩ := kmalloc_spec hi hused hop
    exact ⟨_, l', map_eq_some_iff.mpr ⟨_, hk, rfl⟩, hi', hsum⟩
  | free p =>
    obtain ⟨k, l', hk, hsum, hi'⟩ := kfree_spec hi hused hop
    exact ⟨_, l', map_eq_some_iff.mpr ⟨_, hk, rfl⟩, hi', hsum⟩
  | store a v =>
    obtain ⟨p, hpa, n, hp, ha⟩ := hop
    exact ⟨_, l, rfl, hi.store hp ⟨hpa, ha⟩ v, hused⟩

/-- What a client of the graphics and image heaps may do, up to the last size whose rounding keeps 32 bits. -/
def HeapOp.Sized (s : HeapRun Kheap) : HeapOp → Prop
  | .alloc n => n + 7 < 2 ^ 32
  | op => op.Fair imageHeap s

lemma HeapOp.Fair.sized {op : HeapOp} (h : op.Fair imageHeap s) : op.Sized s := by
  cases op with
  | alloc n =>
    have h : n < 2 ^ 32 - 8 := h
    show n + 7 < 2 ^ 32
    omega
  | free p => exact h
  | store a v => exact h

lemma kheap_step {op : HeapOp} (hi : HeapInv base size s.heap s.live l) (hop : op.Sized s) :
    ∃ t l', s.step imageHeap op = some t ∧ HeapInv base size t.heap t.live l' := by
  cases op with
  | alloc n =>
    obtain ⟨p, k, l', hk, hi'⟩ := kheapAlloc_spec hi hop
    exact ⟨_, l', map_eq_some_iff.mpr ⟨_, hk, rfl⟩, hi'⟩
  | free p =>
    obtain ⟨k, l', hk, hi'⟩ := kheapFree_spec hi hop
    exact ⟨_, l', map_eq_some_iff.mpr ⟨_, hk, rfl⟩, hi'⟩
  | store a v =>
    obtain ⟨p, hpa, n, hp, ha⟩ := hop
    exact ⟨_, l, rfl, hi.store hp ⟨hpa, ha⟩ v⟩

lemma kmalloc_run {s : HeapRun KmallocHeap} (hi : HeapInv base size s.heap.heap s.live l)
    (hused : s.heap.used = liveSum l) {ops : List HeapOp}
    (h : Along (HeapRun.next kmallocHeap) (fun s op => ∀ t ∈ s, op.Fair kmallocHeap t) (some s) ops) :
    ∃ t l', run (HeapRun.next kmallocHeap) (some s) ops = some t ∧ HeapInv base size t.heap.heap t.live l' ∧
      t.heap.used = liveSum l' := by
  refine run_invariant (I := fun o : Option (HeapRun KmallocHeap) => ∃ t l', o = some t ∧
    HeapInv base size t.heap.heap t.live l' ∧ t.heap.used = liveSum l') ?_ ⟨s, l, rfl, hi, hused⟩ h
  rintro _ op ⟨t, l', rfl, hi', hused'⟩ hop
  exact kmalloc_step hi' hused' (hop t rfl)

lemma kheap_run (hi : HeapInv base size s.heap s.live l) {ops : List HeapOp}
    (h : Along (HeapRun.next imageHeap) (fun s op => ∀ t ∈ s, op.Sized t) (some s) ops) :
    ∃ t l', run (HeapRun.next imageHeap) (some s) ops = some t ∧ HeapInv base size t.heap t.live l' := by
  refine run_invariant (I := fun o : Option (HeapRun Kheap) => ∃ t l', o = some t ∧
    HeapInv base size t.heap t.live l') ?_ ⟨s, l, rfl, hi⟩ h
  rintro _ op ⟨t, l', rfl, hi'⟩ hop
  exact kheap_step hi' (hop t rfl)

/-- Every run of the main heap and of the graphics and image heaps completes and leaves a sound heap;
the counter of the main heap is the sum of the live payload sizes, and a pointer whose block is free
already can be freed again without effect. -/
theorem run_heap_invariant (mem : Buf) (base size : Nat) (hlo : 8 ≤ base) (hsize : 24 ≤ size)
    (hhi : base + size < 2 ^ 64) (ops : List HeapOp) :
    (Along (HeapRun.next kmallocHeap) (fun s op => ∀ t ∈ s, op.Fair kmallocHeap t)
        (some ⟨kmallocInit mem base size, fun _ => none⟩) ops →
      ∃ s l, run (HeapRun.next kmallocHeap) (some ⟨kmallocInit mem base size, fun _ => none⟩) ops =
          some s ∧ HeapSound base size s.heap.heap s.live l ∧ s.heap.used = liveSum l ∧
        ∀ p, (headerAt s.heap.heap.mem (blockOfPtr p)).isFree → kfree s.heap p = some s.heap) ∧
    (Along (HeapRun.next imageHeap) (fun s op => ∀ t ∈ s, op.Fair imageHeap t)
        (some ⟨kheapInit mem base size, fun _ => none⟩) ops →
      ∃ s l, run (HeapRun.next imageHeap) (some ⟨kheapInit mem base size, fun _ => none⟩) ops =
          some s ∧ HeapSound base size s.heap s.live l ∧
        ∀ p, (headerAt s.heap.mem (blockOfPtr p)).isFree → kheapFree s.heap p = some s.heap) := by
  have hinit := HeapInv.init mem hlo hsize hhi
  refine ⟨fun h => ?_, fun h => ?_⟩
  · obtain ⟨s, l, hs, hi, hused⟩ := kmalloc_run hinit rfl h
    exact ⟨s, l, hs, hi.sound, hused, fun p hp => kfree_of_free (.inr hp)⟩
  · obtain ⟨s, l, hs, hi⟩ := kheap_run hinit (h.mono fun _ _ hop t ht => (hop t ht).sized)
    exact ⟨s, l, hs, hi.sound, fun p hp => kheapFree_of_free (.inr hp)⟩

set_option maxRecDepth 8192 in
theorem run_heap_invariant_reuse :
    let ops : List HeapOp := [.alloc 10, .alloc 20, .free 88, .alloc 3, .store 90 7, .alloc 200,
      .free 128, .free 88, .free 88, .free 0]
    (∃ s l, run (HeapRun.next kmallocHeap)
        (some ⟨kmallocInit Buf.zero 64 200, fun _ => none⟩) ops = some s ∧
      HeapSound 64 200 s.heap.heap s.live l ∧ s.heap.used = liveSum l ∧
      ∀ p, (headerAt s.heap.heap.mem (blockOfPtr p)).isFree → kfree s.heap p = some s.heap) ∧
    (∃ s l, run (HeapRun.next imageHeap) (some ⟨kheapInit Buf.zero 64 200, fun _ => none⟩) ops =
        some s ∧ HeapSound 64 200 s.heap s.live l ∧
      ∀ p, (headerAt s.heap.mem (blockOfPtr p)).isFree → kheapFree s.heap p = some s.heap) :=
  have h := run_heap_invariant Buf.zero 64 200 (by decide) (by decide) (by decide)
  ⟨(h _).1 (by decide), (h _).2 (by decide)⟩

/-- A heap at address 0 starts at the null pointer: the list is empty and every allocation fails. -/
theorem heap_invariant_fails : 24 ≤ 64 ∧ ((kmalloc (kmallocInit Buf.zero 0 64) 8).map Prod.fst = some 0) ∧
      ¬ ∃ l, HeapSound 0 64 (kmallocInit Buf.zero 0 64).heap (fun _ => none) l := by
  refine ⟨by decide, by decide, fun ⟨l, h⟩ => ?_⟩
  have hvisits : [] = spans 24 0 l := h.visits
  have htiles := h.tiles
  cases l with
  | nil => cases htiles
  | cons b l => cases hvisits

end runs

end VibeOS
