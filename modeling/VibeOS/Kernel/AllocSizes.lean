import VibeOS.Kernel.HeapRun
import VibeOS.User.UmallocRun

/-!
# No block is smaller than requested

Every allocator rounds the size it is asked for, and adds the size of its headers to it, in machine arithmetic. As
long as the rounding does not lose bits, the block of a non-null result has at least the requested size and lies in
the heap (`allocated_large_enough`): in the state after any run of the clients, `kmalloc`, `kheap_alloc` (for the
graphics and the image heap), `umalloc` and `urealloc`. The limits differ: `kheap_alloc` masks with the 32-bit
`~7u`, and the user heap adds a header and rounds to pages.
-/

namespace VibeOS

open Blk Function

/-- The payload of the pointer `p` has `payload` bytes, at least the `n` requested, and lies in the memory from `lo`
to `hi`. -/
structure PayloadIn (lo hi p payload n : Nat) : Prop where
  large : n ≤ payload
  low : lo ≤ p
  high : p + payload ≤ hi

def Kheap.payload (h : Kheap) (p : Nat) : Nat := (headerAt h.mem (blockOfPtr p)).size

def UHeap.payload (u : UHeap) (p : Nat) : Nat := (UBlock.load u.mem (ublockOf p)).size

section blocks

variable {base size : Nat} {h : Kheap} {u : UHeap} {live : Nat → Option Nat} {l : List Blk} {p n : Nat}

lemma HeapInv.payloadIn (hi : HeapInv base size h live l) (hp : live p = some n) :
    PayloadIn base (base + size) p (h.payload p) n := by
  have ht := hi.tracks
  rw [← hi.base] at ht
  obtain ⟨l1, b, l2, rfl, -, rfl, hptr, -, hhead⟩ := hi.ok.block ht hp
  have htiles := hi.ok.tiles
  rw [extent_append, extent, hi.size] at htiles
  obtain ⟨x, d, hx, -, hxp, hn⟩ := ht.block _ n hp
  -- the tracked block of the pointer is the one that the header describes
  have hbd : d = b := by
    have hx' : x = h.base + extent 24 l1 := by omega
    rw [hx'] at hx
    exact eq_of_mem (by omega) hx mem_spans_split
  rw [hbd] at hn
  have hsize : h.payload (h.base + extent 24 l1 + 24) = b.size := by rw [Kheap.payload, hhead]
  rw [hsize]
  have hbase := hi.base
  exact ⟨hn, by omega, by omega⟩

lemma UInv.payloadIn (hi : UInv base u live l) (hp : live p = some n) : PayloadIn base u.brk p (u.payload p) n := by
  obtain ⟨l1, b, l2, rfl, -, hn, rfl, hptr⟩ := hi.block hp
  have hsize : u.payload (base + extent 32 l1 + 32) = b.size := by
    rw [UHeap.payload, hptr, hi.listed.header]
  have hbrk := hi.listed.bounds
  rw [hsize]
  exact ⟨hn, by omega, by omega⟩

lemma kmalloc_payloadIn {k k' : KmallocHeap} (hi : HeapInv base size k.heap live l) (hused : k.used = liveSum l)
    (hn : n + 7 < 2 ^ 64) (halloc : kmalloc k n = some (p, k')) (hp : p ≠ 0) :
    PayloadIn base (base + size) p (k'.heap.payload p) n := by
  obtain ⟨p', k'', l', hk, -, hi'⟩ := kmalloc_spec hi hused (n := n) (by omega)
  rw [hk] at halloc
  cases halloc
  rw [if_neg hp] at hi'
  exact hi'.payloadIn (update_self p _ _)

lemma kheapAlloc_payloadIn {h' : Kheap} (hi : HeapInv base size h live l) (hn : n + 7 < 2 ^ 32)
    (halloc : kheapAlloc h n = some (p, h')) (hp : p ≠ 0) : PayloadIn base (base + size) p (h'.payload p) n := by
  obtain ⟨p', h'', l', hk, hi'⟩ := kheapAlloc_spec hi hn
  rw [hk] at halloc
  cases halloc
  rw [if_neg hp] at hi'
  exact hi'.payloadIn (update_self p _ _)

variable {avail : Nat → Nat → Bool}

lemma umalloc_payloadIn {u' : UHeap} (hi : UInv base u live l) (hn : n + 4127 < 2 ^ 64)
    (halloc : umalloc avail u n = some (p, u')) (hp : p ≠ 0) : PayloadIn base u'.brk p (u'.payload p) n := by
  rcases umalloc_spec hi avail hn with hfail | ⟨p', v, l', hsome, -, -, hi', -⟩
  · rw [hfail] at halloc
    cases halloc
    exact absurd rfl hp
  · rw [hsome] at halloc
    cases halloc
    exact hi'.payloadIn (update_self p _ _)

lemma urealloc_payloadIn {u' : UHeap} {q : Nat} (hi : UInv base u live l)
    (hn : n + 4127 < 2 ^ 64) (hq : q = 0 ∨ (live q).isSome) (halloc : urealloc avail u q n = some (p, u'))
    (hp : p ≠ 0) : PayloadIn base u'.brk p (u'.payload p) n := by
  by_cases hq0 : q = 0
  · rw [hq0, urealloc, if_pos rfl] at halloc
    exact umalloc_payloadIn hi hn halloc hp
  · obtain ⟨m, hm⟩ := Option.isSome_iff_exists.mp (hq.resolve_left hq0)
    by_cases hn0 : n = 0
    · rw [urealloc, if_neg hq0, if_pos hn0] at halloc
      obtain ⟨v, -, heq⟩ := Option.map_eq_some_iff.mp halloc
      cases heq
      exact absurd rfl hp
    · rcases urealloc_spec hi avail hm hn hn0 with hfail | ⟨r, v, l', hsome, -, hi', -⟩
      · rw [hfail] at halloc
        cases halloc
        exact absurd rfl hp
      · rw [hsome] at halloc
        cases halloc
        exact hi'.payloadIn (update_self p _ _)

end blocks

/-- After a run of the clients of a heap with sizes within the limits of the allocator, a non-null result for such a
size has a block of at least that size in the memory of the heap (for a program, what it obtained from `SYS_SBRK`). -/
theorem allocated_large_enough (mem : Buf) (base size : Nat) (hlo : 8 ≤ base) (hsize : 24 ≤ size)
    (hhi : base + size < 2 ^ 64) (ops : List HeapOp) (ubase : Nat) (hpos : 0 < ubase) (h16 : 16 ∣ ubase)
    (hlt : ubase < 2 ^ 64) (uops : List UOp) :
    (Along (HeapRun.next kmallocHeap) (fun s op => ∀ t ∈ s, op.Fair kmallocHeap t)
        (some ⟨kmallocInit mem base size, fun _ => none⟩) ops →
      ∃ s, run (HeapRun.next kmallocHeap) (some ⟨kmallocInit mem base size, fun _ => none⟩) ops = some s ∧
        ∀ n p k, n + 7 < 2 ^ 64 → kmalloc s.heap n = some (p, k) → p ≠ 0 →
          PayloadIn base (base + size) p (k.heap.payload p) n) ∧
    (Along (HeapRun.next imageHeap) (fun s op => ∀ t ∈ s, op.Sized t)
        (some ⟨kheapInit mem base size, fun _ => none⟩) ops →
      ∃ s, run (HeapRun.next imageHeap) (some ⟨kheapInit mem base size, fun _ => none⟩) ops = some s ∧
        ∀ n p h, n + 7 < 2 ^ 32 → kheapAlloc s.heap n = some (p, h) → p ≠ 0 →
          PayloadIn base (base + size) p (h.payload p) n) ∧
    (Along URun.next (fun s op => ∀ t ∈ s, op.Sized t) (some ⟨UHeap.start mem ubase, fun _ => none⟩) uops →
      ∃ s, run URun.next (some ⟨UHeap.start mem ubase, fun _ => none⟩) uops = some s ∧
        ∀ avail n p u, n + 4127 < 2 ^ 64 → p ≠ 0 →
          (umalloc avail s.heap n = some (p, u) → PayloadIn ubase u.brk p (u.payload p) n) ∧
          ∀ q, q = 0 ∨ (s.live q).isSome → urealloc avail s.heap q n = some (p, u) →
            PayloadIn ubase u.brk p (u.payload p) n) := by
  have hinit := HeapInv.init mem hlo hsize hhi
  refine ⟨fun hrun => ?_, fun hrun => ?_, fun hrun => ?_⟩
  · obtain ⟨s, l, hs, hi, hused⟩ := kmalloc_run hinit rfl hrun
    exact ⟨s, hs, fun n p k hn halloc hp => kmalloc_payloadIn hi hused hn halloc hp⟩
  · obtain ⟨s, l, hs, hi⟩ := kheap_run hinit hrun
    exact ⟨s, hs, fun n p h hn halloc hp => kheapAlloc_payloadIn hi hn halloc hp⟩
  · obtain ⟨s, l, hs, hi⟩ := uinv_run (UInv.start mem hpos h16 hlt) hrun
    exact ⟨s, hs, fun avail n p u hn hp => ⟨fun halloc => umalloc_payloadIn hi hn halloc hp,
      fun q hq halloc => urealloc_payloadIn hi hn hq halloc hp⟩⟩

theorem allocated_large_enough_small :
    (∃ s, run (HeapRun.next kmallocHeap) (some ⟨kmallocInit Buf.zero 64 200, fun _ => none⟩) [.alloc 10] = some s ∧
      ∀ n p k, n + 7 < 2 ^ 64 → kmalloc s.heap n = some (p, k) → p ≠ 0 →
        PayloadIn 64 (64 + 200) p (k.heap.payload p) n) ∧
    (∃ s, run (HeapRun.next imageHeap) (some ⟨kheapInit Buf.zero 64 200, fun _ => none⟩) [.alloc 10] = some s ∧
      ∀ n p h, n + 7 < 2 ^ 32 → kheapAlloc s.heap n = some (p, h) → p ≠ 0 → PayloadIn 64 (64 + 200) p (h.payload p) n) ∧
    (∃ s, run URun.next (some ⟨UHeap.start Buf.zero 64, fun _ => none⟩) [.umalloc 10 fun _ _ => true] = some s ∧
      ∀ avail n p u, n + 4127 < 2 ^ 64 → p ≠ 0 →
        (umalloc avail s.heap n = some (p, u) → PayloadIn 64 u.brk p (u.payload p) n) ∧
        ∀ q, q = 0 ∨ (s.live q).isSome → urealloc avail s.heap q n = some (p, u) →
          PayloadIn 64 u.brk p (u.payload p) n) :=
  have h := allocated_large_enough Buf.zero 64 200 (by decide) (by decide) (by decide) [.alloc 10] 64 (by decide)
    (by decide) (by decide) [.umalloc 10 fun _ _ => true]
  ⟨h.1 (by decide), h.2.1 ⟨fun _ _ => (by decide : 10 + 7 < 2 ^ 32), trivial⟩,
    h.2.2 ⟨fun _ _ => (by decide : 10 + 4127 < 2 ^ 64), trivial⟩⟩

/-- A request for `2 ^ 64 - 1` bytes gets an empty block from `kmalloc` and from `umalloc`, and one for `2 ^ 32 + 8`
bytes gets 8 bytes from `kheap_alloc`. -/
theorem allocated_large_enough_fails :
    ((kmalloc (kmallocInit Buf.zero 64 200) 18446744073709551615).map fun r => (r.1, r.2.heap.payload r.1)) =
      some (88, 0) ∧
    ((kheapAlloc (kheapInit Buf.zero 64 200) 4294967304).map fun r => (r.1, r.2.payload r.1)) = some (88, 8) ∧
    ((umalloc (fun _ _ => true) (UHeap.start Buf.zero 64) 18446744073709551615).map fun r =>
      (r.1, r.2.payload r.1)) = some (96, 0) := by
  decide

end VibeOS
