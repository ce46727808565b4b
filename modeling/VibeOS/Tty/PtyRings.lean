import VibeOS.Lib.Ring
import VibeOS.Tty.Pty

/-!
# The rings of the pseudo-terminals

`struct pty_ring` as it is: an array and two 64-bit counters that are never reduced. The fill level is their
difference and a position is a counter masked, so nothing changes when a counter wraps: the ring size divides `2 ^ 64`.

`PtyRing.contents` is the queue a ring holds, and a write to it is `ringWrite` on lists (`ringWriteC_contents`).
`run_pty_rings` is the result for any calls on any ptys.

Other names are those of `kernel/src/pty.c`.
-/

namespace VibeOS

open List Function

/-- Source: `struct pty_ring` -/
structure PtyRing where
  data : Nat → UInt8
  head : BitVec 64
  tail : BitVec 64

/-- Source: `PTY_RING_MASK` -/
def PTY_RING_MASK : BitVec 64 := 16383

variable {r : PtyRing}

namespace PtyRing

def ringUsed (r : PtyRing) : BitVec 64 := r.head - r.tail

/-- The loop of `ring_write` over the bytes it takes.
Source: `ring_write` -/
def writeLoop (r : PtyRing) : List UInt8 → PtyRing
  | [] => r
  | c :: cs => writeLoop
      { r with data := update r.data (r.head &&& PTY_RING_MASK).toNat c, head := r.head + 1 } cs

/-- The number of bytes stored, and the ring.
Source: `ring_write` -/
def ringWriteC (r : PtyRing) (src : List UInt8) : Nat × PtyRing :=
  let freeSpace := (BitVec.ofNat 64 PTY_RING_SIZE - r.ringUsed).toNat
  let count := if src.length > freeSpace then freeSpace else src.length
  (count, writeLoop r (src.take count))

/-- The loop of `ring_read`: the bytes copied, and the ring.
Source: `ring_read` -/
def readLoop (r : PtyRing) : Nat → List UInt8 × PtyRing
  | 0 => ([], r)
  | n + 1 =>
    let rest := readLoop { r with tail := r.tail + 1 } n
    (r.data (r.tail &&& PTY_RING_MASK).toNat :: rest.1, rest.2)

variable (r)

def ringRead (count : Nat) : List UInt8 × PtyRing :=
  let avail := r.ringUsed.toNat
  readLoop r (if count > avail then avail else count)

def contents : List UInt8 := ringList r.data PTY_RING_SIZE r.tail.toNat r.ringUsed.toNat

/-- The counters are never further apart than the ring is long. -/
def Bounded : Prop := r.ringUsed.toNat ≤ PTY_RING_SIZE

/-! ### One ring -/

lemma length_contents : r.contents.length = r.ringUsed.toNat := length_ringList _ _

lemma masked (c : BitVec 64) : (c &&& PTY_RING_MASK).toNat = c.toNat % PTY_RING_SIZE := by
  exact Nat.and_two_pow_sub_one_eq_mod c.toNat 14

lemma cell_wraps (n : Nat) : n % 2 ^ 64 % PTY_RING_SIZE = n % PTY_RING_SIZE :=
  Nat.mod_mod_of_dvd n (by decide)

lemma head_eq : r.head.toNat = (r.tail.toNat + r.ringUsed.toNat) % 2 ^ 64 := by
  have h : r.head = r.tail + r.ringUsed := by
    unfold ringUsed
    bv_omega
  conv_lhs => rw [h, BitVec.toNat_add]

variable {r}

lemma freeSpace_eq (h : r.Bounded) :
    (BitVec.ofNat 64 PTY_RING_SIZE - r.ringUsed).toNat = PTY_RING_SIZE - r.ringUsed.toNat := by
  have hsize : PTY_RING_SIZE = 16384 := rfl
  unfold Bounded at h
  bv_omega

lemma writeLoop_spec (r : PtyRing) (src : List UInt8) (h : src.length ≤ PTY_RING_SIZE) :
    RingPut r.data (writeLoop r src).data PTY_RING_SIZE r.head.toNat src ∧
    (writeLoop r src).head = r.head + BitVec.ofNat 64 src.length ∧ (writeLoop r src).tail = r.tail := by
  induction src generalizing r with
  | nil => exact ⟨RingPut.nil _ _ _, (BitVec.add_zero _).symm, rfl⟩
  | cons c cs ih =>
    rw [length_cons] at h
    obtain ⟨hput, hhead, htail⟩ := ih
      { r with data := update r.data (r.head &&& PTY_RING_MASK).toNat c, head := r.head + 1 } (by omega)
    have hcell : (r.head + 1).toNat % PTY_RING_SIZE = (r.head.toNat + 1) % PTY_RING_SIZE := by
      rw [BitVec.toNat_add, cell_wraps]
      rfl
    refine ⟨RingPut.cons (by omega) ?_, ?_, htail⟩
    · rw [← masked]
      exact hput.congr hcell
    · rw [writeLoop, hhead, length_cons]
      bv_omega

lemma ringWriteC_spec (h : r.Bounded) (src : List UInt8) :
    (r.ringWriteC src).1 = min src.length (PTY_RING_SIZE - r.contents.length) ∧
    (r.ringWriteC src).2.contents = r.contents ++ src.take (r.ringWriteC src).1 ∧ (r.ringWriteC src).2.Bounded := by
  have hcount : (r.ringWriteC src).1 = min src.length (PTY_RING_SIZE - r.ringUsed.toNat) := by
    unfold ringWriteC
    dsimp only
    rw [freeSpace_eq h]
    split_ifs <;> omega
  have hring : (r.ringWriteC src).2 = writeLoop r (src.take (r.ringWriteC src).1) := rfl
  have hlen : (src.take (r.ringWriteC src).1).length = (r.ringWriteC src).1 := by
    rw [length_take, hcount]
    omega
  have hsize : PTY_RING_SIZE = 16384 := rfl
  have hb : r.ringUsed.toNat ≤ 16384 := h
  obtain ⟨hput, hhead, htail⟩ := writeLoop_spec r (src.take (r.ringWriteC src).1) (by omega)
  have hused : (writeLoop r (src.take (r.ringWriteC src).1)).ringUsed.toNat =
      r.ringUsed.toNat + (src.take (r.ringWriteC src).1).length := by
    generalize (src.take (r.ringWriteC src).1).length = n at *
    unfold ringUsed at *
    bv_omega
  rw [length_contents]
  refine ⟨hcount, ?_, ?_⟩
  · rw [hring]
    unfold contents
    rw [hused, htail]
    refine ringList_put ?_ (by omega)
    refine hput.congr ?_
    rw [head_eq, cell_wraps]
  · rw [hring]
    unfold Bounded
    omega

lemma readLoop_spec (r : PtyRing) (n : Nat) : (readLoop r n).1 = ringList r.data PTY_RING_SIZE r.tail.toNat n ∧
    (readLoop r n).2 = { r with tail := r.tail + BitVec.ofNat 64 n } := by
  induction n generalizing r with
  | zero =>
    refine ⟨rfl, ?_⟩
    rw [readLoop, BitVec.add_zero]
  | succ n ih =>
    obtain ⟨hbytes, hring⟩ := ih { r with tail := r.tail + 1 }
    have hcell : (r.tail + 1).toNat % PTY_RING_SIZE = (r.tail.toNat + 1) % PTY_RING_SIZE := by
      rw [BitVec.toNat_add, cell_wraps]
      rfl
    constructor
    · rw [readLoop, Nat.add_comm n 1, ringList_add]
      rw [hbytes, masked, ringList_congr n hcell]
      rfl
    · rw [readLoop]
      rw [hring]
      congr 1
      bv_omega

lemma ringRead_spec (h : r.Bounded) (count : Nat) :
    (r.ringRead count).1 = r.contents.take count ∧ (r.ringRead count).2.contents = r.contents.drop count ∧
    (r.ringRead count).2.Bounded := by
  have hn : (if count > r.ringUsed.toNat then r.ringUsed.toNat else count) = min count r.ringUsed.toNat := by
    split_ifs <;> omega
  have hle : min count r.ringUsed.toNat ≤ r.ringUsed.toNat := Nat.min_le_right _ _
  obtain ⟨hbytes, hring⟩ := readLoop_spec r (min count r.ringUsed.toNat)
  have hsize : PTY_RING_SIZE = 16384 := rfl
  have hb : r.ringUsed.toNat ≤ 16384 := h
  unfold ringRead
  dsimp only
  rw [hn, hbytes, hring]
  have hused : (ringUsed { r with tail := r.tail + BitVec.ofNat 64 (min count r.ringUsed.toNat) }).toNat =
      r.ringUsed.toNat - min count r.ringUsed.toNat := by
    generalize min count r.ringUsed.toNat = n at *
    unfold ringUsed at *
    bv_omega
  have hcell : (r.tail + BitVec.ofNat 64 (min count r.ringUsed.toNat)).toNat % PTY_RING_SIZE =
      (r.tail.toNat + min count r.ringUsed.toNat) % PTY_RING_SIZE := by
    rw [BitVec.toNat_add, cell_wraps, BitVec.toNat_ofNat, Nat.mod_eq_of_lt (a := min count r.ringUsed.toNat)]
    omega
  have htake : r.contents.take (min count r.ringUsed.toNat) = r.contents.take count := by
    rw [← length_contents, Nat.min_comm, ← take_take, take_of_length_le (length_take_le' _ _)]
  have hdrop : r.contents.drop (min count r.ringUsed.toNat) = r.contents.drop count := by
    rw [← length_contents]
    rcases Nat.le_total count r.contents.length with hc | hc
    · rw [Nat.min_eq_left hc]
    · rw [Nat.min_eq_right hc, drop_length, drop_eq_nil_of_le hc]
  obtain ⟨hfront, hback⟩ := ringList_take_drop hle
  refine ⟨?_, ?_, ?_⟩
  · rw [hfront]
    exact htake
  · rw [← hdrop]
    unfold contents
    rw [hused, ringList_congr _ hcell]
    exact hback
  · unfold Bounded
    omega

end PtyRing

/-! ### Calls on all ptys -/

/-- The two rings of a pty.
Source: `struct pty` -/
inductive PtyDirection where
  | input
  | output
deriving DecidableEq

abbrev PtyRings := PtyDirection → PtyRing

/-- Source: `pty_master_read`, `pty_slave_read` -/
def PtyRings.read (p : PtyRings) (d : PtyDirection) (count : Nat) : List UInt8 × PtyRings :=
  if count = 0 then ([], p)
  else
    let r := (p d).ringRead count
    (r.1, update p d r.2)

/-- Source: `pty_master_write`, `pty_slave_write` -/
def PtyRings.write (p : PtyRings) (d : PtyDirection) (src : List UInt8) : Nat × PtyRings :=
  let r := (p d).ringWriteC src
  (r.1, update p d r.2)

def ptyMasterRead (p : PtyRings) (count : Nat) : List UInt8 × PtyRings := p.read .output count

def ptyMasterWrite (p : PtyRings) (src : List UInt8) : Nat × PtyRings := p.write .input src

def ptySlaveRead (p : PtyRings) (count : Nat) : List UInt8 × PtyRings := p.read .input count

def ptySlaveWrite (p : PtyRings) (src : List UInt8) : Nat × PtyRings := p.write .output src

/-- Reads and writes at the two ends. -/
inductive PtyCall where
  | masterRead (count : Nat)
  | masterWrite (src : List UInt8)
  | slaveRead (count : Nat)
  | slaveWrite (src : List UInt8)

def PtyCall.direction : PtyCall → PtyDirection
  | .masterRead _ => .output
  | .masterWrite _ => .input
  | .slaveRead _ => .input
  | .slaveWrite _ => .output

/-- What a call returns, what it accepts, what it hands out, and the rings after it. -/
structure PtyOutcome where
  result : Nat
  accepted : List UInt8
  delivered : List UInt8
  rings : PtyRings

def PtyRings.call (p : PtyRings) : PtyCall → PtyOutcome
  | .masterRead count =>
    let r := ptyMasterRead p count
    ⟨r.1.length, [], r.1, r.2⟩
  | .masterWrite src =>
    let r := ptyMasterWrite p src
    ⟨r.1, src.take r.1, [], r.2⟩
  | .slaveRead count =>
    let r := ptySlaveRead p count
    ⟨r.1.length, [], r.1, r.2⟩
  | .slaveWrite src =>
    let r := ptySlaveWrite p src
    ⟨r.1, src.take r.1, [], r.2⟩

/-- The pool, with a record of what went through each ring that no definition reads. -/
structure PtyTraffic where
  ptys : Fin PTY_POOL_SIZE → PtyRings
  accepted : Fin PTY_POOL_SIZE → PtyDirection → List UInt8
  delivered : Fin PTY_POOL_SIZE → PtyDirection → List UInt8

def PtyTraffic.start (ptys : Fin PTY_POOL_SIZE → PtyRings) : PtyTraffic := ⟨ptys, fun _ _ => [], fun _ _ => []⟩

def PtyTraffic.step (s : PtyTraffic) (c : Fin PTY_POOL_SIZE × PtyCall) : PtyTraffic :=
  let o := (s.ptys c.1).call c.2
  { ptys := update s.ptys c.1 o.rings
    accepted := update s.accepted c.1
      (update (s.accepted c.1) c.2.direction (s.accepted c.1 c.2.direction ++ o.accepted))
    delivered := update s.delivered c.1
      (update (s.delivered c.1) c.2.direction (s.delivered c.1 c.2.direction ++ o.delivered)) }

/-- What a call is to do to the queue of its ring: a write appends as much as fits, a read takes from the front. -/
def PtyCall.OnQueue (q q' : List UInt8) (o : PtyOutcome) : PtyCall → Prop
  | .masterRead count | .slaveRead count =>
    o.result = min count q.length ∧ o.accepted = [] ∧ o.delivered = q.take count ∧ q' = q.drop count
  | .masterWrite src | .slaveWrite src =>
    o.result = min src.length (PTY_RING_SIZE - q.length) ∧ o.accepted = src.take o.result ∧ o.delivered = [] ∧
      q' = q ++ o.accepted

lemma PtyRings.read_spec {p : PtyRings} {d : PtyDirection} (h : (p d).Bounded) (count : Nat) :
    (p.read d count).1 = (p d).contents.take count ∧
    ((p.read d count).2 d).contents = (p d).contents.drop count ∧ ((p.read d count).2 d).Bounded ∧
    ∀ d' ≠ d, (p.read d count).2 d' = p d' := by
  unfold PtyRings.read
  by_cases hc : count = 0
  · rw [if_pos hc, hc]
    exact ⟨rfl, rfl, h, fun _ _ => rfl⟩
  · obtain ⟨hbytes, hq, hb⟩ := PtyRing.ringRead_spec h count
    rw [if_neg hc]
    dsimp only
    rw [update_self]
    exact ⟨hbytes, hq, hb, fun d' hd => update_of_ne hd _ _⟩

lemma PtyRings.write_spec {p : PtyRings} {d : PtyDirection} (h : (p d).Bounded) (src : List UInt8) :
    (p.write d src).1 = min src.length (PTY_RING_SIZE - (p d).contents.length) ∧
    ((p.write d src).2 d).contents = (p d).contents ++ src.take (p.write d src).1 ∧ ((p.write d src).2 d).Bounded ∧
    ∀ d' ≠ d, (p.write d src).2 d' = p d' := by
  obtain ⟨hcount, hq, hb⟩ := PtyRing.ringWriteC_spec h src
  unfold PtyRings.write
  dsimp only
  rw [update_self]
  exact ⟨hcount, hq, hb, fun d' hd => update_of_ne hd _ _⟩

/-- One call: what it does to the queue of its ring, and nothing to the other ring. -/
lemma PtyRings.call_spec {p : PtyRings} (h : ∀ d, (p d).Bounded) (c : PtyCall) :
    c.OnQueue (p c.direction).contents ((p.call c).rings c.direction).contents (p.call c) ∧
    (∀ d, ((p.call c).rings d).Bounded) ∧ ∀ d ≠ c.direction, (p.call c).rings d = p d := by
  have hreads : ∀ {d : PtyDirection} {count : Nat}, ∀ d', ((p.read d count).2 d').Bounded := by
    intro d count d'
    obtain ⟨-, -, hb, hother⟩ := PtyRings.read_spec (h d) count
    by_cases hd : d' = d
    · rw [hd]
      exact hb
    · rw [hother d' hd]
      exact h d'
  have hwrites : ∀ {d : PtyDirection} {src : List UInt8}, ∀ d', ((p.write d src).2 d').Bounded := by
    intro d src d'
    obtain ⟨-, -, hb, hother⟩ := PtyRings.write_spec (h d) src
    by_cases hd : d' = d
    · rw [hd]
      exact hb
    · rw [hother d' hd]
      exact h d'
  cases c with
  | masterRead count =>
    obtain ⟨hbytes, hq, -, hother⟩ := PtyRings.read_spec (h .output) count
    exact ⟨⟨(congrArg List.length hbytes).trans length_take, rfl, hbytes, hq⟩, hreads, hother⟩
  | slaveRead count =>
    obtain ⟨hbytes, hq, -, hother⟩ := PtyRings.read_spec (h .input) count
    exact ⟨⟨(congrArg List.length hbytes).trans length_take, rfl, hbytes, hq⟩, hreads, hother⟩
  | masterWrite src =>
    obtain ⟨hcount, hq, -, hother⟩ := PtyRings.write_spec (h .input) src
    exact ⟨⟨hcount, rfl, rfl, hq⟩, hwrites, hother⟩
  | slaveWrite src =>
    obtain ⟨hcount, hq, -, hother⟩ := PtyRings.write_spec (h .output) src
    exact ⟨⟨hcount, rfl, rfl, hq⟩, hwrites, hother⟩

lemma PtyCall.OnQueue.conserves {c : PtyCall} {q q' : List UInt8} {o : PtyOutcome} (h : c.OnQueue q q' o) :
    o.delivered ++ q' = q ++ o.accepted := by
  cases c with
  | masterRead count | slaveRead count =>
    obtain ⟨-, haccepted, hdelivered, hq⟩ := h
    rw [haccepted, hdelivered, hq, take_append_drop, append_nil]
  | masterWrite src | slaveWrite src =>
    obtain ⟨-, -, hdelivered, hq⟩ := h
    rw [hdelivered, hq, nil_append]

/-- Each ring is a queue between its ends. -/
def PtyTraffic.Fifo (ptys0 : Fin PTY_POOL_SIZE → PtyRings) (s : PtyTraffic) : Prop :=
  ∀ k d, (s.ptys k d).Bounded ∧ s.delivered k d ++ (s.ptys k d).contents = (ptys0 k d).contents ++ s.accepted k d

lemma PtyTraffic.Fifo.step {ptys0 : Fin PTY_POOL_SIZE → PtyRings} {s : PtyTraffic} (h : s.Fifo ptys0)
    (c : Fin PTY_POOL_SIZE × PtyCall) : (s.step c).Fifo ptys0 := by
  obtain ⟨k, c⟩ := c
  obtain ⟨hqueue, hbounded, hother⟩ := PtyRings.call_spec (fun d => (h k d).1) c
  intro k' d
  unfold PtyTraffic.step
  by_cases hk : k' = k
  · subst hk
    simp only [update_self]
    refine ⟨hbounded d, ?_⟩
    by_cases hd : d = c.direction
    · subst hd
      rw [update_self, update_self, append_assoc, hqueue.conserves, ← append_assoc, (h k' _).2, append_assoc]
    · rw [update_of_ne hd, update_of_ne hd, hother d hd]
      exact (h k' d).2
  · simp only [update_of_ne hk]
    exact h k' d

/-- Every ring is a bounded queue in every sequence of calls: what was read out followed by what is in it is what was
in it followed by what was accepted, and a call changes the one ring it is about.
Source: `ring_used`, `ring_write`, `ring_read`, `pty_master_read`, `pty_master_write`,
`pty_slave_read`, `pty_slave_write` -/
theorem run_pty_rings (ptys₀ : Fin PTY_POOL_SIZE → PtyRings) (h : ∀ k d, (ptys₀ k d).Bounded)
    (cs : List (Fin PTY_POOL_SIZE × PtyCall)) :
    let s := run PtyTraffic.step (PtyTraffic.start ptys₀) cs
    (∀ k d, s.delivered k d ++ (s.ptys k d).contents = (ptys₀ k d).contents ++ s.accepted k d ∧
      (s.ptys k d).contents.length ≤ PTY_RING_SIZE) ∧
    ∀ k c, c.OnQueue (s.ptys k c.direction).contents ((s.step (k, c)).ptys k c.direction).contents
        ((s.ptys k).call c) ∧
      ∀ k' d, (k', d) ≠ (k, c.direction) → (s.step (k, c)).ptys k' d = s.ptys k' d ∧
        (s.step (k, c)).accepted k' d = s.accepted k' d ∧ (s.step (k, c)).delivered k' d = s.delivered k' d := by
  intro s
  have hfifo : s.Fifo ptys₀ := by
    have hstart : (PtyTraffic.start ptys₀).Fifo ptys₀ := fun k d => ⟨h k d, (append_nil _).symm⟩
    exact List.foldlRecOn cs PtyTraffic.step hstart fun s hs c _ => hs.step c
  refine ⟨fun k d => ⟨(hfifo k d).2, ?_⟩, fun k c => ?_⟩
  · rw [PtyRing.length_contents]
    exact (hfifo k d).1
  · obtain ⟨hqueue, -, hother⟩ := PtyRings.call_spec (fun d => (hfifo k d).1) c
    refine ⟨?_, fun k' d hne => ?_⟩
    · unfold PtyTraffic.step
      dsimp only
      rw [update_self]
      exact hqueue
    · unfold PtyTraffic.step
      dsimp only
      by_cases hk : k' = k
      · subst hk
        have hd : d ≠ c.direction := fun hd => hne (by rw [hd])
        simp only [update_self]
        exact ⟨hother d hd, update_of_ne hd _ _, update_of_ne hd _ _⟩
      · rw [update_of_ne hk, update_of_ne hk, update_of_ne hk]
        exact ⟨rfl, rfl, rfl⟩

def aboutToWrap : PtyRing := ⟨fun _ => 0, 0xFFFFFFFFFFFFFFFF, 0xFFFFFFFFFFFFFFFF⟩

theorem run_pty_rings_wrap : (∀ k d, ((fun _ _ => aboutToWrap : Fin PTY_POOL_SIZE → PtyRings) k d).Bounded) ∧
    let s := run PtyTraffic.step (PtyTraffic.start fun _ _ => aboutToWrap)
      [(0, .masterWrite [1, 2, 3]), (0, .slaveRead 2)]
    s.delivered 0 .input = [1, 2] ∧ s.delivered 0 .input ++ (s.ptys 0 .input).contents = s.accepted 0 .input :=
  have h : ∀ k d, ((fun _ _ => aboutToWrap : Fin PTY_POOL_SIZE → PtyRings) k d).Bounded :=
    fun _ _ => show aboutToWrap.ringUsed.toNat ≤ PTY_RING_SIZE by decide
  ⟨h, by decide, ((run_pty_rings _ h [(0, .masterWrite [1, 2, 3]), (0, .slaveRead 2)]).1 0 .input).1⟩

end VibeOS
