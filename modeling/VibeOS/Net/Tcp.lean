import VibeOS.Lib.Bytes
import VibeOS.Lib.Run

/-!
# The receive side of TCP connections

`handleTcp` finds the connection a segment belongs to and stores in-order data in its receive buffer;
`tcpStreamRecv` drains the buffer of the stream connection. A peer's stream is a function
`peer : Nat → UInt8` with the sequence number `isn` of its first byte.

As long as in-order data fits into the buffer, what was drained and what is buffered is a prefix of the stream
(`run_tcp_prefix`); `handle_tcp` cuts other data but acknowledges all of it (`tcp_prefix_fails`).

Other names are those of `kernel/src/net.c`.
-/

namespace VibeOS

open Buf List Function

/-! ### Connections -/

def TCP_FIN : UInt8 := 0x01
def TCP_SYN : UInt8 := 0x02
def TCP_RST : UInt8 := 0x04
def TCP_ACK : UInt8 := 0x10

abbrev NET_MAX_CONNS : Nat := 4

/-- The state of a connection.
Source: `enum tcp_state` -/
inductive TcpState where
  | closed
  | synSent
  | established
  | done
  deriving DecidableEq

/-- A connection slot. `rx_buf` is a separate buffer for every connection, so its address and the
address space it belongs to are left out.
Source: `struct tcp_conn` -/
structure TcpConn where
  state : TcpState
  remoteIp : UInt32
  localPort : UInt16
  remotePort : UInt16
  sndNxt : UInt32
  rcvNxt : UInt32
  rxBuf : Buf
  rxCap : Nat
  rxLen : Nat
  peerFin : Bool
  inUse : Bool

/-- An inbound segment, as `handle_tcp` parses it. -/
structure TcpSegment where
  srcIp : UInt32
  srcPort : UInt16
  dstPort : UInt16
  seq : UInt32
  flags : UInt8
  payload : List UInt8

/-- The fields of an outbound segment that depend on the connection. -/
structure TcpSent where
  seq : UInt32
  ack : UInt32
  flags : UInt8
  window : Nat

/-- All connections, what was sent, and the stream connection. -/
structure TcpNet where
  conns : Fin NET_MAX_CONNS → TcpConn
  sent : List TcpSent
  stream : Option (Fin NET_MAX_CONNS)

/-- Send a segment: it advertises the free space of the receive buffer. -/
def tcpSend (c : TcpConn) (flags : UInt8) : TcpSent where
  seq := c.sndNxt
  ack := if flags &&& TCP_ACK ≠ 0 then c.rcvNxt else 0
  flags := flags
  window := min (c.rxCap - c.rxLen) 0xFFFF

/-- Take in-order data: the copy is cut at the capacity.
Source: `handle_tcp` -/
def acceptData (c : TcpConn) (seg : TcpSegment) : TcpConn × List TcpSent :=
  if seg.payload.length > 0 ∧ seg.seq = c.rcvNxt then
    let copy := if c.rxLen + seg.payload.length > c.rxCap then c.rxCap - c.rxLen
      else seg.payload.length
    let c1 := if copy > 0 then
      { c with rxBuf := c.rxBuf.blit c.rxLen copy (Buf.ofList seg.payload), rxLen := c.rxLen + copy }
      else c
    let c2 := { c1 with rcvNxt := c1.rcvNxt + UInt32.ofNat seg.payload.length }
    (c2, [tcpSend c2 TCP_ACK])
  else (c, [])

/-- Process a segment for a connection.
Source: `handle_tcp` -/
def handleConn (c : TcpConn) (seg : TcpSegment) : TcpConn × List TcpSent :=
  if seg.flags &&& TCP_RST ≠ 0 then ({ c with state := .done }, [])
  else if c.state = .synSent then
    if seg.flags &&& TCP_SYN ≠ 0 ∧ seg.flags &&& TCP_ACK ≠ 0 then
      let c1 := { c with rcvNxt := seg.seq + 1, sndNxt := c.sndNxt + 1 }
      ({ c1 with state := .established }, [tcpSend c1 TCP_ACK])
    else (c, [])
  else
    let (c1, sent) := acceptData c seg
    if seg.flags &&& TCP_FIN ≠ 0 then
      let c2 := { c1 with rcvNxt := c1.rcvNxt + 1, peerFin := true }
      ({ c2 with sndNxt := c2.sndNxt + 1, state := .done }, sent ++ [tcpSend c2 (TCP_ACK ||| TCP_FIN)])
    else (c1, sent)

/-- The segment belongs to the connection.
Source: `handle_tcp` -/
def TcpConn.accepts (c : TcpConn) (seg : TcpSegment) : Bool :=
  c.inUse && decide (c.state ≠ .closed) && decide (c.remoteIp = seg.srcIp) &&
    decide (c.remotePort = seg.srcPort) && decide (c.localPort = seg.dstPort)

def demux (net : TcpNet) (seg : TcpSegment) : Option (Fin NET_MAX_CONNS) :=
  (List.finRange NET_MAX_CONNS).find? fun i => (net.conns i).accepts seg

def handleTcp (net : TcpNet) (seg : TcpSegment) : TcpNet :=
  match demux net seg with
  | none => net
  | some i =>
    let r := handleConn (net.conns i) seg
    { net with conns := update net.conns i r.1, sent := net.sent ++ r.2 }

/-- One pass of the receive loop: the result, the bytes copied out and the state after it. The
segments that `net_poll` handles between the passes are separate steps. -/
def tcpStreamRecv (net : TcpNet) (len : Nat) : Int × List UInt8 × TcpNet :=
  match net.stream with
  | none => (-1, [], net)
  | some i =>
    let c := net.conns i
    if len = 0 then (-1, [], net)
    else if c.rxLen > 0 then
      let n := if c.rxLen > len then len else c.rxLen
      let c1 := { c with
        rxBuf := if c.rxLen - n > 0 then
          c.rxBuf.blit 0 (c.rxLen - n) (fun k => c.rxBuf (n + k)) else c.rxBuf
        rxLen := c.rxLen - n }
      let sent := if c.state = .established ∧ c.rxLen + 2048 ≥ c.rxCap then
        [tcpSend c1 TCP_ACK] else []
      (n, c.rxBuf.slice 0 n, { net with conns := update net.conns i c1, sent := net.sent ++ sent })
    else if c.state = .done then (0, [], net)
    else (-1, [], net)

/-! ### Runs -/

/-- What can happen: a segment arrives, which starts at byte `pos` of its stream, or the application
reads. -/
inductive TcpEvent where
  | segment (seg : TcpSegment) (pos : Nat)
  | recv (len : Nat)

/-- The connections, with the bytes drained from connection `i`. -/
structure TcpSession where
  net : TcpNet
  drained : List UInt8

/-- One event, seen from connection `i`. -/
def TcpSession.step (i : Fin NET_MAX_CONNS) (s : TcpSession) : TcpEvent → TcpSession
  | .segment seg _ => { s with net := handleTcp s.net seg }
  | .recv len =>
    let r := tcpStreamRecv s.net len
    { net := r.2.2, drained := if s.net.stream = some i then s.drained ++ r.2.1 else s.drained }

/-- What connection `i` received so far. -/
def TcpSession.received (s : TcpSession) (i : Fin NET_MAX_CONNS) : List UInt8 :=
  s.drained ++ (s.net.conns i).rxBuf.slice 0 (s.net.conns i).rxLen

def streamPrefix (peer : Nat → UInt8) (k : Nat) : List UInt8 := (List.range k).map peer

/-- What was received is a prefix of the peer's stream, and just this prefix is acknowledged. -/
def TcpSession.Faithful (s : TcpSession) (i : Fin NET_MAX_CONNS) (peer : Nat → UInt8)
    (isn : UInt32) : Prop :=
  s.received i = streamPrefix peer (s.received i).length ∧
    (s.net.conns i).rcvNxt = isn + UInt32.ofNat (s.received i).length

/-- The segment carries the bytes of the peer's stream from position `pos` on. -/
def OfPeer (peer : Nat → UInt8) (isn : UInt32) (seg : TcpSegment) (pos : Nat) : Prop :=
  seg.seq = isn + UInt32.ofNat pos ∧ seg.payload = (List.range seg.payload.length).map fun j => peer (pos + j)

/-- A segment for connection `i` carries bytes of the peer's stream. -/
def TcpEvent.Genuine (i : Fin NET_MAX_CONNS) (peer : Nat → UInt8) (isn : UInt32) (s : TcpSession) : TcpEvent → Prop
  | .segment seg pos => demux s.net seg = some i → OfPeer peer isn seg pos
  | .recv _ => True

/-- In-order data for connection `i` fits into its buffer, and no segment is older or newer than the
data received by the whole range of sequence numbers. -/
def TcpEvent.Fits (i : Fin NET_MAX_CONNS) (s : TcpSession) : TcpEvent → Prop
  | .segment seg pos => demux s.net seg = some i → (seg.seq = (s.net.conns i).rcvNxt →
        (s.net.conns i).rxLen + seg.payload.length ≤ (s.net.conns i).rxCap) ∧
      pos < (s.received i).length + 2 ^ 32 ∧ (s.received i).length < pos + 2 ^ 32
  | .recv _ => True

instance (s : TcpSession) (i : Fin NET_MAX_CONNS) (peer : Nat → UInt8) (isn : UInt32) :
    Decidable (s.Faithful i peer isn) := inferInstanceAs (Decidable (_ ∧ _))

instance (peer : Nat → UInt8) (isn : UInt32) (seg : TcpSegment) (pos : Nat) :
    Decidable (OfPeer peer isn seg pos) := inferInstanceAs (Decidable (_ ∧ _))

instance (i : Fin NET_MAX_CONNS) (peer : Nat → UInt8) (isn : UInt32) (s : TcpSession) :
    (e : TcpEvent) → Decidable (e.Genuine i peer isn s)
  | .segment _ _ => inferInstanceAs (Decidable (_ → OfPeer _ _ _ _))
  | .recv _ => .isTrue trivial

instance (i : Fin NET_MAX_CONNS) (s : TcpSession) : (e : TcpEvent) → Decidable (e.Fits i s)
  | .segment _ _ => inferInstanceAs (Decidable (_ → (_ → _) ∧ _ ∧ _))
  | .recv _ => .isTrue trivial

/-! ### The receive buffer -/

section

lemma streamPrefix_add (peer : Nat → UInt8) (k m : Nat) :
    streamPrefix peer (k + m) = streamPrefix peer k ++ (List.range m).map fun j => peer (k + j) := by
  rw [streamPrefix, streamPrefix, range_add, map_append, map_map]
  rfl

lemma slice_append_data (b : Buf) (n : Nat) (l : List UInt8) :
    (b.blit n l.length (Buf.ofList l)).slice 0 (n + l.length) = b.slice 0 n ++ l := by
  have hold : (b.blit n l.length (Buf.ofList l)).slice 0 n = b.slice 0 n :=
    slice_congr fun k hk => blit_of_not_mem (by omega)
  have hnew : (b.blit n l.length (Buf.ofList l)).slice (0 + n) l.length = l := by
    rw [zero_add]
    exact slice_putList b n l
  rw [slice_append, hold, hnew]

lemma slice_drain (b : Buf) {n m : Nat} (h : n ≤ m) :
    b.slice 0 n ++ (if m - n > 0 then b.blit 0 (m - n) (fun k => b (n + k)) else b).slice 0 (m - n) = b.slice 0 m := by
  have hrest : (if m - n > 0 then b.blit 0 (m - n) (fun k => b (n + k)) else b).slice 0 (m - n) =
      b.slice (0 + n) (m - n) := by
    split_ifs with hpos
    · refine slice_congr fun k hk => ?_
      rw [blit_add hk, zero_add]
    · rw [show m - n = 0 by omega, slice_zero, slice_zero]
  rw [hrest, ← slice_append, show n + (m - n) = m by omega]

end

/-- The connection after `n` bytes were read from its buffer. -/
def TcpConn.read (c : TcpConn) (n : Nat) : TcpConn := { c with
  rxBuf := if c.rxLen - n > 0 then c.rxBuf.blit 0 (c.rxLen - n) (fun k => c.rxBuf (n + k)) else c.rxBuf
  rxLen := c.rxLen - n }

/-! ### Steps -/

/-- The receive side of a connection from which `drained` was taken. -/
structure ConnOk (peer : Nat → UInt8) (isn : UInt32) (drained : List UInt8) (c : TcpConn) : Prop where
  room : c.rxLen ≤ c.rxCap
  state : c.state ≠ .synSent
  data : c.state = .established → drained ++ c.rxBuf.slice 0 c.rxLen = streamPrefix peer (drained.length + c.rxLen) ∧
      c.rcvNxt = isn + UInt32.ofNat (drained.length + c.rxLen)

/-- A segment of the peer comes, its in-order data fits into the buffer, and it is neither older nor newer than the
data received by the whole range of sequence numbers. -/
structure Arrives (peer : Nat → UInt8) (isn : UInt32) (drained : List UInt8) (c : TcpConn) (seg : TcpSegment)
    (pos : Nat) : Prop where
  ofPeer : OfPeer peer isn seg pos
  fits : seg.seq = c.rcvNxt → c.rxLen + seg.payload.length ≤ c.rxCap
  new : pos < drained.length + c.rxLen + 2 ^ 32
  old : drained.length + c.rxLen < pos + 2 ^ 32

section steps

variable {peer : Nat → UInt8} {isn : UInt32} {drained : List UInt8} {c : TcpConn}
  {seg : TcpSegment} {pos : Nat}

/-- Two positions less than `2 ^ 32` apart with the same sequence number are the same. -/
lemma eq_of_seq_eq (isn : UInt32) {a b : Nat} (h : isn + UInt32.ofNat a = isn + UInt32.ofNat b)
    (h1 : a < b + 2 ^ 32) (h2 : b < a + 2 ^ 32) : a = b := by
  have hmod : a % 2 ^ 32 = b % 2 ^ 32 := by
    have := congrArg UInt32.toNat (add_left_cancel h)
    rwa [UInt32.toNat_ofNat', UInt32.toNat_ofNat'] at this
  omega

lemma acceptData_keeps (c : TcpConn) (seg : TcpSegment) :
    (acceptData c seg).1.state = c.state ∧ (acceptData c seg).1.inUse = c.inUse ∧ (acceptData c seg).1.rxCap = c.rxCap ∧
      (c.rxLen ≤ c.rxCap → (acceptData c seg).1.rxLen ≤ c.rxCap) := by
  by_cases hin : seg.payload.length > 0 ∧ seg.seq = c.rcvNxt
  · rw [VibeOS.acceptData, if_pos hin]
    dsimp only
    generalize hcopy : (if c.rxLen + seg.payload.length > c.rxCap then c.rxCap - c.rxLen
      else seg.payload.length) = copy
    by_cases hpos : copy > 0
    · rw [if_pos hpos]
      refine ⟨rfl, rfl, rfl, fun hroom => ?_⟩
      dsimp only
      split_ifs at hcopy <;> omega
    · rw [if_neg hpos]
      exact ⟨rfl, rfl, rfl, id⟩
  · rw [VibeOS.acceptData, if_neg hin]
    exact ⟨rfl, rfl, rfl, id⟩

lemma acceptData_stream (ha : Arrives peer isn drained c seg pos)
    (hdata : drained ++ c.rxBuf.slice 0 c.rxLen = streamPrefix peer (drained.length + c.rxLen))
    (hrcv : c.rcvNxt = isn + UInt32.ofNat (drained.length + c.rxLen)) :
    (acceptData c seg).1 = c ∧ (seg.seq = c.rcvNxt → drained.length + c.rxLen = pos + seg.payload.length) ∨
    (acceptData c seg).1.sndNxt = c.sndNxt ∧
    drained.length + (acceptData c seg).1.rxLen = pos + seg.payload.length ∧
    drained ++ (acceptData c seg).1.rxBuf.slice 0 (acceptData c seg).1.rxLen =
      streamPrefix peer (drained.length + (acceptData c seg).1.rxLen) ∧
    (acceptData c seg).1.rcvNxt = isn + UInt32.ofNat (drained.length + (acceptData c seg).1.rxLen) := by
  have hpos : seg.seq = c.rcvNxt → drained.length + c.rxLen = pos := by
    intro hseq
    refine (eq_of_seq_eq isn ?_ ha.new ha.old).symm
    rw [← ha.ofPeer.1, hseq, hrcv]
  by_cases hin : seg.payload.length > 0 ∧ seg.seq = c.rcvNxt
  · have hp := hpos hin.2
    have hroom := ha.fits hin.2
    rw [acceptData, if_pos hin, if_neg (by omega)]
    dsimp only
    rw [if_pos hin.1]
    refine .inr ⟨rfl, ?_, ?_, ?_⟩
    · dsimp only
      omega
    · rw [slice_append_data, ← append_assoc, hdata, ← add_assoc, hp, streamPrefix_add, ← ha.ofPeer.2]
    · rw [hrcv, add_assoc, ← UInt32.ofNat_add, add_assoc]
  · rw [acceptData, if_neg hin]
    refine .inl ⟨rfl, fun hseq => ?_⟩
    have : ¬ seg.payload.length > 0 := fun hlen => hin ⟨hlen, hseq⟩
    rw [hpos hseq]
    omega

lemma ConnOk.acceptData (h : ConnOk peer isn drained c) (ha : Arrives peer isn drained c seg pos) :
    ConnOk peer isn drained (acceptData c seg).1 := by
  obtain ⟨hstate, -, hcap, hroom⟩ := acceptData_keeps c seg
  refine ⟨hcap ▸ hroom h.room, hstate ▸ h.state, fun hest => ?_⟩
  obtain ⟨hdata, hrcv⟩ := h.data (hstate ▸ hest)
  rcases acceptData_stream ha hdata hrcv with ⟨hsame, -⟩ | ⟨-, -, hacc⟩
  · rw [hsame]
    exact ⟨hdata, hrcv⟩
  · exact hacc

lemma ConnOk.handleConn (h : ConnOk peer isn drained c) (ha : Arrives peer isn drained c seg pos) :
    ConnOk peer isn drained (handleConn c seg).1 := by
  have hacc := h.acceptData ha
  rw [VibeOS.handleConn]
  split_ifs with hrst hsyn hsynack hfin
  · exact ⟨h.room, by simp, fun hest => by cases hest⟩
  · exact absurd hsyn h.state
  · exact h
  · exact ⟨hacc.room, by simp, fun hest => by cases hest⟩
  · exact hacc

lemma length_read {n : Nat} (hn : n ≤ c.rxLen) :
    (drained ++ c.rxBuf.slice 0 n).length + (c.read n).rxLen = drained.length + c.rxLen := by
  rw [length_append, length_slice, TcpConn.read]
  dsimp only
  omega

lemma append_read {n : Nat} (hn : n ≤ c.rxLen) : drained ++ c.rxBuf.slice 0 n ++
    (c.read n).rxBuf.slice 0 (c.read n).rxLen = drained ++ c.rxBuf.slice 0 c.rxLen := by
  rw [append_assoc]
  exact congrArg (drained ++ ·) (slice_drain c.rxBuf hn)

lemma ConnOk.read (h : ConnOk peer isn drained c) {n : Nat} (hn : n ≤ c.rxLen) :
    ConnOk peer isn (drained ++ c.rxBuf.slice 0 n) (c.read n) := by
  refine ⟨le_trans (Nat.sub_le _ _) h.room, h.state, fun hest => ?_⟩
  rw [length_read hn, append_read hn]
  exact h.data hest

end steps

section runs

variable {peer : Nat → UInt8} {isn : UInt32} {i : Fin NET_MAX_CONNS} {s : TcpSession}

lemma length_received : (s.received i).length = s.drained.length + (s.net.conns i).rxLen := by
  rw [TcpSession.received, length_append, length_slice]

/-- A read changes nothing, or moves bytes out of the buffer of the stream connection. -/
lemma recv_cases (net : TcpNet) (len : Nat) : ((tcpStreamRecv net len).2.1 = [] ∧ (tcpStreamRecv net len).2.2 = net) ∨
    ∃ j n, net.stream = some j ∧ n ≤ (net.conns j).rxLen ∧ (tcpStreamRecv net len).2.1 = (net.conns j).rxBuf.slice 0 n ∧
      (tcpStreamRecv net len).2.2.conns = update net.conns j ((net.conns j).read n) := by
  rw [tcpStreamRecv]
  rcases net.stream with _ | j
  · exact .inl ⟨rfl, rfl⟩
  · dsimp only
    by_cases hlen : len = 0
    · rw [if_pos hlen]
      exact .inl ⟨rfl, rfl⟩
    · by_cases hpos : (net.conns j).rxLen > 0
      · rw [if_neg hlen, if_pos hpos]
        refine .inr ⟨j, _, rfl, ?_, rfl, rfl⟩
        split_ifs <;> omega
      · split_ifs <;> exact .inl ⟨rfl, rfl⟩

/-- What holds of the connection after an event, if segments for it and reads keep it. -/
lemma step_rule {P : List UInt8 → TcpConn → Prop} (h : P s.drained (s.net.conns i)) (e : TcpEvent)
    (hseg : ∀ seg pos, e = .segment seg pos → demux s.net seg = some i →
      P s.drained (handleConn (s.net.conns i) seg).1)
    (hread : ∀ n ≤ (s.net.conns i).rxLen,
      P (s.drained ++ (s.net.conns i).rxBuf.slice 0 n) ((s.net.conns i).read n)) :
    P (s.step i e).drained ((s.step i e).net.conns i) := by
  cases e with
  | segment seg pos =>
    rw [TcpSession.step, handleTcp]
    rcases hd : demux s.net seg with _ | j
    · exact h
    · dsimp only
      by_cases hj : i = j
      · subst hj
        rw [update_self]
        exact hseg seg pos rfl hd
      · rw [update_of_ne hj]
        exact h
  | recv len =>
    rcases recv_cases s.net len with h0 | ⟨j, n, hs, hn, h1, h2⟩
    · rw [TcpSession.step, h0.1, h0.2, append_nil, ite_self]
      exact h
    · rw [TcpSession.step, h1, h2, hs]
      by_cases hj : i = j
      · subst hj
        rw [if_pos rfl, update_self]
        exact hread n hn
      · rw [if_neg fun heq => hj (Option.some.inj heq).symm, update_of_ne hj]
        exact h

lemma connOk_step (h : ConnOk peer isn s.drained (s.net.conns i)) (e : TcpEvent)
    (hgen : e.Genuine i peer isn s) (hfits : e.Fits i s) :
    ConnOk peer isn (s.step i e).drained ((s.step i e).net.conns i) := by
  refine step_rule h e (fun seg pos he hd => ?_) fun n => h.read
  subst he
  obtain ⟨hroom, hnew, hold⟩ := hfits hd
  rw [length_received] at hnew hold
  exact h.handleConn ⟨hgen hd, hroom, hnew, hold⟩

/-- In every run on an established connection in which in-order data fits into the buffer, what was
drained and what is buffered is a prefix of the peer's stream, and `rcv_nxt` acknowledges exactly this
prefix for as long as the connection stays established. The buffer never overflows. -/
theorem run_tcp_prefix (i : Fin NET_MAX_CONNS) (peer : Nat → UInt8) (isn : UInt32) (net : TcpNet)
    (hstate : (net.conns i).state = .established)
    (hroom : (net.conns i).rxLen ≤ (net.conns i).rxCap)
    (hstart : TcpSession.Faithful ⟨net, []⟩ i peer isn) (events : List TcpEvent)
    (h : Along (TcpSession.step i) (fun s e => e.Genuine i peer isn s ∧ e.Fits i s)
      ⟨net, []⟩ events) :
    let s := run (TcpSession.step i) ⟨net, []⟩ events
    ((s.net.conns i).state = .established → s.Faithful i peer isn) ∧ (s.net.conns i).rxLen ≤ (s.net.conns i).rxCap := by
  have hok : ConnOk peer isn [] (net.conns i) := by
    refine ⟨hroom, by rw [hstate]; simp, fun _ => ?_⟩
    have h0 := hstart
    rw [TcpSession.Faithful, length_received] at h0
    exact h0
  have hrun := run_invariant (I := fun s : TcpSession => ConnOk peer isn s.drained (s.net.conns i)) (fun s e hs he =>
    connOk_step hs e he.1 he.2) (s := ⟨net, []⟩) hok h
  refine ⟨fun hest => ?_, hrun.room⟩
  rw [TcpSession.Faithful, length_received]
  exact hrun.data hest

/-- An established stream connection in slot 0 with a buffer of four bytes. -/
def smallNet : TcpNet where
  conns i := ⟨if i = 0 then .established else .closed, 1, 1, 2, 0, 100, Buf.zero, 4, 0, false, decide (i = 0)⟩
  sent := []
  stream := some 0

theorem run_tcp_prefix_reorder :
    let peer := fun k : Nat => UInt8.ofNat (k + 7)
    let s := run (TcpSession.step 0) ⟨smallNet, []⟩
      [.segment ⟨1, 2, 1, 103, TCP_ACK, [10, 11]⟩ 3, .segment ⟨1, 2, 1, 100, TCP_ACK, [7, 8, 9]⟩ 0,
        .recv 2, .segment ⟨1, 2, 1, 103, TCP_ACK, [10, 11]⟩ 3]
    s.received 0 = [7, 8, 9, 10, 11] ∧
    ((s.net.conns 0).state = .established → s.Faithful 0 peer 100) ∧ (s.net.conns 0).rxLen ≤ (s.net.conns 0).rxCap :=
  ⟨by decide, run_tcp_prefix 0 _ 100 smallNet (by decide) (by decide) (by decide) _ (by decide)⟩

/-- A segment of six bytes for a buffer of four is acknowledged as a whole. -/
theorem tcp_prefix_fails :
    let peer := fun k : Nat => UInt8.ofNat (k + 7)
    let e := TcpEvent.segment ⟨1, 2, 1, 100, TCP_ACK, [7, 8, 9, 10, 11, 12]⟩ 0
    let s := run (TcpSession.step 0) ⟨smallNet, []⟩ [e]
    e.Genuine 0 peer 100 ⟨smallNet, []⟩ ∧ TcpSession.Faithful ⟨smallNet, []⟩ 0 peer 100 ∧
      (s.net.conns 0).state = .established ∧ s.received 0 = [7, 8, 9, 10] ∧
      (s.net.conns 0).rcvNxt = 106 ∧ ¬ s.Faithful 0 peer 100 := by
  decide

end runs

/-! ### Any peer -/

lemma handleConn_keeps (c : TcpConn) (seg : TcpSegment) (hopen : c.state ≠ .closed) (hroom : c.rxLen ≤ c.rxCap) :
    (handleConn c seg).1.inUse = c.inUse ∧ (handleConn c seg).1.rxCap = c.rxCap ∧
      (handleConn c seg).1.state ≠ .closed ∧ (handleConn c seg).1.rxLen ≤ c.rxCap := by
  obtain ⟨hstate, huse, hcap, hlen⟩ := acceptData_keeps c seg
  rw [handleConn]
  by_cases hrst : seg.flags &&& TCP_RST ≠ 0
  · rw [if_pos hrst]
    exact ⟨rfl, rfl, by simp, hroom⟩
  · rw [if_neg hrst]
    by_cases hsyn : c.state = .synSent
    · split_ifs
      · exact ⟨rfl, rfl, by simp, hroom⟩
      · exact ⟨rfl, rfl, hopen, hroom⟩
    · split_ifs
      · exact ⟨huse, hcap, by simp, hlen hroom⟩
      · exact ⟨huse, hcap, hstate ▸ hopen, hlen hroom⟩

lemma demux_accepts {i : Fin NET_MAX_CONNS} {net : TcpNet} {seg : TcpSegment} (h : demux net seg = some i) :
    (net.conns i).inUse = true ∧ (net.conns i).state ≠ .closed := by
  have haccepts := find?_some h
  rw [TcpConn.accepts] at haccepts
  simp only [Bool.and_eq_true, decide_eq_true_eq] at haccepts
  exact ⟨haccepts.1.1.1.1, haccepts.1.1.1.2⟩

lemma handleConn_grows (c : TcpConn) (seg : TcpSegment) :
    c.rxBuf.slice 0 c.rxLen <+: (handleConn c seg).1.rxBuf.slice 0 (handleConn c seg).1.rxLen := by
  have hput (n : Nat) (src : Buf) : c.rxBuf.slice 0 c.rxLen <+: (c.rxBuf.blit c.rxLen n src).slice 0 (c.rxLen + n) := by
    have hold : (c.rxBuf.blit c.rxLen n src).slice 0 c.rxLen = c.rxBuf.slice 0 c.rxLen :=
      slice_congr fun k hk => blit_of_not_mem (by omega)
    rw [slice_append, hold]
    exact prefix_append _ _
  unfold handleConn acceptData
  dsimp only
  split_ifs <;> first | exact hput _ _ | exact prefix_rfl

/-- Whatever segments come, from whomever and in whatever order, and whatever is read: bytes once received are neither
lost nor changed, new ones come behind them, and the buffer does not overflow. -/
theorem run_received_grows (i : Fin NET_MAX_CONNS) (s : TcpSession) (events : List TcpEvent) :
    let t := run (TcpSession.step i) s events
    s.received i <+: t.received i ∧
      ((s.net.conns i).rxLen ≤ (s.net.conns i).rxCap → (t.net.conns i).rxLen ≤ (t.net.conns i).rxCap) := by
  refine foldlRecOn (motive := fun t : TcpSession => s.received i <+: t.received i ∧
    (_ → (t.net.conns i).rxLen ≤ (t.net.conns i).rxCap)) events _ ⟨prefix_rfl, id⟩ fun t ht e _ => ?_
  refine And.imp ht.1.trans (· ∘ ht.2) (step_rule (P := fun l c => t.received i <+: l ++ c.rxBuf.slice 0 c.rxLen ∧
    ((t.net.conns i).rxLen ≤ (t.net.conns i).rxCap → c.rxLen ≤ c.rxCap)) ⟨prefix_rfl, id⟩ e (fun seg _ _ hd => ?_)
    fun n hn => ?_)
  · refine ⟨(prefix_append_right_inj _).mpr (handleConn_grows _ _), fun h => ?_⟩
    obtain ⟨-, hcap, -, hlen⟩ := handleConn_keeps _ seg (demux_accepts hd).2 h
    rwa [hcap]
  · rw [append_assoc, TcpConn.read, slice_drain _ hn]
    exact ⟨prefix_rfl, (Nat.sub_le _ _).trans⟩

end VibeOS
