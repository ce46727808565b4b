import VibeOS.Net.Http

/-!
# The end of a peer's stream

The peer's stream has `total` bytes and a FIN behind them. `handle_tcp` takes a FIN wherever it stands in
the sequence space and however often it comes. `InOrder` is the condition under which that does no harm:
each FIN that reaches the connection comes first and in order.

* `run_stream_end`: then the connection is done only with the whole stream accepted, the FIN is counted
  once on either side, and `tcp_stream_recv` and the loop of `net_http_get` see the end only behind the
  last byte.
-/

namespace VibeOS

open Buf List Function

/-- A segment for connection `i` belongs to a stream of `total` bytes that ends with a FIN. -/
def TcpEvent.OfStream (i : Fin NET_MAX_CONNS) (peer : Nat → UInt8) (isn : UInt32) (total : Nat)
    (s : TcpSession) : TcpEvent → Prop
  | .segment seg pos => demux s.net seg = some i →
      OfPeer peer isn seg pos ∧ pos + seg.payload.length ≤ total ∧ seg.flags &&& TCP_RST = 0 ∧
        (seg.flags &&& TCP_FIN ≠ 0 → pos + seg.payload.length = total)
  | .recv _ => True

/-- In-order data fits into the buffer, sequence numbers do not wrap around within the stream, and a FIN
comes in order, to a connection that has seen none. -/
def TcpEvent.InOrder (i : Fin NET_MAX_CONNS) (s : TcpSession) : TcpEvent → Prop
  | .segment seg pos => demux s.net seg = some i → (seg.seq = (s.net.conns i).rcvNxt →
        (s.net.conns i).rxLen + seg.payload.length ≤ (s.net.conns i).rxCap) ∧
      pos < (s.received i).length + 2 ^ 32 ∧ (s.received i).length + 1 < pos + 2 ^ 32 ∧
      (seg.flags &&& TCP_FIN ≠ 0 → (s.net.conns i).state = .established ∧ seg.seq = (s.net.conns i).rcvNxt)
  | .recv _ => True

instance TcpEvent.decidableOfStream (i : Fin NET_MAX_CONNS) (peer : Nat → UInt8) (isn : UInt32)
    (total : Nat) (s : TcpSession) : (e : TcpEvent) → Decidable (e.OfStream i peer isn total s)
  | .segment _ _ => inferInstanceAs (Decidable (_ → _ ∧ _ ∧ _ ∧ (_ → _)))
  | .recv _ => .isTrue trivial

instance TcpEvent.decidableInOrder (i : Fin NET_MAX_CONNS) (s : TcpSession) : (e : TcpEvent) → Decidable (e.InOrder i s)
  | .segment _ _ => inferInstanceAs (Decidable (_ → (_ → _) ∧ _ ∧ _ ∧ (_ → _ ∧ _)))
  | .recv _ => .isTrue trivial

/-- The receive side of a connection to a peer whose stream has `total` bytes; `snd` is the number it sends
next before the end. -/
structure StreamOk (peer : Nat → UInt8) (isn : UInt32) (total : Nat) (snd : UInt32)
    (drained : List UInt8) (c : TcpConn) : Prop where
  state : c.state = .established ∨ c.state = .done
  «open» : c.state = .established →
    drained ++ c.rx = streamPrefix peer (drained.length + c.rxLen) ∧ drained.length + c.rxLen ≤ total ∧
      c.rcvNxt = isn + UInt32.ofNat (drained.length + c.rxLen) ∧ c.sndNxt = snd
  done : c.state = .done → drained ++ c.rx = streamPrefix peer total ∧ drained.length + c.rxLen = total ∧
    c.rcvNxt = isn + UInt32.ofNat (total + 1) ∧ c.sndNxt = snd + 1

section steps

variable {peer : Nat → UInt8} {isn snd : UInt32} {total : Nat} {drained : List UInt8} {c : TcpConn}
  {seg : TcpSegment} {pos : Nat}

section

variable (h : StreamOk peer isn total snd drained c)

include h

lemma StreamOk.acceptOpen (hest : c.state = .established)
    (ha : Arrives peer isn drained c seg pos) (hend : pos + seg.payload.length ≤ total) :
    StreamOk peer isn total snd drained (acceptData c seg).1 ∧ (acceptData c seg).1.state = .established ∧
      (seg.seq = c.rcvNxt → drained.length + (acceptData c seg).1.rxLen = pos + seg.payload.length) := by
  obtain ⟨hdata, hle, hrcv, hsnd⟩ := h.open hest
  have hest' := (acceptData_keeps c seg).1.trans hest
  rcases acceptData_stream ha hdata hrcv with ⟨hsame, hlen⟩ | ⟨hsnd', hlen, hdata', hrcv'⟩
  · rw [hsame]
    exact ⟨h, hest, hlen⟩
  · refine ⟨⟨.inl hest', fun _ => ⟨hdata', by omega, hrcv', hsnd'.trans hsnd⟩, fun hd => ?_⟩, hest', fun _ => hlen⟩
    rw [hest'] at hd
    cases hd

lemma StreamOk.handleConn (ha : Arrives peer isn drained c seg pos)
    (hend : pos + seg.payload.length ≤ total) (hrst : seg.flags &&& TCP_RST = 0)
    (hfin : seg.flags &&& TCP_FIN ≠ 0 → pos + seg.payload.length = total)
    (hold : drained.length + c.rxLen + 1 < pos + 2 ^ 32)
    (hfirst : seg.flags &&& TCP_FIN ≠ 0 → c.state = .established ∧ seg.seq = c.rcvNxt) :
    StreamOk peer isn total snd drained (handleConn c seg).1 := by
  have hsyn : c.state ≠ .synSent := by
    rcases h.state with hs | hs <;> rw [hs] <;> decide
  rw [VibeOS.handleConn, if_neg (by simpa using hrst), if_neg hsyn]
  rcases h.state with hest | hdone
  · obtain ⟨hacc, hest', hlen⟩ := h.acceptOpen hest ha hend
    obtain ⟨hdata, -, hrcv, hsnd⟩ := hacc.open hest'
    dsimp only
    split_ifs with hf
    · -- the FIN stands right behind what was accepted, which is then the whole stream
      have hall : drained.length + (acceptData c seg).1.rxLen = total := by
        rw [hlen (hfirst hf).2, hfin hf]
      refine ⟨.inr rfl, fun hs => (by cases hs), fun _ => ⟨?_, hall, ?_, ?_⟩⟩
      · rw [← hall]
        exact hdata
      · rw [hrcv, hall, UInt32.ofNat_add, ← add_assoc]
        rfl
      · rw [hsnd]
    · exact hacc
  · obtain ⟨hdata, hlen, hrcv, hsnd⟩ := h.done hdone
    have hnofin : ¬ seg.flags &&& TCP_FIN ≠ 0 := by
      intro hf
      have := (hfirst hf).1
      rw [hdone] at this
      cases this
    have hstale : ¬ (seg.payload.length > 0 ∧ seg.seq = c.rcvNxt) := by
      rintro ⟨hpay, hseq⟩
      have := eq_of_seq_eq isn (a := pos) (b := total + 1) (by rw [← ha.ofPeer.1, hseq, hrcv])
        (by omega) (by omega)
      omega
    have hacc : acceptData c seg = (c, []) := by
      rw [acceptData, if_neg hstale]
    dsimp only
    rw [hacc, if_neg hnofin]
    exact h

lemma StreamOk.read {n : Nat} (hn : n ≤ c.rxLen) :
    StreamOk peer isn total snd (drained ++ c.rxBuf.slice 0 n) (c.read n) := by
  refine ⟨h.state, fun hs => ?_, fun hs => ?_⟩
  · rw [TcpConn.rx, length_read hn, append_read hn]
    exact h.open hs
  · rw [TcpConn.rx, length_read hn, append_read hn]
    exact h.done hs

end

lemma streamOk_step {i : Fin NET_MAX_CONNS} {s : TcpSession}
    (h : StreamOk peer isn total snd s.drained (s.net.conns i)) (e : TcpEvent)
    (hof : e.OfStream i peer isn total s) (hord : e.InOrder i s) :
    StreamOk peer isn total snd (s.step i e).drained ((s.step i e).net.conns i) := by
  refine step_rule h e (fun seg pos he hd => ?_) fun n => h.read
  subst he
  obtain ⟨hpeer, hend, hrst, hfin⟩ := hof hd
  obtain ⟨hroom, hnew, hold, hfirst⟩ := hord hd
  rw [length_received] at hnew hold
  exact h.handleConn ⟨hpeer, hroom, hnew, by omega⟩ hend hrst hfin hold hfirst

end steps

/-- `tcp_stream_recv` returns 0 only for a connection that is done, with an empty buffer. -/
lemma recv_zero {net : TcpNet} {i : Fin NET_MAX_CONNS} (hs : net.stream = some i) {len : Nat}
    (h : (tcpStreamRecv net len).1 = 0) : (net.conns i).state = .done ∧ (net.conns i).rxLen = 0 := by
  rw [tcpStreamRecv, hs] at h
  dsimp only at h
  by_cases hlen : len = 0
  · rw [if_pos hlen] at h
    cases h
  by_cases hpos : (net.conns i).rxLen > 0
  · rw [if_neg hlen, if_pos hpos] at h
    dsimp only at h
    have : (if (net.conns i).rxLen > len then len else (net.conns i).rxLen) = 0 := by exact_mod_cast h
    split_ifs at this <;> omega
  rw [if_neg hlen, if_neg hpos] at h
  by_cases hdone : (net.conns i).state = .done
  · exact ⟨hdone, by omega⟩
  · rw [if_neg hdone] at h
    cases h

lemma httpPass_closed {c : TcpConn} (h : httpPass c = some .closed) : c.state = .done := by
  rw [httpPass] at h
  split_ifs at h with h1 h2 h3
  · cases h
  · exact h2
  · cases h

/-- In every run of segments of one stream whose FIN comes in order and once, the connection leaves the established
state only with the whole stream accepted; `tcp_stream_recv` returns 0, and the loop of `net_http_get` stops at the
peer's close, only with the whole stream read. -/
theorem run_stream_end (i : Fin NET_MAX_CONNS) (peer : Nat → UInt8) (isn : UInt32) (total : Nat)
    (net : TcpNet) (hstate : (net.conns i).state = .established)
    (hstart : TcpSession.Faithful ⟨net, []⟩ i peer isn) (hlen : (net.conns i).rxLen ≤ total)
    (events : List TcpEvent)
    (h : Along (TcpSession.step i) (fun s e => e.OfStream i peer isn total s ∧ e.InOrder i s)
      ⟨net, []⟩ events) :
    let s := run (TcpSession.step i) ⟨net, []⟩ events
    ((s.net.conns i).state ≠ .established → s.received i = streamPrefix peer total ∧
      (s.net.conns i).rcvNxt = isn + UInt32.ofNat (total + 1) ∧
      (s.net.conns i).sndNxt = (net.conns i).sndNxt + 1) ∧
    (s.net.stream = some i → ∀ len, (tcpStreamRecv s.net len).1 = 0 → s.drained = streamPrefix peer total) ∧
    (s.drained = [] → httpPass (s.net.conns i) = some .closed → (s.net.conns i).rx = streamPrefix peer total) := by
  have hok : StreamOk peer isn total (net.conns i).sndNxt [] (net.conns i) := by
    refine ⟨.inl hstate, fun _ => ?_, fun hd => by rw [hstate] at hd; cases hd⟩
    have h₀ := hstart
    rw [TcpSession.Faithful, length_received] at h₀
    exact ⟨h₀.1, by simpa using hlen, h₀.2, rfl⟩
  have hrun := run_invariant
    (I := fun s : TcpSession =>
      StreamOk peer isn total (net.conns i).sndNxt s.drained (s.net.conns i))
    (fun s e hs he => streamOk_step hs e he.1 he.2) (s := ⟨net, []⟩) hok h
  intro s
  refine ⟨fun hne => ?_, fun hs len h0 => ?_, fun hd hstop => ?_⟩
  · obtain ⟨hdata, -, hrcv, hsnd⟩ := hrun.done (hrun.state.resolve_left hne)
    exact ⟨hdata, hrcv, hsnd⟩
  · obtain ⟨hdone, hempty⟩ := recv_zero hs h0
    obtain ⟨hdata, -⟩ := hrun.done hdone
    rw [TcpConn.rx, hempty, slice_zero, append_nil] at hdata
    exact hdata
  · obtain ⟨hdata, -⟩ := hrun.done (httpPass_closed hstop)
    rw [hd, nil_append] at hdata
    exact hdata

theorem run_stream_end_reorder :
    let peer := fun k : Nat => UInt8.ofNat (k + 7)
    let s := run (TcpSession.step 0) ⟨smallNet, []⟩
      [.segment ⟨1, 2, 1, 102, TCP_ACK, [9]⟩ 2, .segment ⟨1, 2, 1, 100, TCP_ACK, [7, 8]⟩ 0, .recv 1,
        .segment ⟨1, 2, 1, 102, TCP_ACK ||| TCP_FIN, [9]⟩ 2, .recv 9]
    ((s.net.conns 0).state ≠ .established → s.received 0 = streamPrefix peer 3 ∧
      (s.net.conns 0).rcvNxt = 100 + UInt32.ofNat (3 + 1) ∧ (s.net.conns 0).sndNxt = 0 + 1) ∧
    (s.net.stream = some 0 → ∀ len, (tcpStreamRecv s.net len).1 = 0 → s.drained = streamPrefix peer 3) ∧
    (s.drained = [] → httpPass (s.net.conns 0) = some .closed → (s.net.conns 0).rx = streamPrefix peer 3) :=
  run_stream_end 0 _ 100 3 smallNet (by decide) (by decide) (by decide) _ (by decide)

/-- The FIN overtakes the last data segment: the connection is done after two of three bytes, and the
repeated FIN counts again. -/
theorem stream_end_fails :
    let peer := fun k : Nat => UInt8.ofNat (k + 7)
    let fin : TcpEvent := .segment ⟨1, 2, 1, 103, TCP_ACK ||| TCP_FIN, []⟩ 3
    let s := run (TcpSession.step 0) ⟨smallNet, []⟩ [.segment ⟨1, 2, 1, 100, TCP_ACK, [7, 8]⟩ 0, fin]
    let s' := run (TcpSession.step 0) s [fin]
    Along (TcpSession.step 0) (fun s e => e.OfStream 0 peer 100 3 s) ⟨smallNet, []⟩
      [.segment ⟨1, 2, 1, 100, TCP_ACK, [7, 8]⟩ 0, fin, fin] ∧
    (s.net.conns 0).state = .done ∧ s.received 0 = [7, 8] ∧ (tcpStreamRecv (s.step 0 (.recv 2)).net 1).1 = 0 ∧
      (s'.net.conns 0).rcvNxt = (s.net.conns 0).rcvNxt + 1 ∧
      (s'.net.conns 0).sndNxt = (s.net.conns 0).sndNxt + 1 := by
  decide

end VibeOS
