import VibeOS.Net.Http

/-!
# Requests over one kept connection

`HttpClient` is the connection that a sequence of `net_http_get` calls uses for one peer. A call takes the idle
connection or opens one, sends its request, and then looks at what was received in pass after pass
(`httpPass`) until the response is complete, the peer closed, the buffer is full or the time is over; then the
connection is pooled or torn down. The peer owes, on each connection, the responses to the requests in order:
`stream` is what it has to send so far, and a segment carries a part of it.

After a timeout `net_http_get` pools the connection with the response outstanding (`keep_alive_fails`); else a call
returns a prefix of its own response (`run_keep_alive`).
-/

namespace VibeOS

open Buf List

/-! ### The client -/

/-- The connection used for one peer, the call inside it, and, for stating results, what the peer owes on the
connection, how much of it was acknowledged, and what each call returned next to its own response. -/
structure HttpClient where
  conn : TcpConn
  idle : Bool
  busy : Bool
  wantClose : Bool
  isn : UInt32
  stream : List UInt8
  resp : List UInt8
  acked : Nat
  returned : List (List UInt8 × List UInt8)

/-- A call with a buffer of `cap` bytes sends a request of `rlen` bytes that the peer answers by `resp` (`isn` numbers
the peer's first byte if a connection is opened); a segment arrives, from byte `pos` of what the peer owes; the call
makes a pass; its time is over; another request takes the slot. -/
inductive HttpEvent where
  | call (cap : Nat) (out : Buf) (rlen : Nat) (isn : UInt32) (resp : List UInt8)
  | segment (seg : TcpSegment) (pos : Nat)
  | pass
  | timeout
  | evict

namespace HttpClient

variable (s : HttpClient)

/-- Start a call over the idle connection.
Source: `kernel/src/net.c` `tcp_find_idle`, `net_http_get` -/
def reuse (cap : Nat) (out : Buf) (rlen : Nat) (resp : List UInt8) : HttpClient :=
  { s with
    conn := { s.conn with
      rxBuf := out, rxCap := cap, rxLen := 0, sndNxt := s.conn.sndNxt + UInt32.ofNat rlen }
    idle := false
    busy := true
    wantClose := false
    stream := s.stream ++ resp
    resp := resp }

/-- Start a call over a new connection, after the handshake.
Source: `kernel/src/net.c` `tcp_alloc`, `net_http_get` -/
def connect (cap : Nat) (out : Buf) (rlen : Nat) (isn : UInt32) (resp : List UInt8) : HttpClient :=
  { s with
    conn := { s.conn with
      state := .established, sndNxt := 0x2001 + UInt32.ofNat rlen, rcvNxt := isn, rxBuf := out
      rxCap := cap, rxLen := 0, peerFin := false, inUse := true }
    idle := false
    busy := true
    wantClose := false
    isn := isn
    stream := resp
    resp := resp
    acked := 0 }

/-- The slot is free.
Source: `kernel/src/net.c` `tcp_free` -/
def free : HttpClient :=
  { s with conn := { s.conn with inUse := false, state := .closed, rxBuf := Buf.zero }, idle := false }

/-- The end of a call: the connection is pooled or torn down.
Source: `kernel/src/net.c` `net_http_get` -/
def finish (wantClose : Bool) : HttpClient :=
  let s1 := { s with busy := false, returned := s.returned ++ [(s.conn.rx, s.resp)] }
  if wantClose = false ∧ s.conn.state = .established then
    { s1 with conn := { s.conn with rxBuf := Buf.zero, rxCap := 0, rxLen := 0 }, idle := true }
  else s1.free

/-- The segment carries the next bytes of the connection. -/
def takes (seg : TcpSegment) : Bool :=
  decide (s.conn.state = .established) && decide (seg.payload.length > 0) && decide (seg.seq = s.conn.rcvNxt)

def step : HttpEvent → HttpClient
  | .call cap out rlen isn resp =>
    -- calls come one after the other, and `out_cap <= 0` is refused
    if s.busy ∨ cap = 0 then s
    else if s.conn.inUse ∧ s.idle ∧ s.conn.state = .established then s.reuse cap out rlen resp
    else s.connect cap out rlen isn resp
  | .segment seg _ =>
    if s.conn.inUse ∧ s.conn.state ≠ .closed then
      { s with
        conn := (handleConn s.conn seg).1
        acked := if s.takes seg then s.acked + seg.payload.length else s.acked }
    else s
  | .pass =>
    if s.busy then
      match httpPass s.conn with
      | some (.complete wantClose) => s.finish wantClose
      | some _ => s.finish true
      | none => { s with wantClose := (httpResponseComplete s.conn.rx).2 }
    else s
  | .timeout => if s.busy then s.finish s.wantClose else s
  | .evict => if s.idle then s.free else s

def start : HttpClient where
  conn := ⟨.closed, 0, 0xD100, 80, 0, 0, Buf.zero, 0, 0, false, false⟩
  idle := false
  busy := false
  wantClose := false
  isn := 0
  stream := []
  resp := []
  acked := 0
  returned := []

end HttpClient

/-! ### The peer and the condition -/

/-- A response framed by `Content-Length`, as the parser reads the field: the first `content-length:` of the
header block gives the length of the body, which is below `2 ^ 63`. -/
def Framed (resp : List UInt8) : Prop :=
  ∃ h ∈ headerEnd resp, h + 4 ≤ resp.length ∧ contentLength resp h = some ((resp.length - (h + 4) : Nat) : Int)

/-- Responses are framed; a segment carries a part of what the peer owes and does not end the connection; it is
not older or newer than the data acknowledged by the whole range of sequence numbers. -/
def HttpEvent.OfServer (s : HttpClient) : HttpEvent → Prop
  | .call _ _ _ _ resp => Framed resp
  | .segment seg pos => s.conn.inUse →
      seg.flags &&& TCP_RST = 0 ∧ seg.flags &&& TCP_FIN = 0 ∧ seg.seq = s.isn + UInt32.ofNat pos ∧
        seg.payload <+: s.stream.drop pos ∧ pos < s.acked + 2 ^ 32 ∧ s.acked < pos + 2 ^ 32
  | _ => True

/-- A call whose time is over does not pool the connection, or its response is complete. -/
def HttpEvent.InTime (s : HttpClient) : HttpEvent → Prop
  | .timeout => s.busy → s.wantClose = true ∨ (httpResponseComplete s.conn.rx).1 = true
  | _ => True

instance Framed.instDecidable (resp : List UInt8) : Decidable (Framed resp) :=
  inferInstanceAs (Decidable (∃ h ∈ headerEnd resp, _ ∧ _))

instance HttpEvent.decidableOfServer (s : HttpClient) : (e : HttpEvent) → Decidable (e.OfServer s)
  | .call _ _ _ _ _ => inferInstanceAs (Decidable (Framed _))
  | .segment _ _ => inferInstanceAs (Decidable (_ → _))
  | .pass | .timeout | .evict => .isTrue trivial

instance HttpEvent.decidableInTime (s : HttpClient) : (e : HttpEvent) → Decidable (e.InTime s)
  | .timeout => inferInstanceAs (Decidable (_ → _))
  | .call _ _ _ _ _ | .segment _ _ | .pass | .evict => .isTrue trivial

/-! ### The parser on a part of a response -/

section

variable {r : List UInt8} {k : Nat}

lemma drop_take_take {i m : Nat} (h : i + m ≤ k) : ((r.take k).drop i).take m = (r.drop i).take m := by
  rw [drop_take, take_take, Nat.min_eq_left (by omega)]

/-- The end of the header block of a part of a response is that of the response. -/
lemma headerEnd_take {h : Nat} (hend : headerEnd (r.take k) = some h) :
    headerEnd r = some h ∧ h + 4 ≤ min k r.length := by
  rw [headerEnd, find?_range_eq_some] at hend ⊢
  obtain ⟨hmatch, hmem, hfirst⟩ := hend
  rw [mem_range, length_take] at hmem
  refine ⟨⟨?_, mem_range.mpr (by omega), fun j hj => ?_⟩, by omega⟩
  · rwa [drop_take_take (by omega)] at hmatch
  · have := hfirst j hj
    rwa [drop_take_take (by omega)] at this

lemma ciFind_take {n : Nat} (h : n ≤ k) (needle : List UInt8) : ciFind (r.take k) n needle = ciFind r n needle := by
  refine find?_congr fun i hi => ?_
  rw [mem_range] at hi
  rw [drop_take_take (by omega)]

lemma contentLength_take {h : Nat} (hk : h ≤ k) : contentLength (r.take k) h = contentLength r h := by
  rw [contentLength, contentLength, ciFind_take hk, take_take, Nat.min_eq_left hk]

lemma Framed.whole (hr : Framed r) (hcomplete : (httpResponseComplete (r.take k)).1 = true) : r.length ≤ k := by
  obtain ⟨h, hh, hlen, hcl⟩ := hr
  rw [httpResponseComplete] at hcomplete
  cases hend : headerEnd (r.take k) with
  | none =>
    rw [hend] at hcomplete
    cases hcomplete
  | some h' =>
    obtain ⟨hfull, hle⟩ := headerEnd_take hend
    obtain rfl : h' = h := Option.some.inj (hfull.symm.trans hh)
    rw [hend] at hcomplete
    dsimp only at hcomplete
    split at hcomplete
    · cases hcomplete
    · rw [contentLength_take (by omega), hcl] at hcomplete
      have := of_decide_eq_true hcomplete
      rw [length_take] at this
      omega

end

/-! ### The invariant -/

/-- The call inside the connection has received the beginning of its response, after everything before it was
acknowledged; data is lost only when the buffer is full. -/
structure HttpClient.Receiving (s : HttpClient) : Prop where
  rx : s.conn.rx = s.resp.take s.conn.rxLen
  position : ∃ before, s.stream = before ++ s.resp ∧ before.length + s.conn.rxLen ≤ s.acked ∧
    (s.conn.rxLen < s.conn.rxCap → before.length + s.conn.rxLen = s.acked)

/-- Nothing is outstanding, and the last call returned its whole response. -/
structure HttpClient.Settled (s : HttpClient) : Prop where
  acked : s.acked = s.stream.length
  last : s.returned.getLast? = some (s.resp, s.resp)

/-- What holds between the events. -/
structure HttpClient.ClientOk (s : HttpClient) : Prop where
  room : s.conn.rxLen ≤ s.conn.rxCap
  returned : ∀ r ∈ s.returned, r.1 <+: r.2
  stream : s.conn.inUse → s.conn.state = .established ∧
    s.conn.rcvNxt = s.isn + UInt32.ofNat s.acked ∧ s.acked ≤ s.stream.length
  inside : s.busy → s.conn.inUse ∧ Framed s.resp ∧ s.Receiving
  pooled : s.idle → s.busy = false ∧ s.conn.inUse ∧ s.Settled

namespace HttpClient

section steps

variable {s : HttpClient} {seg : TcpSegment}

lemma clientOk_start : ClientOk start :=
  ⟨le_rfl, fun _ h => absurd h not_mem_nil, fun h => absurd h (by decide),
    fun h => absurd h (by decide), fun h => absurd h (by decide)⟩

lemma rx_empty (c : TcpConn) (h : c.rxLen = 0) : c.rx = [] := by
  rw [TcpConn.rx, h, slice_zero]

lemma ClientOk.reuse (h : s.ClientOk) (hin : s.conn.inUse) (hidle : s.idle) (cap : Nat) (out : Buf)
    (rlen : Nat) {resp : List UInt8} (hresp : Framed resp) : (s.reuse cap out rlen resp).ClientOk := by
  obtain ⟨hstate, hrcv, hle⟩ := h.stream hin
  obtain ⟨_, _, hset⟩ := h.pooled hidle
  refine ⟨Nat.zero_le cap, h.returned, fun _ => ⟨hstate, hrcv, ?_⟩, fun _ => ⟨hin, hresp, ?_⟩, fun hi => nomatch hi⟩
  · change s.acked ≤ (s.stream ++ resp).length
    rw [length_append]
    omega
  · exact ⟨rx_empty _ rfl, s.stream, rfl, hset.acked.ge, fun _ => hset.acked.symm⟩

lemma ClientOk.connect (h : s.ClientOk) (cap : Nat) (out : Buf) (rlen : Nat) (isn : UInt32)
    {resp : List UInt8} (hresp : Framed resp) : (s.connect cap out rlen isn resp).ClientOk := by
  refine ⟨Nat.zero_le cap, h.returned, fun _ => ⟨rfl, ?_, Nat.zero_le _⟩, fun _ => ⟨rfl, hresp, ?_⟩,
    fun hi => nomatch hi⟩
  · change isn = isn + 0
    rw [UInt32.add_zero]
  · exact ⟨rx_empty _ rfl, [], rfl, le_rfl, fun _ => rfl⟩

lemma ClientOk.free (h : s.ClientOk) (hbusy : s.busy = false) : s.free.ClientOk :=
  ⟨h.room, h.returned, (fun hi => nomatch hi), fun hb => absurd (hbusy.symm.trans hb) Bool.false_ne_true,
    fun hi => nomatch hi⟩

/-- What was received is a prefix of the response; if the parser calls it complete, it is the response and nothing
is outstanding. -/
lemma ClientOk.whole (h : s.ClientOk) (hbusy : s.busy) (hcomplete : (httpResponseComplete s.conn.rx).1 = true) :
    s.conn.rx = s.resp ∧ s.acked = s.stream.length := by
  obtain ⟨hin, hframed, hrec⟩ := h.inside hbusy
  obtain ⟨_, _, hle⟩ := h.stream hin
  obtain ⟨before, hstream, hacked, _⟩ := hrec.position
  rw [hstream, length_append] at hle
  rw [hrec.rx] at hcomplete ⊢
  have hlen := hframed.whole hcomplete
  refine ⟨take_of_length_le hlen, ?_⟩
  rw [hstream, length_append]
  omega

lemma ClientOk.finish (h : s.ClientOk) (hbusy : s.busy) {wantClose : Bool}
    (hclose : wantClose ∨ (httpResponseComplete s.conn.rx).1 = true) : (s.finish wantClose).ClientOk := by
  obtain ⟨hin, hframed, hrec⟩ := h.inside hbusy
  obtain ⟨hstate, hrcv, hle⟩ := h.stream hin
  have hprefix : ∀ r ∈ s.returned ++ [(s.conn.rx, s.resp)], r.1 <+: r.2 := by
    intro r hr
    rcases mem_append.mp hr with hr | hr
    · exact h.returned r hr
    · rw [mem_singleton.mp hr]
      rw [hrec.rx]
      exact take_prefix _ _
  rw [HttpClient.finish]
  by_cases hpool : wantClose = false ∧ s.conn.state = .established
  · rw [if_pos hpool]
    have hcomplete : (httpResponseComplete s.conn.rx).1 = true := by
      rcases hclose with hc | hc
      · rw [hpool.1] at hc
        cases hc
      · exact hc
    obtain ⟨hwhole, hacked⟩ := h.whole hbusy hcomplete
    refine ⟨le_rfl, hprefix, fun _ => ⟨hstate, hrcv, hle⟩, (fun hb => nomatch hb), fun _ => ⟨rfl, hin, hacked, ?_⟩⟩
    rw [getLast?_append, hwhole]
    rfl
  · rw [if_neg hpool]
    exact ⟨h.room, hprefix, (fun hi => nomatch hi), (fun hb => nomatch hb), fun hi => nomatch hi⟩

/-- In-order data is put behind the bytes received, as far as there is room. -/
lemma acceptData_cut {c : TcpConn} (hpay : seg.payload.length > 0)
    (hseq : seg.seq = c.rcvNxt) (hroom : c.rxLen ≤ c.rxCap) :
    ∃ copy, copy = min seg.payload.length (c.rxCap - c.rxLen) ∧
      (acceptData c seg).1.rxLen = c.rxLen + copy ∧ (acceptData c seg).1.rxCap = c.rxCap ∧
      (acceptData c seg).1.rcvNxt = c.rcvNxt + UInt32.ofNat seg.payload.length ∧
      (acceptData c seg).1.rx = c.rx ++ seg.payload.take copy := by
  rw [acceptData, if_pos ⟨hpay, hseq⟩]
  dsimp only
  generalize hcopy : (if c.rxLen + seg.payload.length > c.rxCap then c.rxCap - c.rxLen
    else seg.payload.length) = copy
  have hmin : copy = min seg.payload.length (c.rxCap - c.rxLen) := by
    rw [← hcopy]
    split_ifs <;> omega
  refine ⟨copy, hmin, ?_⟩
  by_cases hpos : copy > 0
  · rw [if_pos hpos]
    refine ⟨rfl, rfl, rfl, ?_⟩
    have hlen : (seg.payload.take copy).length = copy := by
      rw [length_take]
      omega
    have hblit : c.rxBuf.blit c.rxLen copy (Buf.ofList seg.payload) =
        c.rxBuf.blit c.rxLen (seg.payload.take copy).length (Buf.ofList (seg.payload.take copy)) := by
      rw [hlen]
      refine blit_congr fun k hk => ?_
      rw [Buf.ofList, Buf.ofList, getD_eq_getElem?_getD, getD_eq_getElem?_getD, getElem?_take_of_lt hk]
    rw [hblit]
    have := slice_append_data c.rxBuf c.rxLen (seg.payload.take copy)
    rw [hlen] at this ⊢
    exact this
  · obtain rfl : copy = 0 := by omega
    refine ⟨rfl, rfl, rfl, ?_⟩
    rw [take_zero, append_nil]
    rfl

lemma handleConn_open {c : TcpConn} (hstate : c.state = .established)
    (hrst : seg.flags &&& TCP_RST = 0) (hfin : seg.flags &&& TCP_FIN = 0) :
    (handleConn c seg).1 = (acceptData c seg).1 := by
  rw [handleConn, if_neg (not_not_intro hrst), if_neg (by rw [hstate]; decide)]
  dsimp only
  rw [if_neg (not_not_intro hfin)]

lemma Receiving.data (h : s.Receiving) {payload : List UInt8} (hpre : payload <+: s.stream.drop s.acked)
    {copy : Nat} (hcopy : copy = min payload.length (s.conn.rxCap - s.conn.rxLen)) :
    s.conn.rx ++ payload.take copy = s.resp.take (s.conn.rxLen + copy) := by
  obtain ⟨before, hstream, _, hall⟩ := h.position
  by_cases hfull : s.conn.rxLen < s.conn.rxCap
  · have hdrop : s.stream.drop s.acked = s.resp.drop s.conn.rxLen := by
      rw [hstream, ← hall hfull, ← drop_drop, drop_left]
    have htake : payload.take copy = (s.resp.drop s.conn.rxLen).take copy := by
      rw [prefix_iff_eq_take.mp hpre, hdrop, take_take, Nat.min_eq_left (by omega)]
    rw [h.rx, htake, ← take_add]
  · obtain rfl : copy = 0 := by omega
    rw [take_zero, append_nil, add_zero]
    exact h.rx

lemma ClientOk.data (h : s.ClientOk) (hin : s.conn.inUse)
    (hpay : seg.payload.length > 0) (hseq : seg.seq = s.conn.rcvNxt) (hpre : seg.payload <+: s.stream.drop s.acked) :
    ({ s with conn := (acceptData s.conn seg).1, acked := s.acked + seg.payload.length } : HttpClient).ClientOk := by
  obtain ⟨hstate, hrcv, hle⟩ := h.stream hin
  obtain ⟨copy, hcopy, hlen, hcap, hnxt, hrx⟩ := acceptData_cut hpay hseq h.room
  obtain ⟨hst, huse, _, _⟩ := acceptData_keeps s.conn seg
  have hold := h.room
  have hend : s.acked + seg.payload.length ≤ s.stream.length := by
    have := hpre.length_le
    rw [length_drop] at this
    omega
  refine ⟨?_, h.returned, fun _ => ⟨hst.trans hstate, ?_, hend⟩, fun hb => ?_, fun hi => ?_⟩
  · dsimp only
    omega
  · rw [hnxt, hrcv, add_assoc, ← UInt32.ofNat_add]
  · obtain ⟨_, hframed, hrec⟩ := h.inside hb
    obtain ⟨before, hstream, hacked, hall⟩ := hrec.position
    refine ⟨huse.trans hin, hframed, ?_, before, hstream, ?_, fun hroom => ?_⟩
    · rw [hrx, hlen]
      exact hrec.data hpre hcopy
    · dsimp only
      omega
    · dsimp only at hroom ⊢
      omega
  · -- everything was acknowledged, so there is no next byte
    have := (h.pooled hi).2.2.acked
    omega

lemma ClientOk.segment (h : s.ClientOk) (hin : s.conn.inUse) {pos : Nat}
    (hrst : seg.flags &&& TCP_RST = 0) (hfin : seg.flags &&& TCP_FIN = 0)
    (hseq : seg.seq = s.isn + UInt32.ofNat pos) (hpre : seg.payload <+: s.stream.drop pos)
    (hnew : pos < s.acked + 2 ^ 32) (hold : s.acked < pos + 2 ^ 32) : ({ s with
      conn := (handleConn s.conn seg).1
      acked := if s.takes seg then s.acked + seg.payload.length else s.acked } : HttpClient).ClientOk := by
  obtain ⟨hstate, hrcv, _⟩ := h.stream hin
  rw [handleConn_open hstate hrst hfin]
  by_cases hdata : seg.payload.length > 0 ∧ seg.seq = s.conn.rcvNxt
  · have htakes : s.takes seg = true := by
      rw [takes, decide_eq_true hstate, decide_eq_true hdata.1, decide_eq_true hdata.2]
      rfl
    obtain rfl : pos = s.acked := by
      refine eq_of_seq_eq s.isn ?_ hnew hold
      rw [← hseq, hdata.2, hrcv]
    rw [if_pos htakes]
    exact h.data hin hdata.1 hdata.2 hpre
  · have htakes : ¬ s.takes seg = true := by
      rw [takes]
      intro ht
      simp only [Bool.and_eq_true, decide_eq_true_eq] at ht
      exact hdata ⟨ht.1.2, ht.2⟩
    rw [if_neg htakes, acceptData, if_neg hdata]
    exact h

/-- A call that ends by a pass has its whole response, or the connection is torn down. -/
lemma httpPass_complete {c : TcpConn} {wantClose : Bool} (h : httpPass c = some (.complete wantClose)) :
    (httpResponseComplete c.rx).1 = true := by
  by_contra hc
  rw [httpPass, if_neg hc] at h
  split_ifs at h
  · cases h
  · cases h

lemma clientOk_step (e : HttpEvent) (h : s.ClientOk) (hserver : e.OfServer s) (htime : e.InTime s) :
    (s.step e).ClientOk := by
  cases e with
  | call cap out rlen isn resp =>
    rw [step]
    split_ifs with hskip hidle
    · exact h
    · exact h.reuse hidle.1 hidle.2.1 cap out rlen hserver
    · exact h.connect cap out rlen isn hserver
  | segment seg pos =>
    rw [step]
    by_cases hopen : s.conn.inUse ∧ s.conn.state ≠ .closed
    · rw [if_pos hopen]
      obtain ⟨hrst, hfin, hseq, hpre, hnew, hold⟩ := hserver hopen.1
      exact h.segment hopen.1 hrst hfin hseq hpre hnew hold
    · rw [if_neg hopen]
      exact h
  | pass =>
    rw [step]
    by_cases hbusy : s.busy
    · rw [if_pos hbusy]
      cases hpass : httpPass s.conn with
      | none =>
        obtain ⟨hin, hframed, hrec⟩ := h.inside hbusy
        refine ⟨h.room, h.returned, h.stream, fun _ => ⟨hin, hframed, hrec.rx, hrec.position⟩, fun hi => ?_⟩
        exact absurd ((h.pooled hi).1.symm.trans hbusy) Bool.false_ne_true
      | some stop =>
        cases stop with
        | complete wantClose => exact h.finish hbusy (.inr (httpPass_complete hpass))
        | closed => exact h.finish hbusy (.inl rfl)
        | full => exact h.finish hbusy (.inl rfl)
    · rw [if_neg hbusy]
      exact h
  | timeout =>
    rw [step]
    split_ifs with hbusy
    · exact h.finish hbusy (htime hbusy)
    · exact h
  | evict =>
    rw [step]
    split_ifs with hidle
    · exact h.free (h.pooled hidle).1
    · exact h

end steps

end HttpClient

/-! ### Runs -/

/-- As long as no call pools its connection at a timeout with an incomplete response: the bytes returned by each
call are a prefix of the response to its own request, and an idle connection has received everything the peer
owes, the last call having returned its whole response. -/
theorem run_keep_alive (es : List HttpEvent)
    (h : Along HttpClient.step (fun s e => e.OfServer s ∧ e.InTime s) .start es) :
    let s := run HttpClient.step .start es
    (∀ r ∈ s.returned, r.1 <+: r.2) ∧ (s.idle → s.Settled) := by
  intro s
  have hok : s.ClientOk :=
    run_invariant (I := HttpClient.ClientOk) (fun s e hs hP => HttpClient.clientOk_step e hs hP.1 hP.2)
      HttpClient.clientOk_start h
  exact ⟨hok.returned, fun hi => (hok.pooled hi).2.2⟩

def shortResponse (body : UInt8) : List UInt8 :=
  asciiBytes "HTTP/1.1 200 OK\r\nContent-Length: 1\r\n\r\n" ++ [body]

/-- A segment with the bytes of the stream from `pos` on. -/
def dataSegment (pos : Nat) (payload : List UInt8) : TcpSegment :=
  ⟨0, 80, 0xD100, UInt32.ofNat pos, TCP_ACK, payload⟩

/-- Two exchanges on one connection, the first response in two segments. -/
def twoExchanges : List HttpEvent :=
  [.call 100 Buf.zero 60 0 (shortResponse 65), .segment (dataSegment 0 ((shortResponse 65).take 20)) 0, .pass,
    .segment (dataSegment 20 ((shortResponse 65).drop 20)) 20, .pass,
    .call 100 Buf.zero 60 0 (shortResponse 66), .segment (dataSegment 39 (shortResponse 66)) 39, .pass]

theorem run_keep_alive_two :
    let s := run HttpClient.step .start twoExchanges
    s.idle = true ∧ s.returned.length = 2 ∧ (∀ r ∈ s.returned, r.1 <+: r.2) ∧ (s.idle → s.Settled) := by
  have heval : let s := run HttpClient.step .start twoExchanges
      Along HttpClient.step (fun s e => e.OfServer s ∧ e.InTime s) .start twoExchanges ∧
        s.idle = true ∧ s.returned.length = 2 := by decide
  obtain ⟨hes, hidle, hlen⟩ := heval
  exact ⟨hidle, hlen, run_keep_alive _ hes⟩

/-- The first call runs into its timeout before the peer answers; its response arrives during the second call and
is returned there. -/
theorem keep_alive_fails :
    let es : List HttpEvent := [.call 100 Buf.zero 60 0 (shortResponse 65), .pass, .timeout,
      .call 100 Buf.zero 60 0 (shortResponse 66), .segment (dataSegment 0 (shortResponse 65)) 0, .pass]
    let s := run HttpClient.step .start es
    Along HttpClient.step (fun s e => e.OfServer s) .start es ∧ s.idle = true ∧ s.acked < s.stream.length ∧
      s.returned = [([], shortResponse 65), (shortResponse 65, shortResponse 66)] ∧
      ¬ shortResponse 65 <+: shortResponse 66 := by
  decide

end VibeOS
