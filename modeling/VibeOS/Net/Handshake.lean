import VibeOS.Net.Requests
import VibeOS.Net.Http

/-!
# Opening a connection

`tcp_open` and `net_http_get` send a SYN and wait in `tcp_wait_state` until the number of the connection's state
has reached that of `TCP_ESTABLISHED`. The wait is a list of passes; each pass is the list of segments handled
before its test, and the time is over when the list ends. A reset moves a connection that waits to `TCP_DONE`, the
state with the highest number, so a refused connection counts as opened (`open_accepted_fails`).

`open_only_accepted`: if no matching reset comes before the SYN+ACK, `tcp_open` returns 0 and `net_http_get` sends
its request only after a SYN+ACK from the peer.

Other names are those of `kernel/src/net.c`.
-/

namespace VibeOS

open Buf List Function

def TCP_PSH : UInt8 := 0x08

/-- The number of a state; `TCP_CLOSING` (3) is never entered.
Source: `enum tcp_state` -/
def TcpState.number : TcpState → Nat
  | .closed => 0
  | .synSent => 1
  | .established => 2
  | .done => 4

/-- Wait for a state with at least the number of `wantMin`. Each pass handles segments and then looks at the state. -/
def tcpWaitState (i : Fin NET_MAX_CONNS) (wantMin : TcpState) :
    TcpNet → (passes : List (List TcpSegment)) → Bool × TcpNet
  | net, [] => (false, net)
  | net, segs :: passes =>
    let net := segs.foldl handleTcp net
    if (net.conns i).state.number ≥ wantMin.number then (true, net) else tcpWaitState i wantMin net passes

namespace Requests

variable (s : Requests)

/-- Send a segment on the connection in slot `i`. -/
def sendOn (i : Fin NET_MAX_CONNS) (flags : UInt8) : Requests :=
  { s with tcp := { s.tcp with sent := s.tcp.sent ++ [tcpSend (s.tcp.conns i) flags] } }

/-- The part that `tcp_open` and `net_http_get` have in common: the connection in slot `i` is set up, the SYN is
sent, and the answer is waited for.
Source: `tcp_open`, `net_http_get` -/
def connect (i : Fin NET_MAX_CONNS) (ip : UInt32) (port : UInt16) (mem : Buf) (cap : Nat) (sink : Sink)
    (passes : List (List TcpSegment)) : Bool × Requests :=
  let s := (s.setSlot i (opening (s.tcp.conns i) ip port mem cap) sink).sendOn i TCP_SYN
  let r := tcpWaitState i .established s.tcp passes
  (r.1, { s with tcp := r.2 })

/-- Segments handled while `resolve_mac` waits. -/
def handleAll (segs : List TcpSegment) : Requests :=
  { s with tcp := segs.foldl handleTcp s.tcp }

/-- `mac` says whether `resolve_mac` finds an address; it handles the segments `arp`. -/
def tcpOpen (ip : UInt32) (port : UInt16) (mem : Buf) (mac : Bool) (arp : List TcpSegment)
    (passes : List (List TcpSegment)) : Int × Requests :=
  match s.tcpAlloc with
  | none => (-1, s)
  | some i =>
    let s := ((s.setSlot i (newConn i) ⟨false, 0, 0⟩).setStream (some i)).handleAll arp
    if mac = false then (-2, (s.tcpFree i).setStream none)
    else
      let r := s.connect i ip port mem streamRxSize { s.sinks i with addr := streamRx } passes
      if r.1 then (0, r.2) else (-3, (r.2.tcpFree i).setStream none)

/-- The receive loop of `net_http_get`: whether the connection must be closed, and the connections after it.
Source: `net_http_get` -/
def receive (i : Fin NET_MAX_CONNS) : (wantClose : Bool) → TcpNet → (passes : List (List TcpSegment)) → Bool × TcpNet
  | wantClose, net, [] => (wantClose, net)
  | _, net, segs :: passes =>
    let net := segs.foldl handleTcp net
    match httpPass (net.conns i) with
    | some (.complete wantClose) => (wantClose, net)
    | some _ => (true, net)
    | none => receive i (httpResponseComplete (net.conns i).rx).2 net passes

/-- What `net_http_get` did: its result, and whether it sent its request. -/
structure HttpAttempt where
  result : Int
  requested : Bool
  after : Requests

/-- The end of `net_http_get`, from the request on, over the connection in slot `i`.
Source: `net_http_get` -/
def exchange (i : Fin NET_MAX_CONNS) (answers : List (List TcpSegment)) : HttpAttempt :=
  let s := s.sendOn i (TCP_PSH ||| TCP_ACK)
  let r := receive i false s.tcp answers
  let s := { s with tcp := r.2 }
  ⟨(s.tcp.conns i).rxLen, true, s.leave i r.1⟩

/-- `out` and `cap` are the caller's buffer, which contains `mem`, and `cr3` is its address space. The handshake
handles `passes`, and the receive loop `answers`. -/
def netHttpGet (ip : UInt32) (port : UInt16) (out cap cr3 : Nat) (mem : Buf) (mac : Bool)
    (arp : List TcpSegment) (passes answers : List (List TcpSegment)) : HttpAttempt :=
  if cap = 0 then ⟨-1, false, s⟩
  else
    match s.tcpFindIdle ip port with
    | some i =>
      (s.setSlot i { s.tcp.conns i with rxBuf := mem, rxCap := cap, rxLen := 0 } ⟨false, out, cr3⟩).exchange i
        answers
    | none =>
      match s.tcpAlloc with
      | none => ⟨-1, false, s⟩
      | some i =>
        let s := (s.setSlot i (newConn i) ⟨false, 0, 0⟩).handleAll arp
        if mac = false then ⟨-2, false, s.tcpFree i⟩
        else
          let r := s.connect i ip port mem cap ⟨false, out, cr3⟩ passes
          if r.1 then r.2.exchange i answers else ⟨-3, false, r.2.tcpFree i⟩

end Requests

/-! ### Answers to a SYN -/

/-- The segment comes from the address and port that slot `i` connects to, and goes to the port of the slot. -/
def FromPeer (i : Fin NET_MAX_CONNS) (ip : UInt32) (port : UInt16) (seg : TcpSegment) : Prop :=
  seg.srcIp = ip ∧ seg.srcPort = port ∧ seg.dstPort = (Requests.newConn i).localPort

instance instDecidableFromPeer (i : Fin NET_MAX_CONNS) (ip : UInt32) (port : UInt16) (seg : TcpSegment) :
    Decidable (FromPeer i ip port seg) := inferInstanceAs (Decidable (_ ∧ _ ∧ _))

def TcpSegment.IsSynAck (seg : TcpSegment) : Prop := seg.flags &&& TCP_SYN ≠ 0 ∧ seg.flags &&& TCP_ACK ≠ 0

instance instDecidableIsSynAck (seg : TcpSegment) : Decidable seg.IsSynAck :=
  inferInstanceAs (Decidable (_ ∧ _))

/-- No reset from the peer comes before its SYN+ACK. -/
def NotReset (i : Fin NET_MAX_CONNS) (ip : UInt32) (port : UInt16) : List TcpSegment → Prop
  | [] => True
  | seg :: segs =>
    (FromPeer i ip port seg → seg.flags &&& TCP_RST = 0) ∧
      (FromPeer i ip port seg ∧ seg.IsSynAck ∨ NotReset i ip port segs)

/-- Slot `i` has sent its SYN and waits for the answer. -/
structure Pending (i : Fin NET_MAX_CONNS) (ip : UInt32) (port : UInt16) (net : TcpNet) : Prop where
  state : (net.conns i).state = .synSent
  remoteIp : (net.conns i).remoteIp = ip
  remotePort : (net.conns i).remotePort = port
  localPort : (net.conns i).localPort = (Requests.newConn i).localPort

section pending

variable {i : Fin NET_MAX_CONNS} {ip : UInt32} {port : UInt16} {net : TcpNet}

lemma Pending.fromPeer (hp : Pending i ip port net) {seg : TcpSegment} (h : demux net seg = some i) :
    FromPeer i ip port seg := by
  have hacc : (net.conns i).accepts seg = true :=
    find?_some (p := fun i => (net.conns i).accepts seg) h
  simp only [TcpConn.accepts, Bool.and_eq_true, decide_eq_true_eq] at hacc
  obtain ⟨⟨⟨-, hip⟩, hport⟩, hlocal⟩ := hacc
  exact ⟨hip ▸ hp.remoteIp, hport ▸ hp.remotePort, hlocal ▸ hp.localPort⟩

/-- A segment that neither resets nor accepts leaves a connection that waits as it is. -/
lemma handleConn_synSent {c : TcpConn} (hc : c.state = .synSent) {seg : TcpSegment}
    (hrst : ¬ seg.flags &&& TCP_RST ≠ 0) (hsyn : ¬ seg.IsSynAck) : handleConn c seg = (c, []) := by
  rw [handleConn, if_neg hrst, if_pos hc]
  exact if_neg hsyn

lemma Pending.handleTcp (hp : Pending i ip port net) (seg : TcpSegment) : Pending i ip port (handleTcp net seg) ∨
      FromPeer i ip port seg ∧ (seg.flags &&& TCP_RST ≠ 0 ∨ seg.IsSynAck) := by
  rw [VibeOS.handleTcp]
  cases hd : demux net seg with
  | none => exact .inl hp
  | some j =>
    dsimp only
    by_cases hij : i = j
    · subst hij
      have hpeer := hp.fromPeer hd
      by_cases hrst : seg.flags &&& TCP_RST ≠ 0
      · exact .inr ⟨hpeer, .inl hrst⟩
      · by_cases hsyn : seg.IsSynAck
        · exact .inr ⟨hpeer, .inr hsyn⟩
        · rw [handleConn_synSent hp.state hrst hsyn, update_eq_self]
          exact .inl ⟨hp.state, hp.remoteIp, hp.remotePort, hp.localPort⟩
    · refine .inl ⟨?_, ?_, ?_, ?_⟩
      · exact (congrArg TcpConn.state (update_of_ne hij _ _)).trans hp.state
      · exact (congrArg TcpConn.remoteIp (update_of_ne hij _ _)).trans hp.remoteIp
      · exact (congrArg TcpConn.remotePort (update_of_ne hij _ _)).trans hp.remotePort
      · exact (congrArg TcpConn.localPort (update_of_ne hij _ _)).trans hp.localPort

/-- The segments of a pass leave the slot waiting, or one of them is the SYN+ACK. -/
lemma Pending.foldl (hp : Pending i ip port net) {segs rest : List TcpSegment} (h : NotReset i ip port (segs ++ rest)) :
    (Pending i ip port (segs.foldl VibeOS.handleTcp net) ∧ NotReset i ip port rest) ∨
      ∃ seg ∈ segs, FromPeer i ip port seg ∧ seg.IsSynAck := by
  induction segs generalizing net with
  | nil => exact .inl ⟨hp, h⟩
  | cons seg segs ih =>
    obtain ⟨hrst, hnext⟩ := h
    rcases hnext with hsyn | hnext
    · exact .inr ⟨seg, mem_cons_self .., hsyn⟩
    · rcases hp.handleTcp seg with hp' | ⟨hpeer, hrst' | hsyn⟩
      · rcases ih hp' hnext with hgo | ⟨seg', hmem, hseg'⟩
        · exact .inl hgo
        · exact .inr ⟨seg', mem_cons_of_mem _ hmem, hseg'⟩
      · exact absurd (hrst hpeer) hrst'
      · exact .inr ⟨seg, mem_cons_self .., hpeer, hsyn⟩

lemma Pending.tcpWaitState (hp : Pending i ip port net) {passes : List (List TcpSegment)}
    (h : NotReset i ip port passes.flatten) (hok : (tcpWaitState i .established net passes).1 = true) :
    ∃ seg ∈ passes.flatten, FromPeer i ip port seg ∧ seg.IsSynAck := by
  induction passes generalizing net with
  | nil => cases hok
  | cons segs passes ih =>
    rcases hp.foldl h with ⟨hp', hrest⟩ | ⟨seg, hmem, hseg⟩
    · have hlow : ¬ ((segs.foldl VibeOS.handleTcp net).conns i).state.number ≥ TcpState.established.number := by
        rw [hp'.state]
        decide
      rw [VibeOS.tcpWaitState, if_neg hlow] at hok
      obtain ⟨seg, hmem, hseg⟩ := ih hp' hrest hok
      exact ⟨seg, mem_append_right _ hmem, hseg⟩
    · exact ⟨seg, mem_append_left _ hmem, hseg⟩

end pending

namespace Requests

variable {s : Requests} {i : Fin NET_MAX_CONNS}

lemma localPort_acceptData (c : TcpConn) (seg : TcpSegment) : (acceptData c seg).1.localPort = c.localPort := by
  rw [acceptData]
  by_cases h : seg.payload.length > 0 ∧ seg.seq = c.rcvNxt
  · dsimp only
    generalize (if c.rxLen + seg.payload.length > c.rxCap then c.rxCap - c.rxLen else seg.payload.length) = copy
    split_ifs <;> rfl
  · rw [if_neg h]

lemma localPort_handleConn (c : TcpConn) (seg : TcpSegment) : (handleConn c seg).1.localPort = c.localPort := by
  rw [handleConn]
  split_ifs
  · rfl
  · rfl
  · rfl
  · exact localPort_acceptData c seg
  · exact localPort_acceptData c seg

lemma localPort_handleTcp (net : TcpNet) (seg : TcpSegment) (i : Fin NET_MAX_CONNS) :
    ((handleTcp net seg).conns i).localPort = (net.conns i).localPort := by
  rw [handleTcp]
  cases demux net seg with
  | none => rfl
  | some j =>
    by_cases hij : i = j
    · subst hij
      exact (congrArg TcpConn.localPort (update_self i _ _)).trans (localPort_handleConn _ _)
    · exact congrArg TcpConn.localPort (update_of_ne hij _ _)

lemma localPort_foldl (segs : List TcpSegment) (net : TcpNet) (i : Fin NET_MAX_CONNS) :
    ((segs.foldl handleTcp net).conns i).localPort = (net.conns i).localPort := by
  induction segs generalizing net with
  | nil => rfl
  | cons seg segs ih => rw [foldl_cons, ih, localPort_handleTcp]

lemma pending_connect (hl : (s.tcp.conns i).localPort = (newConn i).localPort) (ip : UInt32) (port : UInt16)
    (mem : Buf) (cap : Nat) (sink : Sink) :
    Pending i ip port ((s.setSlot i (opening (s.tcp.conns i) ip port mem cap) sink).sendOn i TCP_SYN).tcp := by
  have hconn : (((s.setSlot i (opening (s.tcp.conns i) ip port mem cap) sink).sendOn i TCP_SYN).tcp.conns i) =
      opening (s.tcp.conns i) ip port mem cap := update_self i _ s.tcp.conns
  exact ⟨by rw [hconn]; rfl, by rw [hconn]; rfl, by rw [hconn]; rfl, by rw [hconn]; exact hl⟩

lemma connect_accepted (hl : (s.tcp.conns i).localPort = (newConn i).localPort) {ip : UInt32} {port : UInt16}
    {mem : Buf} {cap : Nat} {sink : Sink} {passes : List (List TcpSegment)} (h : NotReset i ip port passes.flatten)
    (hok : (s.connect i ip port mem cap sink passes).1 = true) :
    ∃ seg ∈ passes.flatten, FromPeer i ip port seg ∧ seg.IsSynAck :=
  (pending_connect hl ip port mem cap sink).tcpWaitState h hok

lemma localPort_allocated (s : Requests) (i : Fin NET_MAX_CONNS) (arp : List TcpSegment) :
    (((s.setSlot i (newConn i) ⟨false, 0, 0⟩).handleAll arp).tcp.conns i).localPort = (newConn i).localPort := by
  have h := localPort_foldl arp (s.setSlot i (newConn i) ⟨false, 0, 0⟩).tcp i
  exact h.trans (congrArg TcpConn.localPort (update_self i _ s.tcp.conns))

/-- For every sequence of segments in which no reset of the peer comes before its SYN+ACK: `tcp_open` returns 0 only
after a SYN+ACK of the peer, else a negative value, as `net_http_get` does over a new connection, which sends its
request only after one. -/
theorem open_only_accepted (s : Requests) (ip : UInt32) (port : UInt16) (mem : Buf) (mac : Bool)
    (arp : List TcpSegment) (passes answers : List (List TcpSegment)) (out cap cr3 : Nat)
    (h : ∀ i, s.tcpAlloc = some i → NotReset i ip port passes.flatten) : ((s.tcpOpen ip port mem mac arp passes).1 < 0 ∨
      (s.tcpOpen ip port mem mac arp passes).1 = 0 ∧
        ∃ i, s.tcpAlloc = some i ∧ ∃ seg ∈ passes.flatten, FromPeer i ip port seg ∧ seg.IsSynAck) ∧
    (s.tcpFindIdle ip port = none → ((s.netHttpGet ip port out cap cr3 mem mac arp passes answers).requested = false ∧
        (s.netHttpGet ip port out cap cr3 mem mac arp passes answers).result < 0) ∨
      ∃ i, s.tcpAlloc = some i ∧ ∃ seg ∈ passes.flatten, FromPeer i ip port seg ∧ seg.IsSynAck) := by
  have hone : (-1 : Int) < 0 := by decide
  have htwo : (-2 : Int) < 0 := by decide
  have hthree : (-3 : Int) < 0 := by decide
  constructor
  · rw [tcpOpen]
    cases hi : s.tcpAlloc with
    | none => exact .inl hone
    | some i =>
      dsimp only
      by_cases hmac : mac = false
      · rw [if_pos hmac]
        exact .inl htwo
      · have hl := localPort_allocated (s.setStream (some i)) i arp
        split_ifs with hok
        · exact .inr ⟨rfl, i, rfl, connect_accepted hl (h i hi) hok⟩
        · exact .inl hthree
  · intro hidle
    rw [netHttpGet]
    by_cases hcap : cap = 0
    · rw [if_pos hcap]
      exact .inl ⟨rfl, hone⟩
    · rw [if_neg hcap, hidle]
      cases hi : s.tcpAlloc with
      | none => exact .inl ⟨rfl, hone⟩
      | some i =>
        dsimp only
        by_cases hmac : mac = false
        · rw [if_pos hmac]
          exact .inl ⟨rfl, htwo⟩
        · split_ifs with hok
          · exact .inr ⟨i, rfl, connect_accepted (localPort_allocated s i arp) (h i hi) hok⟩
          · exact .inl ⟨rfl, hthree⟩

def unused : Requests where
  tcp := ⟨fun i => { newConn i with inUse := false }, [], none⟩
  sinks := fun _ => ⟨false, 0, 0⟩
  cr3 := fun _ => none
  request := fun _ => none

/-- A segment from port 80 of 10.0.2.2 to the port of the first slot. -/
def answerTo (flags : UInt8) : TcpSegment := ⟨0x0A000202, 80, 0xD100, 7, flags, []⟩

theorem open_only_accepted_synAck :
    (unused.tcpOpen 0x0A000202 80 Buf.zero true [] [[answerTo 0x10], [answerTo 0x12]]).1 = 0 ∧
    ∃ i, unused.tcpAlloc = some i ∧ ∃ seg ∈ [answerTo 0x10, answerTo 0x12], FromPeer i 0x0A000202 80 seg ∧
      seg.IsSynAck := by
  have hopen : (unused.tcpOpen 0x0A000202 80 Buf.zero true [] [[answerTo 0x10], [answerTo 0x12]]).1 = 0 := by
    decide
  have h := (open_only_accepted unused 0x0A000202 80 Buf.zero true [] [[answerTo 0x10], [answerTo 0x12]] [] 0 16 0
    (fun i hi => by
      obtain rfl : i = 0 := (Option.some.inj hi).symm
      exact ⟨fun _ => by decide, .inr ⟨fun _ => by decide, .inl (by decide)⟩⟩)).1
  rcases h with h | ⟨-, h⟩
  · exact absurd h (by decide)
  · exact ⟨hopen, h⟩

/-- The peer answers the SYN with a reset: `tcp_open` returns 0, and `net_http_get` sends its request and returns an
empty response. -/
theorem open_accepted_fails : (unused.tcpOpen 0x0A000202 80 Buf.zero true [] [[answerTo 0x14]]).1 = 0 ∧
    (unused.netHttpGet 0x0A000202 80 4096 16 1 Buf.zero true [] [[answerTo 0x14]] [[]]).requested = true ∧
    (unused.netHttpGet 0x0A000202 80 4096 16 1 Buf.zero true [] [[answerTo 0x14]] [[]]).result = 0 ∧
    ¬ (answerTo 0x14).IsSynAck := by
  decide

end Requests

end VibeOS
