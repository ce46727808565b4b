import VibeOS.Lib.Ownership
import VibeOS.Net.Frames

/-!
# Requests and connection slots

Processes are inside `net_http_get` concurrently, each suspended between the events of its request; the stream of
the TLS layer has a slot of its own. A slot records where received data goes: an address and the address space it
belongs to (`Sink`). A kill removes the process, but not what its request left in the slots.

A slot that is in use and not idle is a resource held by a process inside a request or by the stream
(`Ownership`). `run_requests`: as long as no process is killed inside a request and no stream is opened over a
stream left behind, every such slot has exactly one holder, and data is written only to the buffer that a live
process inside its request passed, in its own address space. After a kill this fails (`requests_fail`).

Other names are those of `kernel/src/net.c`.
-/

namespace VibeOS

open Buf Ownership List Option Function

/-! ### State -/

/-- Where the data of a slot goes, and whether the slot is pooled.
Source: `struct tcp_conn` (`rx_buf`, `rx_owner_cr3`, `idle`) -/
structure Sink where
  idle : Bool
  addr : Nat
  ownerCr3 : Nat

/-- A process is inside `net_http_get`: its slot, its arguments, and whether its buffer is attached to the slot
yet. -/
structure Request where
  slot : Fin NET_MAX_CONNS
  ip : UInt32
  port : UInt16
  out : Nat
  cap : Nat
  attached : Bool

/-- The connections, their sinks, the address space of each live process, and the requests. -/
structure Requests where
  tcp : TcpNet
  sinks : Fin NET_MAX_CONNS → Sink
  cr3 : Nat → Option Nat
  request : Nat → Option Request

/-- The address of the stream's buffer, which lies in the kernel.
Source: `g_tcp_stream_rx` -/
def streamRx : Nat := 0x100000

/-- The size of the stream's buffer.
Source: `g_tcp_stream_rx` -/
def streamRxSize : Nat := 32768

/-- What can happen: a process starts; a process enters `net_http_get`, gets the address of the next hop, and
leaves; a segment arrives; a process is killed; the stream is opened, connected, read and closed. `mem` is what the
buffer contains before. -/
inductive RequestEvent where
  | spawn (pid cr3 : Nat)
  | get (pid : Nat) (ip : UInt32) (port : UInt16) (out cap : Nat) (mem : Buf)
  | resolved (pid : Nat) (mem : Buf)
  | finish (pid : Nat) (wantClose : Bool)
  | segment (seg : TcpSegment)
  | kill (pid : Nat)
  | streamOpen
  | streamConnect (ip : UInt32) (port : UInt16) (mem : Buf)
  | streamRecv (len : Nat)
  | streamClose

namespace Requests

variable (s : Requests)

def setSlot (i : Fin NET_MAX_CONNS) (c : TcpConn) (k : Sink) : Requests :=
  { s with
    tcp := { s.tcp with conns := update s.tcp.conns i c }
    sinks := update s.sinks i k }

/-- A slot that was just allocated.
Source: `tcp_alloc` -/
def newConn (i : Fin NET_MAX_CONNS) : TcpConn where
  state := .closed
  remoteIp := 0
  localPort := 0xD100 + UInt16.ofNat i
  remotePort := 0
  sndNxt := 0
  rcvNxt := 0
  rxBuf := Buf.zero
  rxCap := 0
  rxLen := 0
  peerFin := false
  inUse := true

def active (i : Fin NET_MAX_CONNS) : Bool := (s.tcp.conns i).inUse && !(s.sinks i).idle

/-- A free slot, or else a pooled one. -/
def tcpAlloc : Option (Fin NET_MAX_CONNS) :=
  ((List.finRange NET_MAX_CONNS).find? fun i => !(s.tcp.conns i).inUse).or
    ((List.finRange NET_MAX_CONNS).find? fun i => (s.tcp.conns i).inUse && (s.sinks i).idle)

def tcpFree (i : Fin NET_MAX_CONNS) : Requests :=
  s.setSlot i { s.tcp.conns i with inUse := false, state := .closed, rxBuf := Buf.zero } ⟨false, 0, 0⟩

def tcpFindIdle (ip : UInt32) (port : UInt16) : Option (Fin NET_MAX_CONNS) :=
  (List.finRange NET_MAX_CONNS).find? fun i =>
    (s.tcp.conns i).inUse && (s.sinks i).idle && decide ((s.tcp.conns i).state = .established) &&
      decide ((s.tcp.conns i).remoteIp = ip) && decide ((s.tcp.conns i).remotePort = port)

/-- The connection begins its handshake, with a buffer of `cap` bytes. -/
def opening (c : TcpConn) (ip : UInt32) (port : UInt16) (mem : Buf) (cap : Nat) : TcpConn :=
  { c with
    state := .synSent, remoteIp := ip, remotePort := port, sndNxt := 0x2000, rcvNxt := 0
    rxBuf := mem, rxCap := cap, rxLen := 0 }

def setRequest (pid : Nat) (r : Option Request) : Requests :=
  { s with request := update s.request pid r }

/-- Set the stream's connection. Source: `g_stream_conn` -/
def setStream (q : Option (Fin NET_MAX_CONNS)) : Requests :=
  { s with tcp := { s.tcp with stream := q } }

/-- The slot after the end of a request: pooled or free.
Source: `net_http_get` -/
def leave (i : Fin NET_MAX_CONNS) (wantClose : Bool) : Requests :=
  if wantClose = false ∧ (s.tcp.conns i).state = .established then
    s.setSlot i { s.tcp.conns i with rxBuf := Buf.zero, rxCap := 0, rxLen := 0 } ⟨true, 0, 0⟩
  else s.tcpFree i

/-- One event. A request goes through `get`, `resolved` (`resolve_mac` found an address; the handshake begins) and
`finish`, which also stands for its failures, after which the slot is free. The sequence numbers of what is sent
are left out.
Source: `net_http_get`, `tcp_open`, `tcp_close`; `kernel/src/process.c` `process_kill` -/
def step : RequestEvent → Requests
  | .spawn pid cr3 => if (s.cr3 pid).isSome then s else { s with cr3 := update s.cr3 pid (some cr3) }
  | .get pid ip port out cap mem =>
    match s.cr3 pid, s.request pid with
    | some cr3, none =>
      if cap = 0 then s
      else
        match s.tcpFindIdle ip port with
        | some i =>
          (s.setSlot i { s.tcp.conns i with rxBuf := mem, rxCap := cap, rxLen := 0 }
            ⟨false, out, cr3⟩).setRequest pid (some ⟨i, ip, port, out, cap, true⟩)
        | none =>
          match s.tcpAlloc with
          | some i =>
            (s.setSlot i (newConn i) ⟨false, 0, 0⟩).setRequest pid
              (some ⟨i, ip, port, out, cap, false⟩)
          | none => s
    | _, _ => s
  | .resolved pid mem =>
    match s.cr3 pid, s.request pid with
    | some cr3, some r =>
      if r.attached then s
      else
        (s.setSlot r.slot (opening (s.tcp.conns r.slot) r.ip r.port mem r.cap)
          ⟨(s.sinks r.slot).idle, r.out, cr3⟩).setRequest pid (some { r with attached := true })
    | _, _ => s
  | .finish pid wantClose =>
    match s.request pid with
    | some r => (s.leave r.slot wantClose).setRequest pid none
    | none => s
  | .segment seg => { s with tcp := handleTcp s.tcp seg }
  | .kill pid =>
    { s with cr3 := update s.cr3 pid none, request := update s.request pid none }
  | .streamOpen =>
    match s.tcpAlloc with
    | some i => (s.setSlot i (newConn i) ⟨false, 0, 0⟩).setStream (some i)
    | none => s
  | .streamConnect ip port mem =>
    match s.tcp.stream with
    | some i =>
      -- once for each stream, in `tcp_open`
      if (s.tcp.conns i).state = .closed then
        s.setSlot i (opening (s.tcp.conns i) ip port mem streamRxSize)
          { s.sinks i with addr := streamRx }
      else s
    | none => s
  | .streamRecv len => { s with tcp := (tcpStreamRecv s.tcp len).2.2 }
  | .streamClose =>
    match s.tcp.stream with
    | some i => (s.tcpFree i).setStream none
    | none => s

def start : Requests where
  tcp := ⟨fun _ => ⟨.closed, 0, 0, 0, 0, 0, Buf.zero, 0, 0, false, false⟩, [], none⟩
  sinks := fun _ => ⟨false, 0, 0⟩
  cr3 := fun _ => none
  request := fun _ => none

/-! ### Holders of slots -/

/-- What a process (or, for `none`, the stream) holds: a slot, counted from one. -/
def own : Option Nat → Nat
  | some pid => match s.request pid with
    | some r => r.slot.val + 1
    | none => 0
  | none => match s.tcp.stream with
    | some i => i.val + 1
    | none => 0

/-- The slots that are in use and not pooled, counted from one. -/
def used (b : Nat) : Bool := (List.finRange NET_MAX_CONNS).any fun i => i.val + 1 == b && s.active i

/-- Where a segment that arrives now would be written: it goes to a buffer that a live process inside its request
passed, in the address space of that process, or to the buffer of the stream. -/
def WritesToHolder (seg : TcpSegment) : Prop :=
  ∀ i, demux s.tcp seg = some i → 0 < copied s.tcp seg →
    let dst := (s.sinks i).addr + (s.tcp.conns i).rxLen
    (∃ pid r, s.request pid = some r ∧ r.slot = i ∧ s.cr3 pid = some (s.sinks i).ownerCr3 ∧
      r.out ≤ dst ∧ dst + copied s.tcp seg ≤ r.out + r.cap) ∨
    (s.tcp.stream = some i ∧ (s.sinks i).ownerCr3 = 0 ∧ streamRx ≤ dst ∧
      dst + copied s.tcp seg ≤ streamRx + streamRxSize)

end Requests

/-- No process is killed inside a request, and a stream is only opened when none is left. -/
def RequestEvent.Orderly (s : Requests) : RequestEvent → Prop
  | .kill pid => s.request pid = none
  | .streamOpen => s.tcp.stream = none
  | _ => True

instance RequestEvent.decidableOrderly (s : Requests) : (e : RequestEvent) → Decidable (e.Orderly s)
  | .kill pid => decidable_of_iff ((s.request pid).isNone = true) isNone_iff_eq_none
  | .streamOpen => inferInstanceAs (Decidable (_ = _))
  | .spawn _ _ | .get _ _ _ _ _ _ | .resolved _ _ | .finish _ _ | .segment _ | .streamConnect _ _ _ | .streamRecv _
  | .streamClose => .isTrue trivial

namespace Requests

section slots

variable {s s' : Requests} {i : Fin NET_MAX_CONNS}

lemma used_iff {b : Nat} : s.used b ↔ ∃ i : Fin NET_MAX_CONNS, i.val + 1 = b ∧ s.active i = true := by
  simp [used]

lemma used_succ : s.used (i.val + 1) = s.active i := by
  rw [Bool.eq_iff_iff, used_iff]
  constructor
  · rintro ⟨j, hj, hactive⟩
    obtain rfl : j = i := Fin.ext (by omega)
    exact hactive
  · exact fun h => ⟨i, rfl, h⟩

lemma used_taken (hi : s'.active i) (h : ∀ j, j ≠ i → s'.active j = s.active j) (x : Nat) :
    s'.used x = (decide (x = i.val + 1) || s.used x) := by
  rw [Bool.eq_iff_iff, Bool.or_eq_true, decide_eq_true_eq, used_iff, used_iff]
  constructor
  · rintro ⟨j, rfl, hj⟩
    by_cases hji : j = i
    · exact .inl (by rw [hji])
    · exact .inr ⟨j, rfl, (h j hji) ▸ hj⟩
  · rintro (rfl | ⟨j, rfl, hj⟩)
    · exact ⟨i, rfl, hi⟩
    · by_cases hji : j = i
      · exact ⟨i, by rw [hji], hi⟩
      · exact ⟨j, rfl, (h j hji).trans hj⟩

lemma used_left (hi : s'.active i = false) (h : ∀ j, j ≠ i → s'.active j = s.active j) (x : Nat) :
    s'.used x = (decide (x ≠ i.val + 1) && s.used x) := by
  rw [Bool.eq_iff_iff, Bool.and_eq_true, decide_eq_true_eq, used_iff, used_iff]
  constructor
  · rintro ⟨j, rfl, hj⟩
    have hji : j ≠ i := by
      rintro rfl
      rw [hi] at hj
      cases hj
    exact ⟨fun he => hji (Fin.ext (by omega)), j, rfl, (h j hji) ▸ hj⟩
  · rintro ⟨hx, j, rfl, hj⟩
    have hji : j ≠ i := by
      rintro rfl
      exact hx rfl
    exact ⟨j, rfl, (h j hji).trans hj⟩

end slots

/-! ### The invariant -/

/-- The slot of a request receives for its process, or is still closed. -/
def SinkOk (c : TcpConn) (k : Sink) (cr3 : Option Nat) (r : Request) : Prop :=
  ∃ a, cr3 = some a ∧ if r.attached then k.addr = r.out ∧ c.rxCap = r.cap ∧ k.ownerCr3 = a
    else c.state = .closed

/-- The slot of the stream receives for the stream, or is still closed. -/
def StreamSink (c : TcpConn) (k : Sink) : Prop :=
  k.ownerCr3 = 0 ∧ (c.state ≠ .closed → k.addr = streamRx ∧ c.rxCap = streamRxSize)

/-- Active slots have one holder each, a pooled slot receives nothing, and the slots of requests and of the stream
receive for their holders. -/
structure Ok (s : Requests) : Prop where
  excl : Exclusive s.own s.used 1 5
  leak : NoLeak s.own s.used 1 5
  room : ∀ i, (s.tcp.conns i).rxLen ≤ (s.tcp.conns i).rxCap
  pooled : ∀ i, (s.sinks i).idle = true → (s.tcp.conns i).rxCap = 0
  sink : ∀ pid r, s.request pid = some r → SinkOk (s.tcp.conns r.slot) (s.sinks r.slot) (s.cr3 pid) r
  stream : ∀ i, s.tcp.stream = some i → StreamSink (s.tcp.conns i) (s.sinks i)

section steps

variable {s s' : Requests} {i : Fin NET_MAX_CONNS} {pid : Nat} {r : Request} {c : TcpConn} {k : Sink}

lemma own_request (h : s.request pid = some r) : s.own (some pid) = r.slot.val + 1 := by
  rw [own, h]

lemma own_stream (h : s.tcp.stream = some i) : s.own none = i.val + 1 := by
  rw [own, h]

lemma ok_start : start.Ok := by
  have hown : ∀ o, start.own o = 0 := fun o => by cases o <;> rfl
  refine ⟨⟨fun o ho => absurd (hown o) ho, fun o ho => absurd (hown o) ho,
    fun o _ _ ho => absurd (hown o) ho⟩, ?_, fun _ => le_rfl, (fun _ h => nomatch h), (fun _ _ h => nomatch h),
    fun _ h => nomatch h⟩
  intro b _ _ hb
  obtain ⟨i, _, hi⟩ := used_iff.mp hb
  cases hi

lemma Ok.active_request (h : s.Ok) (hr : s.request pid = some r) : s.active r.slot = true := by
  rw [← used_succ, ← own_request hr]
  exact h.excl.marked _ (by rw [own_request hr]; omega)

lemma Ok.active_stream (h : s.Ok) (hi : s.tcp.stream = some i) : s.active i = true := by
  rw [← used_succ, ← own_stream hi]
  exact h.excl.marked _ (by rw [own_stream hi]; omega)

lemma Ok.of_slot (h : s.Ok) (hconns : s'.tcp.conns = update s.tcp.conns i c)
    (hsinks : s'.sinks = update s.sinks i k) (hcr3 : s'.cr3 = s.cr3)
    (hheld : Exclusive s'.own s'.used 1 5 ∧ NoLeak s'.own s'.used 1 5)
    (hroom : c.rxLen ≤ c.rxCap) (hpooled : k.idle → c.rxCap = 0) (hreq : ∀ pid r, s'.request pid = some r →
      r.slot = i ∧ SinkOk c k (s.cr3 pid) r ∨ r.slot ≠ i ∧ s.request pid = some r)
    (hstream : ∀ j, s'.tcp.stream = some j → j = i ∧ StreamSink c k ∨ j ≠ i ∧ s.tcp.stream = some j) : s'.Ok := by
  refine ⟨hheld.1, hheld.2, fun j => ?_, fun j hj => ?_, fun pid r hr => ?_, fun j hj => ?_⟩
  · rw [hconns]
    by_cases hji : j = i
    · rw [hji, update_self]
      exact hroom
    · rw [update_of_ne hji]
      exact h.room j
  · rw [hsinks] at hj
    rw [hconns]
    by_cases hji : j = i
    · rw [hji, update_self] at hj ⊢
      exact hpooled hj
    · rw [update_of_ne hji] at hj ⊢
      exact h.pooled j hj
  · rw [hconns, hsinks, hcr3]
    rcases hreq pid r hr with ⟨hslot, hok⟩ | ⟨hslot, hold⟩
    · rw [hslot, update_self, update_self]
      exact hok
    · rw [update_of_ne hslot, update_of_ne hslot]
      exact h.sink pid r hold
  · rw [hconns, hsinks]
    rcases hstream j hj with ⟨hji, hok⟩ | ⟨hji, hold⟩
    · rw [hji, update_self, update_self]
      exact hok
    · rw [update_of_ne hji, update_of_ne hji]
      exact h.stream j hold

lemma active_setSlot_ne {j : Fin NET_MAX_CONNS} (hj : j ≠ i) : (s.setSlot i c k).active j = s.active j := by
  rw [active, active, setSlot]
  dsimp only
  rw [update_of_ne hj, update_of_ne hj]

lemma active_setSlot_self : (s.setSlot i c k).active i = (c.inUse && !k.idle) := by
  rw [active, setSlot]
  dsimp only
  rw [update_self, update_self]

lemma active_setSlot (hc : c.inUse = (s.tcp.conns i).inUse) (hk : k.idle = (s.sinks i).idle) (j : Fin NET_MAX_CONNS) :
    (s.setSlot i c k).active j = s.active j := by
  by_cases hj : j = i
  · rw [hj, active_setSlot_self, hc, hk]
    rfl
  · exact active_setSlot_ne hj

lemma idle_of_active (h : s.active i = true) : (s.sinks i).idle = false := by
  rw [active, Bool.and_eq_true, Bool.not_eq_true'] at h
  exact h.2

lemma own_setRequest (s : Requests) (pid : Nat) (q : Option Request) (o : Option Nat) : (s.setRequest pid q).own o =
      if o = some pid then (match q with | some r => r.slot.val + 1 | none => 0) else s.own o := by
  cases o with
  | none => rfl
  | some p =>
    by_cases hp : p = pid
    · subst hp
      rw [if_pos rfl, own, setRequest]
      dsimp only
      rw [update_self]
    · rw [if_neg (fun h => hp (Option.some.inj h)), own, own, setRequest]
      dsimp only
      rw [update_of_ne hp]

lemma own_setStream (s : Requests) (q : Option (Fin NET_MAX_CONNS)) (o : Option Nat) : (s.setStream q).own o =
      if o = none then (match q with | some i => i.val + 1 | none => 0) else s.own o := by
  cases o with
  | none => rfl
  | some p => rfl

lemma own_setSlot (s : Requests) (i : Fin NET_MAX_CONNS) (c : TcpConn) (k : Sink) (o : Option Nat) :
    (s.setSlot i c k).own o = s.own o := by
  cases o with
  | none => rfl
  | some p => rfl

lemma Ok.take (h : s.Ok) {o : Option Nat} (hnone : s.own o = 0) (hi : s.active i = false)
    (hactive : s'.active = (s.setSlot i c k).active) (hc : c.inUse) (hk : k.idle = false)
    (hown : ∀ o', s'.own o' = if o' = o then i.val + 1 else s.own o') :
    Exclusive s'.own s'.used 1 5 ∧ NoLeak s'.own s'.used 1 5 := by
  have hlt : i.val < 4 := i.isLt
  have hused : ∀ x, s'.used x = (decide (x = i.val + 1) || s.used x) :=
    used_taken (by rw [hactive, active_setSlot_self, hc, hk]; rfl) fun j hj => by rw [hactive, active_setSlot_ne hj]
  exact ⟨h.excl.assign ⟨by omega, by omega⟩ (by omega) (used_succ.trans hi) hown hused,
    h.leak.assign hnone (by decide) hown hused⟩

lemma Ok.drop (h : s.Ok) {o : Option Nat} (ho : s.own o = i.val + 1)
    (hactive : s'.active = (s.setSlot i c k).active) (hoff : (c.inUse && !k.idle) = false)
    (hown : ∀ o', s'.own o' = if o' = o then 0 else s.own o') :
    Exclusive s'.own s'.used 1 5 ∧ NoLeak s'.own s'.used 1 5 := by
  have hused : ∀ x, s'.used x = (decide (x ≠ s.own o) && s.used x) := by
    rw [ho]
    exact used_left (by rw [hactive, active_setSlot_self, hoff]) fun j hj => by rw [hactive, active_setSlot_ne hj]
  exact ⟨h.excl.release hown hused, h.leak.release hown hused⟩

lemma Ok.slot_ne (h : s.Ok) {p : Nat} {q : Request} (hr : s.request pid = some r)
    (hq : s.request p = some q) (hp : p ≠ pid) : q.slot ≠ r.slot := by
  intro he
  have hown : s.own (some p) = s.own (some pid) := by rw [own_request hr, own_request hq, he]
  exact hp (Option.some.inj (h.excl.inj _ _ hown (by rw [own_request hq]; omega)))

lemma Ok.slot_ne_stream (h : s.Ok) (hr : s.request pid = some r) (hi : s.tcp.stream = some i) : i ≠ r.slot := by
  intro he
  have hown : s.own (some pid) = s.own none := by rw [own_request hr, own_stream hi, he]
  exact nomatch h.excl.inj _ _ hown (by rw [own_request hr]; omega)

lemma Ok.keep (h : s.Ok) (hactive : ∀ j, s'.active j = s.active j) (hown : ∀ o, s'.own o = s.own o) :
    Exclusive s'.own s'.used 1 5 ∧ NoLeak s'.own s'.used 1 5 := by
  have hused : ∀ b, s'.used b = s.used b := by
    intro b
    rw [used, used]
    simp only [hactive]
  refine ⟨h.excl.congr hown hused, fun b hb1 hb2 hb => ?_⟩
  rw [hused] at hb
  obtain ⟨o, ho⟩ := h.leak b hb1 hb2 hb
  exact ⟨o, (hown o).trans ho⟩

lemma request_setRequest_self {q : Option Request} : (s.setRequest pid q).request pid = q :=
  update_self ..

lemma request_setRequest_ne {q : Option Request} {p : Nat} (hp : p ≠ pid) :
    (s.setRequest pid q).request p = s.request p := update_of_ne hp ..

lemma Ok.acquire (h : s.Ok) (hnone : s.request pid = none) (hi : s.active r.slot = false)
    (hc : c.inUse) (hk : k.idle = false) (hroom : c.rxLen ≤ c.rxCap)
    (hsink : SinkOk c k (s.cr3 pid) r) : ((s.setSlot r.slot c k).setRequest pid (some r)).Ok := by
  have hown : ∀ o, ((s.setSlot r.slot c k).setRequest pid (some r)).own o =
      if o = some pid then r.slot.val + 1 else s.own o := by
    intro o
    rw [own_setRequest, own_setSlot]
  have hheld := h.take (by rw [own, hnone]) hi (by rfl) hc hk hown
  refine h.of_slot rfl rfl rfl hheld hroom (fun hidle => ?_) (fun p q hq => ?_) (fun j hj => ?_)
  · rw [hk] at hidle
    cases hidle
  · by_cases hp : p = pid
    · subst hp
      obtain rfl : r = q := Option.some.inj (request_setRequest_self.symm.trans hq)
      exact .inl ⟨rfl, hsink⟩
    · have hold : s.request p = some q := (request_setRequest_ne hp).symm.trans hq
      refine .inr ⟨fun he => ?_, hold⟩
      have hactive := h.active_request hold
      rw [he, hi] at hactive
      cases hactive
  · refine .inr ⟨fun he => ?_, hj⟩
    have hactive := h.active_stream hj
    rw [he, hi] at hactive
    cases hactive

lemma Ok.attach (h : s.Ok) (hr : s.request pid = some r) {r' : Request} (hslot : r'.slot = r.slot)
    (hc : c.inUse = (s.tcp.conns r.slot).inUse) (hk : k.idle = (s.sinks r.slot).idle)
    (hroom : c.rxLen ≤ c.rxCap) (hsink : SinkOk c k (s.cr3 pid) r') :
    ((s.setSlot r.slot c k).setRequest pid (some r')).Ok := by
  have hown : ∀ o, ((s.setSlot r.slot c k).setRequest pid (some r')).own o = s.own o := by
    intro o
    rw [own_setRequest, own_setSlot]
    split_ifs with ho
    · rw [ho, own_request hr, ← hslot]
    · rfl
  have hidle := idle_of_active (h.active_request hr)
  have hheld := h.keep (by exact active_setSlot hc hk) hown
  refine h.of_slot rfl rfl rfl hheld hroom (fun hi => ?_) (fun p q hq => ?_) (fun j hj => ?_)
  · rw [hk, hidle] at hi
    cases hi
  · by_cases hp : p = pid
    · subst hp
      obtain rfl : r' = q := Option.some.inj (request_setRequest_self.symm.trans hq)
      exact .inl ⟨hslot, hsink⟩
    · have hold : s.request p = some q := (request_setRequest_ne hp).symm.trans hq
      exact .inr ⟨h.slot_ne hr hold hp, hold⟩
  · exact .inr ⟨h.slot_ne_stream hr hj, hj⟩

lemma Ok.release (h : s.Ok) (hr : s.request pid = some r) (hactive : (c.inUse && !k.idle) = false)
    (hroom : c.rxLen ≤ c.rxCap) (hpooled : k.idle → c.rxCap = 0) :
    ((s.setSlot r.slot c k).setRequest pid none).Ok := by
  have hown : ∀ o, ((s.setSlot r.slot c k).setRequest pid none).own o = if o = some pid then 0 else s.own o := by
    intro o
    rw [own_setRequest, own_setSlot]
  have hheld := h.drop (own_request hr) (by rfl) hactive hown
  refine h.of_slot rfl rfl rfl hheld hroom hpooled (fun p q hq => ?_) (fun j hj => ?_)
  · by_cases hp : p = pid
    · subst hp
      exact nomatch request_setRequest_self.symm.trans hq
    · have hold : s.request p = some q := (request_setRequest_ne hp).symm.trans hq
      exact .inr ⟨h.slot_ne hr hold hp, hold⟩
  · exact .inr ⟨h.slot_ne_stream hr hj, hj⟩

/-! ### The stream -/

lemma Ok.streamOpen (h : s.Ok) (hnone : s.tcp.stream = none) (hi : s.active i = false)
    (hc : c.inUse) (hk : k.idle = false) (hroom : c.rxLen ≤ c.rxCap) (hsink : StreamSink c k) :
    ((s.setSlot i c k).setStream (some i)).Ok := by
  have hown : ∀ o, ((s.setSlot i c k).setStream (some i)).own o = if o = none then i.val + 1 else s.own o := by
    intro o
    rw [own_setStream, own_setSlot]
  have hheld := h.take (by rw [own, hnone]) hi (by rfl) hc hk hown
  refine h.of_slot rfl rfl rfl hheld hroom (fun hidle => ?_) (fun p q hq => ?_) (fun j hj => ?_)
  · rw [hk] at hidle
    cases hidle
  · refine .inr ⟨fun he => ?_, hq⟩
    have hactive := h.active_request hq
    rw [he, hi] at hactive
    cases hactive
  · obtain rfl : i = j := Option.some.inj hj
    exact .inl ⟨rfl, hsink⟩

lemma Ok.streamConnect (h : s.Ok) (hs : s.tcp.stream = some i) (hc : c.inUse = (s.tcp.conns i).inUse)
    (hk : k.idle = (s.sinks i).idle) (hroom : c.rxLen ≤ c.rxCap) (hsink : StreamSink c k) : (s.setSlot i c k).Ok := by
  have hidle := idle_of_active (h.active_stream hs)
  have hheld := h.keep (active_setSlot hc hk) (own_setSlot s i c k)
  refine h.of_slot rfl rfl rfl hheld hroom (fun hi => ?_) (fun p q hq => ?_) (fun j hj => ?_)
  · rw [hk, hidle] at hi
    cases hi
  · exact .inr ⟨fun he => h.slot_ne_stream hq hs he.symm, hq⟩
  · obtain rfl : i = j := Option.some.inj (hs.symm.trans hj)
    exact .inl ⟨rfl, hsink⟩

lemma Ok.streamClose (h : s.Ok) (hs : s.tcp.stream = some i) : ((s.tcpFree i).setStream none).Ok := by
  have hown : ∀ o, ((s.tcpFree i).setStream none).own o = if o = none then 0 else s.own o := by
    intro o
    rw [own_setStream, tcpFree, own_setSlot]
  have hheld := h.drop (own_stream hs) (by rfl) (by rfl) hown
  refine h.of_slot rfl rfl rfl hheld (h.room i) (fun hi => nomatch hi) (fun p q hq => ?_)
    (fun j hj => nomatch hj)
  exact .inr ⟨fun he => h.slot_ne_stream hq hs he.symm, hq⟩

/-! ### Data -/

/-- The connections receive and are read: what holds of them in general stays. -/
lemma Ok.of_tcp (h : s.Ok) {tcp : TcpNet} (hstream : tcp.stream = s.tcp.stream)
    (hslot : ∀ j, (tcp.conns j).inUse = (s.tcp.conns j).inUse ∧ (tcp.conns j).rxCap = (s.tcp.conns j).rxCap ∧
      ((tcp.conns j).state = .closed ↔ (s.tcp.conns j).state = .closed) ∧
      (tcp.conns j).rxLen ≤ (tcp.conns j).rxCap) : ({ s with tcp := tcp } : Requests).Ok := by
  have hactive : ∀ j, ({ s with tcp := tcp } : Requests).active j = s.active j := by
    intro j
    rw [active, active, (hslot j).1]
  have hown : ∀ o, ({ s with tcp := tcp } : Requests).own o = s.own o := by
    intro o
    cases o with
    | none =>
      rw [own, own]
      rw [hstream]
    | some p => rfl
  obtain ⟨hexcl, hleak⟩ := h.keep hactive hown
  refine ⟨hexcl, hleak, fun j => (hslot j).2.2.2, fun j hj => (hslot j).2.1.trans (h.pooled j hj),
    fun p q hq => ?_, fun j hj => ?_⟩
  · obtain ⟨a, ha, hsink⟩ := h.sink p q hq
    refine ⟨a, ha, ?_⟩
    rw [(hslot q.slot).2.1, (hslot q.slot).2.2.1]
    exact hsink
  · obtain ⟨hzero, hsink⟩ := h.stream j (hstream.symm.trans hj)
    refine ⟨hzero, fun hst => ?_⟩
    rw [(hslot j).2.1]
    exact hsink (fun hcl => hst ((hslot j).2.2.1.mpr hcl))

lemma Ok.segment (h : s.Ok) (seg : TcpSegment) : ({ s with tcp := handleTcp s.tcp seg } : Requests).Ok := by
  rw [handleTcp]
  cases hd : demux s.tcp seg with
  | none => exact h
  | some i =>
    obtain ⟨_, hopen⟩ := demux_accepts hd
    obtain ⟨huse, hcap, hstate, hlen⟩ := handleConn_keeps (s.tcp.conns i) seg hopen (h.room i)
    refine h.of_tcp rfl fun j => ?_
    dsimp only
    by_cases hj : j = i
    · subst hj
      rw [update_self, hcap]
      exact ⟨huse, rfl, ⟨fun hc => absurd hc hstate, fun hc => absurd hc hopen⟩, hlen⟩
    · rw [update_of_ne hj]
      exact ⟨rfl, rfl, Iff.rfl, h.room j⟩

lemma stream_tcpStreamRecv (net : TcpNet) (len : Nat) : (tcpStreamRecv net len).2.2.stream = net.stream := by
  rw [tcpStreamRecv]
  cases hs : net.stream with
  | none => exact hs
  | some j =>
    dsimp only
    by_cases hlen : len = 0
    · rw [if_pos hlen]
      exact hs
    · rw [if_neg hlen]
      by_cases hpos : (net.conns j).rxLen > 0
      · rw [if_pos hpos]
      · rw [if_neg hpos]
        split_ifs
        · exact hs
        · exact hs

lemma Ok.streamRecv (h : s.Ok) (len : Nat) : ({ s with tcp := (tcpStreamRecv s.tcp len).2.2 } : Requests).Ok := by
  rcases recv_cases s.tcp len with ⟨_, hsame⟩ | ⟨i, n, _, _, _, hconns⟩
  · rw [hsame]
    exact h
  · refine h.of_tcp (stream_tcpStreamRecv s.tcp len) fun j => ?_
    rw [hconns]
    have hroom := h.room j
    by_cases hj : j = i
    · subst hj
      rw [update_self]
      exact ⟨rfl, rfl, Iff.rfl, (Nat.sub_le _ _).trans hroom⟩
    · rw [update_of_ne hj]
      exact ⟨rfl, rfl, Iff.rfl, hroom⟩

/-! ### Steps -/

lemma active_of_tcpAlloc (h : s.tcpAlloc = some i) : s.active i = false := by
  rw [active]
  rcases or_eq_some_iff.mp h with hfree | ⟨_, hidle⟩
  · have hi := find?_some hfree
    rw [Bool.not_eq_true'] at hi
    rw [hi, Bool.false_and]
  · have hi := find?_some hidle
    rw [Bool.and_eq_true] at hi
    rw [hi.2, Bool.not_true, Bool.and_false]

lemma of_tcpFindIdle {ip : UInt32} {port : UInt16} (h : s.tcpFindIdle ip port = some i) :
    (s.tcp.conns i).inUse = true ∧ (s.sinks i).idle = true := by
  have hi := find?_some h
  simp only [Bool.and_eq_true] at hi
  exact ⟨hi.1.1.1.1, hi.1.1.1.2⟩

lemma Ok.get (h : s.Ok) (ip : UInt32) (port : UInt16) (out cap : Nat) (mem : Buf) :
    (s.step (.get pid ip port out cap mem)).Ok := by
  rw [step]
  cases hcr3 : s.cr3 pid with
  | none => exact h
  | some cr3 =>
    cases hreq : s.request pid with
    | some r => exact h
    | none =>
      dsimp only
      by_cases hcap : cap = 0
      · rw [if_pos hcap]
        exact h
      rw [if_neg hcap]
      cases hfind : s.tcpFindIdle ip port with
      | some i =>
        obtain ⟨huse, hidle⟩ := of_tcpFindIdle hfind
        have hi : s.active i = false := by rw [active, hidle, Bool.not_true, Bool.and_false]
        exact h.acquire (r := ⟨i, ip, port, out, cap, true⟩) hreq hi huse rfl (Nat.zero_le cap)
          ⟨cr3, hcr3, rfl, rfl, rfl⟩
      | none =>
        cases halloc : s.tcpAlloc with
        | some i =>
          exact h.acquire (r := ⟨i, ip, port, out, cap, false⟩) hreq (active_of_tcpAlloc halloc) rfl rfl
            le_rfl ⟨cr3, hcr3, rfl⟩
        | none => exact h

lemma Ok.resolved (h : s.Ok) (mem : Buf) : (s.step (.resolved pid mem)).Ok := by
  rw [step]
  cases hcr3 : s.cr3 pid with
  | none => exact h
  | some cr3 =>
    cases hreq : s.request pid with
    | none => exact h
    | some r =>
      dsimp only
      split_ifs
      · exact h
      · exact h.attach hreq rfl rfl rfl (Nat.zero_le _) ⟨cr3, hcr3, rfl, rfl, rfl⟩

lemma Ok.finish (h : s.Ok) (wantClose : Bool) : (s.step (.finish pid wantClose)).Ok := by
  rw [step]
  cases hreq : s.request pid with
  | none => exact h
  | some r =>
    dsimp only
    rw [leave]
    split_ifs
    · exact h.release hreq (Bool.and_false _) le_rfl (fun _ => rfl)
    · exact h.release hreq rfl (h.room r.slot) (fun hk => nomatch hk)

lemma Ok.kill (h : s.Ok) (hnone : s.request pid = none) : (s.step (.kill pid)).Ok := by
  have hsame : update s.request pid none = s.request := by
    rw [← hnone]
    exact update_eq_self ..
  rw [step, hsame]
  refine ⟨h.excl, h.leak, h.room, h.pooled, fun p q hq => ?_, h.stream⟩
  obtain ⟨a, ha, hsink⟩ := h.sink p q hq
  have hp : p ≠ pid := by
    rintro rfl
    exact nomatch hnone.symm.trans hq
  exact ⟨a, (update_of_ne hp ..).trans ha, hsink⟩

lemma Ok.spawn (h : s.Ok) (cr3 : Nat) : (s.step (.spawn pid cr3)).Ok := by
  rw [step]
  split_ifs with hlive
  · exact h
  · refine ⟨h.excl, h.leak, h.room, h.pooled, fun p q hq => ?_, h.stream⟩
    obtain ⟨a, ha, hsink⟩ := h.sink p q hq
    have hp : p ≠ pid := by
      rintro rfl
      rw [ha] at hlive
      exact hlive rfl
    exact ⟨a, (update_of_ne hp ..).trans ha, hsink⟩

lemma ok_step (e : RequestEvent) (h : s.Ok) (he : e.Orderly s) : (s.step e).Ok := by
  cases e with
  | spawn pid cr3 => exact h.spawn cr3
  | get pid ip port out cap mem => exact h.get ip port out cap mem
  | resolved pid mem => exact h.resolved mem
  | finish pid wantClose => exact h.finish wantClose
  | segment seg => exact h.segment seg
  | kill pid => exact h.kill he
  | streamOpen =>
    rw [step]
    cases halloc : s.tcpAlloc with
    | none => exact h
    | some i =>
      exact h.streamOpen he (active_of_tcpAlloc halloc) rfl rfl le_rfl ⟨rfl, fun hc => absurd rfl hc⟩
  | streamConnect ip port mem =>
    rw [step]
    cases hs : s.tcp.stream with
    | none => exact h
    | some i =>
      dsimp only
      split_ifs
      · exact h.streamConnect hs rfl rfl (Nat.zero_le _) ⟨(h.stream i hs).1, fun _ => ⟨rfl, rfl⟩⟩
      · exact h
  | streamRecv len => exact h.streamRecv len
  | streamClose =>
    rw [step]
    cases hs : s.tcp.stream with
    | none => exact h
    | some i => exact h.streamClose hs

/-! ### What the invariant says -/

lemma Ok.holder (h : s.Ok) (hi : s.active i) :
    (∃ pid r, s.request pid = some r ∧ r.slot = i ∧ (s.cr3 pid).isSome) ∨ s.tcp.stream = some i := by
  have hlt : i.val < 4 := i.isLt
  obtain ⟨o, ho⟩ := h.leak (i.val + 1) (by omega) (by omega) (used_succ.trans hi)
  cases o with
  | some pid =>
    cases hr : s.request pid with
    | none =>
      rw [own, hr] at ho
      cases ho
    | some r =>
      rw [own_request hr] at ho
      obtain ⟨a, ha, _⟩ := h.sink pid r hr
      exact .inl ⟨pid, r, hr, Fin.ext (by omega), by rw [ha]; rfl⟩
  | none =>
    cases hs : s.tcp.stream with
    | none =>
      rw [own, hs] at ho
      cases ho
    | some j =>
      rw [own_stream hs] at ho
      exact .inr (congrArg some (Fin.ext (by omega)))

lemma Ok.copied_le (h : s.Ok) {seg : TcpSegment} (hd : demux s.tcp seg = some i) :
    (s.tcp.conns i).rxLen + copied s.tcp seg ≤ (s.tcp.conns i).rxCap := by
  have hroom := h.room i
  obtain ⟨_, _, _, hlen⟩ := handleConn_keeps (s.tcp.conns i) seg (demux_accepts hd).2 hroom
  rw [copied, hd]
  dsimp only
  omega

lemma Ok.writesToHolder (h : s.Ok) (seg : TcpSegment) : s.WritesToHolder seg := by
  intro i hd hcopied
  have hlen := h.copied_le hd
  obtain ⟨huse, hopen⟩ := demux_accepts hd
  have hidle : (s.sinks i).idle = false := by
    by_contra hidle
    have hcap := h.pooled i (by rwa [Bool.not_eq_false] at hidle)
    omega
  have hactive : s.active i = true := by rw [active, huse, hidle]; rfl
  rcases h.holder hactive with ⟨pid, r, hr, rfl, _⟩ | hs
  · obtain ⟨a, ha, hsink⟩ := h.sink pid r hr
    by_cases hattached : r.attached
    · rw [if_pos hattached] at hsink
      obtain ⟨haddr, hcap, howner⟩ := hsink
      exact .inl ⟨pid, r, hr, rfl, by rw [ha, howner], by omega, by omega⟩
    · rw [if_neg hattached] at hsink
      exact absurd hsink hopen
  · obtain ⟨hzero, hsink⟩ := h.stream i hs
    obtain ⟨haddr, hcap⟩ := hsink hopen
    exact .inr ⟨hs, hzero, by omega, by omega⟩

lemma active_of_tcpAlloc_none (h : s.tcpAlloc = none) (i : Fin NET_MAX_CONNS) : s.active i = true := by
  obtain ⟨hfree, hidle⟩ := or_eq_none_iff.mp h
  have h1 := find?_eq_none.mp hfree i (mem_finRange i)
  have h2 := find?_eq_none.mp hidle i (mem_finRange i)
  rw [active]
  cases huse : (s.tcp.conns i).inUse with
  | false => exact absurd (by rw [huse]; rfl) h1
  | true =>
    cases hk : (s.sinks i).idle with
    | false => rfl
    | true => exact absurd (by rw [huse, hk]; rfl) h2

end steps

end Requests

/-! ### Runs -/

/-- In every run without a kill inside a request and without a stream opened over one left behind: every active slot has
one holder, a live process inside its request or the stream; a segment is written only to the holder's buffer, in
its address space; and an allocation fails only when all slots are held. -/
theorem run_requests (es : List RequestEvent)
    (h : Along Requests.step (fun s e => e.Orderly s) .start es) :
    let s := run Requests.step .start es
    (∀ i, s.active i = true →
      (∃ pid r, s.request pid = some r ∧ r.slot = i ∧ (s.cr3 pid).isSome) ∨ s.tcp.stream = some i) ∧
    (∀ o o', s.own o = s.own o' → s.own o ≠ 0 → o = o') ∧
    (∀ seg, s.WritesToHolder seg) ∧
    (s.tcpAlloc = none → ∀ i,
      (∃ pid r, s.request pid = some r ∧ r.slot = i ∧ (s.cr3 pid).isSome) ∨ s.tcp.stream = some i) := by
  intro s
  have hok : s.Ok := run_invariant (I := Requests.Ok) (fun s e hs he => Requests.ok_step e hs he) Requests.ok_start h
  exact ⟨fun i hi => hok.holder hi, hok.excl.inj, fun seg => hok.writesToHolder seg,
    fun hnone i => hok.holder (Requests.active_of_tcpAlloc_none hnone i)⟩

/-- A segment of the peer with address 1 and port 80 for slot 0. -/
def peerSegment (seq : UInt32) (flags : UInt8) (payload : List UInt8) : TcpSegment :=
  ⟨1, 80, 0xD100, seq, flags, payload⟩

/-- Two processes inside requests at once, the first of which receives a byte. -/
theorem run_requests_two :
    let es : List RequestEvent := [.spawn 7 4096, .spawn 8 8192, .get 7 1 80 0x400000 100 Buf.zero,
      .get 8 2 80 0x400000 50 Buf.zero, .resolved 7 Buf.zero, .segment (peerSegment 9 (TCP_SYN ||| TCP_ACK) [])]
    let s := run Requests.step .start es
    (∀ i, s.active i = true →
      (∃ pid r, s.request pid = some r ∧ r.slot = i ∧ (s.cr3 pid).isSome) ∨ s.tcp.stream = some i) ∧
    s.active 1 = true ∧ copied s.tcp (peerSegment 10 TCP_ACK [65]) = 1 ∧
    s.WritesToHolder (peerSegment 10 TCP_ACK [65]) := by
  intro es s
  have hes : Along Requests.step (fun s e => e.Orderly s) .start es := by decide
  obtain ⟨hactive, _, hwrites, _⟩ := run_requests es hes
  exact ⟨hactive, by decide, by decide, hwrites _⟩

/-- Process 7 is killed while it waits for its response: its slot stays active without a holder, and a byte that
arrives then is written to its address in its address space, which is gone. -/
theorem requests_fail :
    let s := run Requests.step .start [.spawn 7 4096, .get 7 1 80 0x400000 100 Buf.zero, .resolved 7 Buf.zero,
      .segment (peerSegment 9 (TCP_SYN ||| TCP_ACK) []), .kill 7]
    s.active 0 = true ∧ (s.request 7).isNone ∧ s.cr3 7 = none ∧ s.tcp.stream = none ∧
      demux s.tcp (peerSegment 10 TCP_ACK [65]) = some 0 ∧ copied s.tcp (peerSegment 10 TCP_ACK [65]) = 1 ∧
      (s.sinks 0).ownerCr3 = 4096 ∧ (s.sinks 0).addr = 0x400000 := by
  decide

end VibeOS
