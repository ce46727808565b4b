import VibeOS.Lib.Tracked
import VibeOS.Net.Tcp

/-!
# Inbound frames

`netFrame` is the body of the loop in `net_poll`: it looks at the type of a received frame of `n` bytes and
hands it to `handleArp` or `handleIp`, and these to `handleIcmp`, `handleTcpFrame` and `handleDns`. The
frame lies at the start of a memory that goes on behind it, as `g_rxframe` does. Every access to the frame
is a tracked read; what the handlers send and store is kept in `NetState`.

Other names are those of `kernel/src/net.c`.
-/

namespace VibeOS

open Buf Tracked

/-! ### Words in network byte order -/

def be16 (b : Buf) (o : Nat) : UInt16 := UInt16.ofNat (256 * (b o).toNat + (b (o + 1)).toNat)

def be32 (b : Buf) (o : Nat) : UInt32 :=
  UInt32.ofNat (16777216 * (b o).toNat + 65536 * (b (o + 1)).toNat + 256 * (b (o + 2)).toNat + (b (o + 3)).toNat)

def wr16 (v : UInt16) : List UInt8 := [UInt8.ofNat (v.toNat / 256), UInt8.ofNat v.toNat]

def wr32 (v : UInt32) : List UInt8 :=
  [UInt8.ofNat (v.toNat / 16777216), UInt8.ofNat (v.toNat / 65536), UInt8.ofNat (v.toNat / 256), UInt8.ofNat v.toNat]

def Memory.rd8 (mem : Memory) (p : Nat) : Tracked UInt8 := mem.load p 1 (mem.bytes p)

def Memory.rd16 (mem : Memory) (p : Nat) : Tracked UInt16 := mem.load p 2 (be16 mem.bytes p)

def Memory.rd32 (mem : Memory) (p : Nat) : Tracked UInt32 := mem.load p 4 (be32 mem.bytes p)

/-! ### State -/

def NET_IP : UInt32 := 0x0A000210
def ETHERTYPE_ARP : UInt16 := 0x0806
def ETHERTYPE_IP : UInt16 := 0x0800
def IP_PROTO_ICMP : UInt8 := 1
def IP_PROTO_UDP : UInt8 := 17
def IP_PROTO_TCP : UInt8 := 6
def DNS_PORT : UInt16 := 53
def DNS_SRC_PORT : UInt16 := 0xC000
def ARP_CACHE_SIZE : Nat := 8

/-- The size of the transmit buffer. Source: `g_txframe` -/
def txframeSize : Nat := 1518

/-- Source: `struct arp_entry` -/
structure ArpEntry where
  ip : UInt32
  mac : List UInt8
  valid : Bool

/-- The last echo reply and whether there was one, for `net_ping`. -/
structure EchoReply where
  ip : UInt32
  id : UInt16
  seq : UInt16
  got : Bool

/-- The last DNS answer and whether there was one, for `net_resolve`. -/
structure DnsAnswer where
  id : UInt16
  ip : UInt32
  got : Bool

/-- What the handlers of frames read and change; `sent` are the frames they transmit apart from the
segments of connections. -/
structure NetState where
  mac : List UInt8
  arpCache : Fin ARP_CACHE_SIZE → ArpEntry
  reply : EchoReply
  dns : DnsAnswer
  tcp : TcpNet
  sent : List (List UInt8)

/-! ### Frames that are sent -/

/-- The sum of the 16-bit words of a packet, an odd last byte being the high one. -/
def wordSum : List UInt8 → Nat
  | a :: b :: rest => 256 * a.toNat + b.toNat + wordSum rest
  | [a] => 256 * a.toNat
  | [] => 0

/-- Add the carries until the sum has 16 bits. -/
def addCarries (sum : Nat) : Nat :=
  if sum / 65536 = 0 then sum else addCarries (sum % 65536 + sum / 65536)
termination_by sum
decreasing_by omega

def ipChecksum (data : List UInt8) : UInt16 := ~~~ UInt16.ofNat (addCarries (wordSum data))

def ethBuildHeader (mac dstMac : List UInt8) (ethertype : UInt16) : List UInt8 :=
  dstMac ++ mac ++ wr16 ethertype

/-- Source: `send_arp_reply` -/
def arpReply (mac : List UInt8) (targetIp : UInt32) (targetMac : List UInt8) : List UInt8 :=
  ethBuildHeader mac targetMac ETHERTYPE_ARP ++ wr16 1 ++ wr16 ETHERTYPE_IP ++ [6, 4] ++ wr16 2 ++ mac ++
    wr32 NET_IP ++ targetMac ++ wr32 targetIp

/-- The IP header that the three senders write, with its checksum. -/
def ipHeader (proto : UInt8) (ipTotal : UInt16) (dstIp : UInt32) : List UInt8 :=
  let start := [0x45, 0] ++ wr16 ipTotal ++ wr16 0 ++ wr16 0x4000 ++ [64, proto]
  let addresses := wr32 NET_IP ++ wr32 dstIp
  start ++ wr16 (ipChecksum (start ++ wr16 0 ++ addresses)) ++ addresses

/-- The answer to an echo request whose ICMP part is `icmp`. The length passed to the card is that of the
16-bit `ip_total`.
Source: `handle_icmp` -/
def icmpEchoReply (mac srcMac : List UInt8) (srcIp : UInt32) (icmp : List UInt8) : List UInt8 :=
  let ipTotal := UInt16.ofNat (20 + icmp.length)
  let body (checksum : UInt16) := [0] ++ (icmp.take 2).drop 1 ++ wr16 checksum ++ icmp.drop 4
  (ethBuildHeader mac srcMac ETHERTYPE_IP ++ ipHeader IP_PROTO_ICMP ipTotal srcIp ++
    body (ipChecksum (body 0))).take (14 + ipTotal.toNat)

/-! ### ARP -/

/-- The entry that is replaced: the one for the address, or the last that is not valid, or the first.
Source: `arp_insert` -/
def arpSlot (cache : Fin ARP_CACHE_SIZE → ArpEntry) (ip : UInt32) : Fin ARP_CACHE_SIZE :=
  match (List.finRange ARP_CACHE_SIZE).find? fun i => (cache i).valid && (cache i).ip == ip with
  | some i => i
  | none => (((List.finRange ARP_CACHE_SIZE).reverse.find? fun i => !(cache i).valid)).getD ⟨0, by decide⟩

def arpInsert (cache : Fin ARP_CACHE_SIZE → ArpEntry) (ip : UInt32) (mac : List UInt8) :
    Fin ARP_CACHE_SIZE → ArpEntry :=
  Function.update cache (arpSlot cache ip) ⟨ip, mac, true⟩

def handleArp (mem : Memory) (len : Nat) (s : NetState) : Tracked NetState :=
  if len < 14 + 28 then pure s
  else do
    let oper ← mem.rd16 (14 + 6)
    let senderIp ← mem.rd32 (14 + 14)
    let targetIp ← mem.rd32 (14 + 24)
    let mac ← mem.copy (14 + 8) 6
    let s1 := { s with arpCache := arpInsert s.arpCache senderIp mac }
    if oper = 1 ∧ targetIp = NET_IP then do
      let targetMac ← mem.copy (14 + 8) 6
      pure { s1 with sent := s.sent ++ [arpReply s.mac senderIp targetMac] }
    else pure s1

/-! ### ICMP -/

/-- Handle the ICMP message of `icmpLen` bytes at offset `icmp`. -/
def handleIcmp (mem : Memory) (icmp icmpLen : Nat) (s : NetState) : Tracked NetState := do
  let type ← mem.rd8 icmp
  let srcIp ← mem.rd32 (14 + 12)
  if type = 0 then do
    let id ← mem.rd16 (icmp + 4)
    let seq ← mem.rd16 (icmp + 6)
    pure { s with reply := ⟨srcIp, id, seq, true⟩ }
  else if type = 8 then
    if (UInt16.ofNat (20 + icmpLen)).toNat + 14 > txframeSize then pure s
    else do
      let srcMac ← mem.copy 6 6
      let body ← mem.copy icmp icmpLen
      pure { s with sent := s.sent ++ [icmpEchoReply s.mac srcMac srcIp body] }
  else pure s

/-! ### TCP -/

/-- The number of payload bytes that `handle_tcp` copies to the receive buffer. -/
def copied (net : TcpNet) (seg : TcpSegment) : Nat :=
  match demux net seg with
  | none => 0
  | some i => (handleConn (net.conns i) seg).1.rxLen - (net.conns i).rxLen

/-- Read the part of the payload that is copied, if there is one.
Source: `handle_tcp` -/
def readPayload (mem : Memory) (payload copy : Nat) : Tracked Unit :=
  if copy > 0 then mem.load payload copy () else pure ()

/-- Parse and handle the TCP segment of `segLen` bytes at offset `tcp`. Of the payload only the bytes
that are copied are read.
Source: `handle_tcp` -/
def handleTcpFrame (mem : Memory) (tcp segLen : Nat) (s : NetState) : Tracked NetState := do
  let srcPort ← mem.rd16 tcp
  let dstPort ← mem.rd16 (tcp + 2)
  let seq ← mem.rd32 (tcp + 4)
  let flags ← mem.rd8 (tcp + 13)
  let offset ← mem.rd8 (tcp + 12)
  let dataOff := (offset >>> 4).toNat * 4
  let srcIp ← mem.rd32 (14 + 12)
  let payload := mem.bytes.slice (tcp + dataOff) (segLen - dataOff)
  let seg : TcpSegment := ⟨srcIp, srcPort, dstPort, seq, flags, payload⟩
  readPayload mem (tcp + dataOff) (copied s.tcp seg)
  pure { s with tcp := handleTcp s.tcp seg }

/-! ### DNS -/

/-- The name is compressed: its first byte belongs to a pointer. -/
def isPointer (b : UInt8) : Bool := b &&& 0xC0 == 0xC0

/-- Skip the name of a question; it ends after a zero label or a pointer. The loop moves on by at least one
byte, so `fuel` bounds the memory.
Source: `handle_ip` -/
def skipQuestionName (mem : Memory) : Nat → Nat → Tracked Nat
  | 0, _ => fault
  | fuel + 1, p => do
      let b ← mem.rd8 p
      if b = 0 then pure (p + 1)
      else if isPointer b then pure (p + 2)
      else skipQuestionName mem fuel (p + b.toNat + 1)

/-- Skip labels up to the zero label. A pointer behind a label is not recognised.
Source: `handle_ip` -/
def skipLabels (mem : Memory) : Nat → Nat → Tracked Nat
  | 0, _ => fault
  | fuel + 1, p => do
      let b ← mem.rd8 p
      if b = 0 then pure (p + 1) else skipLabels mem fuel (p + b.toNat + 1)

/-- Skip the name of an answer.
Source: `handle_ip` -/
def skipAnswerName (mem : Memory) (p : Nat) : Tracked Nat := do
  let b ← mem.rd8 p
  if isPointer b then pure (p + 2) else skipLabels mem mem.size p

/-- Skip the questions.
Source: `handle_ip` -/
def skipQuestions (mem : Memory) : Nat → Nat → Tracked Nat
  | 0, p => pure p
  | q + 1, p => do
      let e ← skipQuestionName mem mem.size p
      skipQuestions mem q (e + 4)

/-- Walk the answers to the first address record.
Source: `handle_ip` -/
def walkAnswers (mem : Memory) : Nat → Nat → Tracked (Option UInt32)
  | 0, _ => pure none
  | a + 1, p => do
      let e ← skipAnswerName mem p
      let type ← mem.rd16 e
      let rdlength ← mem.rd16 (e + 8)
      if type = 1 ∧ rdlength = 4 then do
        let ip ← mem.rd32 (e + 10)
        pure (some ip)
      else walkAnswers mem a (e + 10 + rdlength.toNat)

/-- Handle the DNS message at offset `dns`.
Source: `handle_ip` -/
def handleDns (mem : Memory) (dns : Nat) (s : NetState) : Tracked NetState := do
  let id ← mem.rd16 dns
  let ancount ← mem.rd16 (dns + 6)
  let qdcount ← mem.rd16 (dns + 4)
  let p ← skipQuestions mem qdcount.toNat (dns + 12)
  let found ← walkAnswers mem ancount.toNat p
  match found with
  | some ip => pure { s with dns := ⟨id, ip, true⟩ }
  | none => pure s

/-- Handle a UDP datagram at offset `udp`: only answers to our queries matter.
Source: `handle_ip` -/
def handleUdp (mem : Memory) (udp : Nat) (s : NetState) : Tracked NetState := do
  let srcPort ← mem.rd16 udp
  if srcPort ≠ DNS_PORT then pure s
  else do
    let dstPort ← mem.rd16 (udp + 2)
    if dstPort ≠ DNS_SRC_PORT then pure s else handleDns mem (udp + 8) s

/-! ### IP and the frame -/

def handleIp (mem : Memory) (len : Nat) (s : NetState) : Tracked NetState :=
  if len < 14 + 20 then pure s
  else do
    let first ← mem.rd8 14
    let ihl := (first &&& 0x0f).toNat * 4
    let total ← mem.rd16 (14 + 2)
    let dstIp ← mem.rd32 (14 + 16)
    if dstIp ≠ NET_IP then pure s
    else do
      let proto ← mem.rd8 (14 + 9)
      if proto = IP_PROTO_ICMP ∧ total.toNat ≥ ihl + 8 then
        handleIcmp mem (14 + ihl) (total.toNat - ihl) s
      else if proto = IP_PROTO_TCP ∧ total.toNat ≥ ihl + 20 then
        handleTcpFrame mem (14 + ihl) (total.toNat - ihl) s
      else if proto = IP_PROTO_UDP ∧ total.toNat ≥ ihl + 8 then handleUdp mem (14 + ihl) s
      else pure s

/-- Handle a received frame of `n` bytes.
Source: `net_poll` -/
def netFrame (mem : Memory) (n : Nat) (s : NetState) : Tracked NetState :=
  if n < 14 then pure s
  else do
    let ethertype ← mem.rd16 12
    if ethertype = ETHERTYPE_ARP then handleArp mem (n % 2 ^ 16) s
    else if ethertype = ETHERTYPE_IP then handleIp mem (n % 2 ^ 16) s
    else pure s

end VibeOS
