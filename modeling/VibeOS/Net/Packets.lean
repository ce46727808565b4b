import VibeOS.Net.DnsAnswers

/-!
# Packets that are sent

The frames of `tcp_send`, `send_dns_query` and the echo reply of `handle_icmp`, and what a receiver checks of
them. The Internet checksum adds 16-bit words and folds the carries back. `addCarries` keeps the sum modulo
65535, so all that matters of a text is its `wordSum`: the checksum field, summed as zero first, then brings
the whole sum to a positive multiple of 65535 (`addCarries_complement`), which is the folded value `0xffff`.

The echo reply stores its length in 16 bits, which an echo request of more than 65515 bytes wraps around.
-/

namespace VibeOS

open Buf Tracked List

/-! ### The frames -/

def NET_DNS : UInt32 := 0x0A000203

/-- The loops of both checksum functions: add the words of `data`, an odd last byte being the high one, to a
32-bit sum. -/
def addWords (sum : UInt32) : List UInt8 → UInt32
  | a :: b :: rest => addWords (sum + UInt32.ofNat (256 * a.toNat + b.toNat)) rest
  | [a] => sum + UInt32.ofNat (256 * a.toNat)
  | [] => sum

/-- Source: `kernel/src/net.c` -/
def tcpChecksum (srcIp dstIp : UInt32) (seg : List UInt8) : UInt16 :=
  let pseudo := srcIp / 65536 + srcIp % 65536 + dstIp / 65536 + dstIp % 65536 + UInt32.ofNat IP_PROTO_TCP.toNat +
    UInt32.ofNat seg.length
  ~~~ UInt16.ofNat (addCarries (addWords pseudo seg).toNat)

/-- The segment that `tcp_send` builds, with `sum` in its checksum field. -/
def tcpSegmentBytes (c : TcpConn) (flags : UInt8) (payload : List UInt8) (sum : UInt16) : List UInt8 :=
  let sent := tcpSend c flags
  (wr16 c.localPort ++ wr16 c.remotePort ++ wr32 sent.seq ++ wr32 sent.ack ++ [0x50, sent.flags] ++
    wr16 (UInt16.ofNat sent.window)) ++ wr16 sum ++ (wr16 0 ++ payload)

/-- The frame that is handed to the card; `dstMac` is the address of the connection.
Source: `kernel/src/net.c` `tcp_send` -/
def tcpSendFrame (mac dstMac : List UInt8) (c : TcpConn) (flags : UInt8) (payload : List UInt8) : List UInt8 :=
  let segLen := UInt16.ofNat (20 + payload.length)
  let ipTotal := 20 + segLen
  (ethBuildHeader mac dstMac ETHERTYPE_IP ++ (ipHeader IP_PROTO_TCP ipTotal c.remoteIp ++
    tcpSegmentBytes c flags payload (tcpChecksum NET_IP c.remoteIp (tcpSegmentBytes c flags payload 0)))).take
      (14 + ipTotal.toNat)

/-- The datagram of a DNS query for an encoded name. -/
def dnsQueryBytes (id : UInt16) (qname : List UInt8) : List UInt8 :=
  wr16 DNS_SRC_PORT ++ wr16 DNS_PORT ++ wr16 (UInt16.ofNat (8 + 12 + qname.length + 4)) ++ wr16 0 ++
    (wr16 id ++ wr16 0x0100 ++ wr16 1 ++ wr16 0 ++ wr16 0 ++ wr16 0) ++ qname ++ wr16 1 ++ wr16 1

/-- The frame of a query, unless the name cannot be encoded.
Source: `kernel/src/net.c` -/
def sendDnsQuery (mac dstMac : List UInt8) (host : List UInt8) (id : UInt16) : Option (List UInt8) :=
  let (len, qname) := dnsEncodeName host 256
  if len = 0 then none
  else
    let udpLen := UInt16.ofNat (8 + 12 + len + 4)
    let ipTotal := 20 + udpLen
    some ((ethBuildHeader mac dstMac ETHERTYPE_IP ++ (ipHeader IP_PROTO_UDP ipTotal NET_DNS ++
      dnsQueryBytes id qname)).take (14 + ipTotal.toNat))

/-! ### What a receiver checks -/

def onesSum (l : List UInt8) : Nat := addCarries (wordSum l)

/-- The header of an IP packet in a frame sums to `0xffff`, and its total length is what follows the Ethernet
header. -/
structure IpVerifies (f : List UInt8) : Prop where
  header : onesSum ((f.drop 14).take 20) = 0xffff
  total : (be16 (Buf.ofList f) 16).toNat = f.length - 14

/-- The pseudo-header of the TCP segment in a frame: both addresses, the protocol and the length of the segment. -/
def pseudoHeader (f : List UInt8) : List UInt8 :=
  (f.drop 26).take 8 ++ [0, IP_PROTO_TCP] ++ wr16 (UInt16.ofNat (f.length - 34))

/-- The receiver accepts the IP header and the segment with its pseudo header. -/
structure TcpVerifies (f : List UInt8) : Prop extends IpVerifies f where
  segment : onesSum (pseudoHeader f ++ f.drop 34) = 0xffff

/-- The receiver accepts the IP header and the message. -/
structure IcmpVerifies (f : List UInt8) : Prop extends IpVerifies f where
  message : onesSum (f.drop 34) = 0xffff

/-! ### Folding carries -/

lemma toNat_ofNat16 {n : Nat} (h : n < 2 ^ 16) : (UInt16.ofNat n).toNat = n := UInt16.toNat_ofNat_of_lt' h

lemma toNat_ofNat32 {n : Nat} (h : n < 2 ^ 32) : (UInt32.ofNat n).toNat = n := UInt32.toNat_ofNat_of_lt' h

lemma addCarries_le (s : Nat) : addCarries s ≤ 65535 := by
  induction s using addCarries.induct with
  | case1 s h =>
    rw [addCarries, if_pos h]
    omega
  | case2 s h ih =>
    rw [addCarries, if_neg h]
    exact ih

lemma addCarries_mod (s : Nat) : addCarries s % 65535 = s % 65535 := by
  induction s using addCarries.induct with
  | case1 s h => rw [addCarries, if_pos h]
  | case2 s h ih =>
    rw [addCarries, if_neg h, ih]
    omega

lemma addCarries_pos {s : Nat} (hs : 0 < s) : 0 < addCarries s := by
  induction s using addCarries.induct with
  | case1 s h => rwa [addCarries, if_pos h]
  | case2 s h ih =>
    rw [addCarries, if_neg h]
    exact ih (by omega)

lemma addCarries_eq_ffff {s : Nat} (hpos : 0 < s) (hdvd : s % 65535 = 0) : addCarries s = 0xffff := by
  have h1 := addCarries_le s
  have h2 := addCarries_mod s
  have h3 := addCarries_pos hpos
  omega

lemma toNat_complement {c : Nat} (hc : c ≤ 65535) : (~~~ UInt16.ofNat c).toNat = 65535 - c := by
  rw [UInt16.toNat_not, toNat_ofNat16 (by omega)]
  rfl

lemma addCarries_complement (s : Nat) : addCarries (s + (~~~ UInt16.ofNat (addCarries s)).toNat) = 0xffff := by
  have hle := addCarries_le s
  have hmod := addCarries_mod s
  rw [toNat_complement hle]
  apply addCarries_eq_ffff
  · rcases Nat.eq_zero_or_pos s with rfl | h
    · have : addCarries 0 = 0 := by rw [addCarries, if_pos (by decide)]
      omega
    · omega
  · omega

/-! ### Sums of texts -/

variable {l1 mac dstMac : List UInt8}

lemma wordSum_append (k : Nat) (h : l1.length = 2 * k) (l2 : List UInt8) :
    wordSum (l1 ++ l2) = wordSum l1 + wordSum l2 := by
  induction l1 using wordSum.induct generalizing k with
  | case1 a b rest ih =>
    rw [length_cons, length_cons] at h
    rw [cons_append, cons_append, wordSum, wordSum, ih (k - 1) (by omega)]
    omega
  | case2 a =>
    rw [length_singleton] at h
    omega
  | case3 => exact (Nat.zero_add _).symm

lemma wordSum_wr16 (v : UInt16) : wordSum (wr16 v) = v.toNat := by
  have hv := v.toNat_lt
  rw [wr16, wordSum, wordSum, UInt8.toNat_ofNat', UInt8.toNat_ofNat']
  omega

lemma wordSum_wr32 (v : UInt32) : wordSum (wr32 v) = v.toNat / 65536 + v.toNat % 65536 := by
  have hv := v.toNat_lt
  rw [wr32, wordSum, wordSum, wordSum, UInt8.toNat_ofNat', UInt8.toNat_ofNat', UInt8.toNat_ofNat', UInt8.toNat_ofNat']
  omega

lemma wordSum_le (l : List UInt8) : 2 * wordSum l ≤ 65535 * (l.length + 1) := by
  induction l using wordSum.induct with
  | case1 a b rest ih =>
    have ha := a.toNat_lt
    have hb := b.toNat_lt
    rw [wordSum, length_cons, length_cons]
    omega
  | case2 a =>
    have ha := a.toNat_lt
    rw [wordSum, length_singleton]
    omega
  | case3 => exact Nat.zero_le _

lemma toNat_addWords {l : List UInt8} {sum : UInt32} (h : sum.toNat + wordSum l < 2 ^ 32) :
    (addWords sum l).toNat = sum.toNat + wordSum l := by
  induction l using wordSum.induct generalizing sum with
  | case1 a b rest ih =>
    rw [wordSum] at h ⊢
    have hword : (sum + UInt32.ofNat (256 * a.toNat + b.toNat)).toNat = sum.toNat + (256 * a.toNat + b.toNat) := by
      rw [UInt32.toNat_add, toNat_ofNat32 (by omega)]
      omega
    rw [addWords, ih (by omega), hword]
    omega
  | case2 a =>
    rw [wordSum] at h ⊢
    rw [addWords, UInt32.toNat_add, toNat_ofNat32 (by omega)]
    omega
  | case3 => rfl

/-- `ip_checksum` as the source computes it, in 32 bits: the lengths passed to it have 16 bits. -/
theorem ipChecksum_eq_addWords {l : List UInt8} (h : l.length < 2 ^ 16) :
    ipChecksum l = ~~~ UInt16.ofNat (addCarries (addWords 0 l).toNat) := by
  have hle := wordSum_le l
  have hzero : (0 : UInt32).toNat = 0 := rfl
  rw [toNat_addWords (by omega), hzero, zero_add]
  rfl

theorem ipChecksum_eq_addWords_echo : ipChecksum [8, 0, 0, 0, 1] = ~~~ UInt16.ofNat (addCarries
    (addWords 0 [8, 0, 0, 0, 1]).toNat) := ipChecksum_eq_addWords (by decide)

lemma wordSum_field (k : Nat) (h : l1.length = 2 * k) (v : UInt16) (l2 : List UInt8) :
    wordSum (l1 ++ wr16 v ++ l2) = wordSum l1 + wordSum l2 + v.toNat := by
  rw [append_assoc, wordSum_append k h, wordSum_append 1 rfl, wordSum_wr16]
  omega

/-- A text with its own checksum in a field that was zero when it was summed. -/
lemma onesSum_checksum (k : Nat) (h : l1.length = 2 * k) (l2 : List UInt8) :
    onesSum (l1 ++ wr16 (ipChecksum (l1 ++ wr16 0 ++ l2)) ++ l2) = 0xffff := by
  rw [onesSum, wordSum_field k h, ipChecksum, wordSum_field k h]
  exact addCarries_complement _

/-! ### Frames that verify -/

lemma length_ipHeader (proto : UInt8) (ipTotal : UInt16) (dstIp : UInt32) :
    (ipHeader proto ipTotal dstIp).length = 20 := rfl

lemma onesSum_ipHeader (proto : UInt8) (ipTotal : UInt16) (dstIp : UInt32) :
    onesSum (ipHeader proto ipTotal dstIp) = 0xffff := onesSum_checksum 5 rfl _

lemma length_ethBuildHeader (hm : mac.length = 6) (hd : dstMac.length = 6)
    (t : UInt16) : (ethBuildHeader mac dstMac t).length = 14 := by
  rw [ethBuildHeader, length_append, length_append, hm, hd]
  rfl

section frame

variable {eth body : List UInt8} {proto : UInt8} {ipTotal : UInt16} {dstIp : UInt32}

/-- A frame of the three parts: the total length is the right one, so nothing is cut off. -/
lemma take_frame (heth : eth.length = 14) (hbody : ipTotal.toNat = 20 + body.length) :
    (eth ++ (ipHeader proto ipTotal dstIp ++ body)).take (14 + ipTotal.toNat) =
      eth ++ (ipHeader proto ipTotal dstIp ++ body) := by
  apply take_of_length_le
  rw [length_append, length_append, length_ipHeader]
  omega

lemma ipVerifies_frame (heth : eth.length = 14) (hbody : ipTotal.toNat = 20 + body.length) :
    IpVerifies (eth ++ (ipHeader proto ipTotal dstIp ++ body)) := by
  constructor
  · rw [drop_left' heth, take_left' (length_ipHeader ..)]
    exact onesSum_ipHeader ..
  · set f := eth ++ (ipHeader proto ipTotal dstIp ++ body) with hf
    have hlen : f.length - 14 = ipTotal.toNat := by
      rw [hf, length_append, length_append, length_ipHeader]
      omega
    have hholds : Holds (Buf.ofList f) 16 (wr16 ipTotal) := by
      have hsplit : f = (eth ++ [0x45, 0]) ++ (wr16 ipTotal ++ ((ipHeader proto ipTotal dstIp).drop 4 ++ body)) := by
        rw [append_assoc]
        rfl
      have h : Holds (Buf.ofList f) 0 f := by
        rw [Holds, slice_eq_iff]
        exact ⟨rfl, fun k _ => by rw [zero_add]; rfl⟩
      generalize Buf.ofList f = b at h ⊢
      rw [hsplit] at h
      have h := h.right.left
      rwa [length_append, heth] at h
    rw [hlen, be16_of_holds hholds]

lemma drop_frame (heth : eth.length = 14) : (eth ++ (ipHeader proto ipTotal dstIp ++ body)).drop 34 = body := by
  rw [← append_assoc]
  exact drop_left' (by rw [length_append, heth, length_ipHeader])

end frame

/-! ### TCP -/

lemma length_tcpSegmentBytes (c : TcpConn) (flags : UInt8) (payload : List UInt8) (sum : UInt16) :
    (tcpSegmentBytes c flags payload sum).length = 20 + payload.length := by
  simp only [tcpSegmentBytes, length_append, length_wr16, length_wr32, length_cons, length_nil]
  omega

lemma wordSum_tcpSegmentBytes (c : TcpConn) (flags : UInt8) (payload : List UInt8) (sum : UInt16) :
    wordSum (tcpSegmentBytes c flags payload sum) = wordSum (tcpSegmentBytes c flags payload 0) + sum.toNat := by
  rw [tcpSegmentBytes, wordSum_field 8 rfl, tcpSegmentBytes, wordSum_field 8 rfl]
  rfl

lemma toNat_seg {payload : List UInt8} (h : payload.length ≤ 1464) :
    (20 + UInt16.ofNat (20 + payload.length)).toNat = 20 + (20 + payload.length) := by
  have h20 : (20 : UInt16).toNat = 20 := rfl
  rw [UInt16.toNat_add, toNat_ofNat16 (by omega), h20]
  omega

/-- The addresses, the protocol and the length, as `tcp_checksum` adds them, are the words of the
pseudo-header. -/
lemma toNat_tcpSum (srcIp dstIp : UInt32) {seg : List UInt8} (hseg : seg.length < 2 ^ 16) :
    tcpChecksum srcIp dstIp seg = ~~~ UInt16.ofNat (addCarries (wordSum (wr32 srcIp) + wordSum (wr32 dstIp) + 6 +
      seg.length + wordSum seg)) := by
  have hs := srcIp.toNat_lt
  have hd := dstIp.toNat_lt
  have hle := wordSum_le seg
  have h65536 : (65536 : UInt32).toNat = 65536 := rfl
  have hproto : (UInt32.ofNat IP_PROTO_TCP.toNat).toNat = 6 := rfl
  have hlen : (UInt32.ofNat seg.length).toNat = seg.length := toNat_ofNat32 (by omega)
  have hpseudo : (srcIp / 65536 + srcIp % 65536 + dstIp / 65536 + dstIp % 65536 +
      UInt32.ofNat IP_PROTO_TCP.toNat + UInt32.ofNat seg.length).toNat =
        wordSum (wr32 srcIp) + wordSum (wr32 dstIp) + 6 + seg.length := by
    rw [wordSum_wr32, wordSum_wr32]
    simp only [UInt32.toNat_add, UInt32.toNat_div, UInt32.toNat_mod, h65536, hproto, hlen]
    omega
  rw [tcpChecksum, toNat_addWords, hpseudo]
  rw [hpseudo, wordSum_wr32, wordSum_wr32]
  omega

lemma tcpVerifies_tcpSendFrame (hm : mac.length = 6) (hd : dstMac.length = 6)
    (c : TcpConn) (flags : UInt8) {payload : List UInt8} (h : payload.length ≤ 1464) :
    TcpVerifies (tcpSendFrame mac dstMac c flags payload) := by
  have heth := length_ethBuildHeader hm hd ETHERTYPE_IP
  have hlen (v : UInt16) := length_tcpSegmentBytes c flags payload v
  have htotal := toNat_seg h
  rw [tcpSendFrame]
  rw [take_frame heth (by rw [hlen, htotal])]
  refine ⟨ipVerifies_frame heth (by rw [hlen, htotal]), ?_⟩
  rw [pseudoHeader, drop_frame heth]
  generalize hsum : tcpChecksum NET_IP c.remoteIp (tcpSegmentBytes c flags payload 0) = sum
  -- the addresses of the pseudo-header are the last eight bytes of the header
  have haddr : ((ethBuildHeader mac dstMac ETHERTYPE_IP ++
      (ipHeader IP_PROTO_TCP (20 + UInt16.ofNat (20 + payload.length)) c.remoteIp ++
        tcpSegmentBytes c flags payload sum)).drop 26).take 8 = wr32 NET_IP ++ wr32 c.remoteIp := by
    rw [← drop_drop (i := 12) (j := 14), drop_left' heth]
    rfl
  have hrest : (ethBuildHeader mac dstMac ETHERTYPE_IP ++
      (ipHeader IP_PROTO_TCP (20 + UInt16.ofNat (20 + payload.length)) c.remoteIp ++
        tcpSegmentBytes c flags payload sum)).length - 34 = 20 + payload.length := by
    rw [length_append, length_append, length_ipHeader, heth, hlen]
    omega
  rw [haddr, hrest, onesSum]
  have hwords : wordSum (wr32 NET_IP ++ wr32 c.remoteIp ++ [0, IP_PROTO_TCP] ++
      wr16 (UInt16.ofNat (20 + payload.length)) ++ tcpSegmentBytes c flags payload sum) =
      wordSum (wr32 NET_IP) + wordSum (wr32 c.remoteIp) + 6 + (20 + payload.length) +
        wordSum (tcpSegmentBytes c flags payload 0) + sum.toNat := by
    have hproto : wordSum [0, IP_PROTO_TCP] = 6 := rfl
    rw [wordSum_append 6 rfl, wordSum_append 5 rfl, wordSum_append 4 rfl, wordSum_append 2 rfl,
      wordSum_wr16, wordSum_tcpSegmentBytes, hproto, toNat_ofNat16 (by omega)]
    omega
  rw [hwords, ← hsum, toNat_tcpSum _ _ (by rw [hlen]; omega), hlen]
  exact addCarries_complement _

/-! ### DNS queries -/

lemma ipVerifies_sendDnsQuery {host f : List UInt8} (hm : mac.length = 6) (hd : dstMac.length = 6)
    {id : UInt16} (hf : sendDnsQuery mac dstMac host id = some f) : IpVerifies f := by
  have hspec := emitLabels_spec 256 (hostLabels host) [] (by decide)
  rw [← dnsEncodeName_eq, length_nil, zero_add, nil_append] at hspec
  rw [sendDnsQuery] at hf
  rcases hspec with ⟨-, hfit, heq⟩ | ⟨-, hzero, -⟩
  · have hname : ((hostLabels host).flatMap labelBytes ++ [0]).length = encodedSize (hostLabels host) := by
      rw [length_append, length_flatMap_labelBytes]
      rfl
    rw [heq] at hf
    dsimp only at hf
    split_ifs at hf
    have h20 : (20 : UInt16).toNat = 20 := rfl
    have hbody : (20 + UInt16.ofNat (8 + 12 + encodedSize (hostLabels host) + 4)).toNat =
        20 + (dnsQueryBytes id ((hostLabels host).flatMap labelBytes ++ [0])).length := by
      rw [UInt16.toNat_add, toNat_ofNat16 (by omega), h20]
      simp only [dnsQueryBytes, length_append, length_wr16] at hname ⊢
      omega
    rw [take_frame (length_ethBuildHeader hm hd _) hbody] at hf
    rw [← Option.some.inj hf]
    exact ipVerifies_frame (length_ethBuildHeader hm hd _) hbody
  · generalize dnsEncodeName host 256 = r at hf hzero
    obtain ⟨len, qname⟩ := r
    dsimp only at hf hzero
    rw [if_pos hzero] at hf
    cases hf

/-! ### Echo replies -/

lemma icmpVerifies_icmpEchoReply {srcMac : List UInt8} (hm : mac.length = 6) (hs : srcMac.length = 6)
    (srcIp : UInt32) {icmp : List UInt8} (hmin : 8 ≤ icmp.length) (h : 20 + icmp.length < 2 ^ 16) :
    IcmpVerifies (icmpEchoReply mac srcMac srcIp icmp) := by
  have heth := length_ethBuildHeader hm hs ETHERTYPE_IP
  obtain ⟨a, code, s0, s1, rest, rfl⟩ : ∃ a code s0 s1 rest, icmp = a :: code :: s0 :: s1 :: rest := by
    match icmp, hmin with
    | a :: code :: s0 :: s1 :: rest, _ => exact ⟨a, code, s0, s1, rest, rfl⟩
  let body (v : UInt16) : List UInt8 := [0, code] ++ wr16 v ++ rest
  have hlen (v : UInt16) : (body v).length = (a :: code :: s0 :: s1 :: rest).length := by
    simp only [body, length_append, length_wr16, length_cons, length_nil]
    omega
  have htotal : (UInt16.ofNat (20 + (a :: code :: s0 :: s1 :: rest).length)).toNat =
      20 + (body (ipChecksum (body 0))).length := by
    rw [toNat_ofNat16 h, hlen]
  have heq : icmpEchoReply mac srcMac srcIp (a :: code :: s0 :: s1 :: rest) = ethBuildHeader mac srcMac ETHERTYPE_IP ++
        (ipHeader IP_PROTO_ICMP (UInt16.ofNat (20 + (a :: code :: s0 :: s1 :: rest).length)) srcIp ++
          body (ipChecksum (body 0))) := by
    rw [← take_frame heth htotal, ← append_assoc]
    rfl
  rw [heq]
  refine ⟨ipVerifies_frame heth htotal, ?_⟩
  rw [drop_frame heth]
  exact onesSum_checksum 1 rfl _

lemma not_icmpVerifies_of_length {f : List UInt8} (hf : f.length ≤ 34) : ¬ IcmpVerifies f := by
  intro h
  have hmessage := h.message
  have hzero : onesSum [] = 0 := by rw [onesSum, wordSum, addCarries, if_pos (by decide)]
  rw [drop_of_length_le hf, hzero] at hmessage
  cases hmessage

/-- A reply whose length wraps ends inside its IP header. -/
lemma not_icmpVerifies_icmpEchoReply {srcMac : List UInt8} (srcIp : UInt32) {icmp : List UInt8}
    (hlen : icmp.length < 2 ^ 16) (h : 2 ^ 16 ≤ 20 + icmp.length) :
    ¬ IcmpVerifies (icmpEchoReply mac srcMac srcIp icmp) := by
  have htotal : (UInt16.ofNat (20 + icmp.length)).toNat ≤ 20 := by
    rw [UInt16.toNat_ofNat']
    omega
  refine not_icmpVerifies_of_length ((length_take_le _ _).trans ?_)
  omega

lemma handleIcmp_sent {mem : Memory} {icmp icmpLen : Nat} {s s' : NetState} (hm : s.mac.length = 6)
    (hmin : 8 ≤ icmpLen) (hlen : icmpLen < 2 ^ 16) (h : (handleIcmp mem icmp icmpLen s).result = some s') :
    ∀ f ∈ s'.sent, f ∈ s.sent ∨ (IcmpVerifies f ↔ 20 + icmpLen < 2 ^ 16) := by
  rw [handleIcmp] at h
  obtain ⟨type, -, h⟩ := result_bind h
  obtain ⟨srcIp, -, h⟩ := result_bind h
  split_ifs at h
  · obtain ⟨id, -, h⟩ := result_bind h
    obtain ⟨seq, -, h⟩ := result_bind h
    obtain rfl := Option.some.inj h
    exact fun f hf => .inl hf
  · obtain rfl := Option.some.inj h
    exact fun f hf => .inl hf
  · obtain ⟨srcMac, hmac, h⟩ := result_bind h
    obtain ⟨body, hbody, h⟩ := result_bind h
    obtain rfl := Memory.load_result hmac
    obtain rfl := Memory.load_result hbody
    obtain rfl := Option.some.inj h
    intro f hf
    rcases mem_append.mp hf with hf | hf
    · exact .inl hf
    · rw [mem_singleton.mp hf]
      refine .inr ⟨fun hv => not_le.mp fun hwrap => ?_, fun hfits => ?_⟩
      · exact not_icmpVerifies_icmpEchoReply srcIp (by rwa [length_slice]) (by rwa [length_slice]) hv
      · exact icmpVerifies_icmpEchoReply hm (length_slice ..) srcIp (by rwa [length_slice]) (by rwa [length_slice])
  · obtain rfl := Option.some.inj h
    exact fun f hf => .inl hf

/-! ### All senders -/

/-- Every segment with at most 1464 bytes of payload, every query and every reply to an echo request of at most
65515 bytes passes the checks of a receiver. -/
theorem emitted_packets_verify (mac dstMac : List UInt8) (hm : mac.length = 6) (hd : dstMac.length = 6) :
    (∀ (c : TcpConn) (flags : UInt8) (payload : List UInt8), payload.length ≤ 1464 →
      TcpVerifies (tcpSendFrame mac dstMac c flags payload)) ∧
    (∀ (host : List UInt8) (id : UInt16) (f : List UInt8), sendDnsQuery mac dstMac host id = some f → IpVerifies f) ∧
    (∀ (mem : Memory) (icmp icmpLen : Nat) (s s' : NetState), s.mac = mac → 8 ≤ icmpLen →
      icmpLen < 2 ^ 16 → (handleIcmp mem icmp icmpLen s).result = some s' →
      ∀ f ∈ s'.sent, f ∈ s.sent ∨ (IcmpVerifies f ↔ 20 + icmpLen < 2 ^ 16)) := by
  refine ⟨fun c flags payload h => tcpVerifies_tcpSendFrame hm hd c flags h,
    fun host id f hf => ipVerifies_sendDnsQuery hm hd hf, ?_⟩
  rintro mem icmp icmpLen s s' rfl hmin hlen h
  exact handleIcmp_sent hm hmin hlen h

def smallEcho : Memory := ⟨Buf.ofList (ipFrame 29 IP_PROTO_ICMP [8, 0, 0, 0, 0, 1, 0, 1, 7]), 64⟩

/-- A segment with three bytes, a query for `a` and the answer to an echo request with nine bytes. -/
theorem emitted_packets_verify_short :
    TcpVerifies (tcpSendFrame [2, 0, 0, 0, 0, 1] [2, 0, 0, 0, 0, 2] (quietNet.tcp.conns 0) 0x18 [71, 69, 84]) ∧
    (∃ f, sendDnsQuery [2, 0, 0, 0, 0, 1] [2, 0, 0, 0, 0, 2] [97] 0xABCD = some f ∧ IpVerifies f) ∧
    ∃ s', (handleIcmp smallEcho 34 9 quietNet).result = some s' ∧ s'.sent ≠ [] ∧
      ∀ f ∈ s'.sent, f ∈ quietNet.sent ∨ (IcmpVerifies f ↔ 20 + 9 < 2 ^ 16) := by
  have h := emitted_packets_verify [2, 0, 0, 0, 0, 1] [2, 0, 0, 0, 0, 2] rfl rfl
  have hsome : (sendDnsQuery [2, 0, 0, 0, 0, 1] [2, 0, 0, 0, 0, 2] [97] 0xABCD).isSome := by decide
  obtain ⟨f, hf⟩ := Option.isSome_iff_exists.mp hsome
  exact ⟨h.1 _ _ _ (by decide), ⟨f, hf, h.2.1 _ _ f hf⟩, _, rfl, cons_ne_nil _ _,
    h.2.2 smallEcho 34 9 quietNet _ rfl (by decide) (by decide) rfl⟩

/-- An IP packet whose header claims 4 bytes for itself and 65535 for the packet, with an echo request behind
these 4 bytes. -/
def shortHeaderEcho : Memory :=
  ⟨Buf.ofList (ethBuildHeader [2, 0, 0, 0, 0, 2] [2, 0, 0, 0, 0, 1] ETHERTYPE_IP ++ [0x41, 0, 0xff, 0xff, 8, 0, 0, 0,
    64, IP_PROTO_ICMP, 0, 0] ++ wr32 0x0A000202 ++ wr32 NET_IP), 70000⟩

/-- The length of the reply to `shortHeaderEcho` wraps around to 15: of the header 15 bytes are sent, and nothing
of the message. -/
theorem emitted_packets_fail :
    ∃ f, (handleIp shortHeaderEcho 60 quietNet).result = some { quietNet with sent := [f] } ∧ f.length = 29 ∧
      ¬ IcmpVerifies f := by
  have hlen : (icmpEchoReply quietNet.mac (shortHeaderEcho.bytes.slice 6 6) (be32 shortHeaderEcho.bytes (14 + 12))
      (shortHeaderEcho.bytes.slice 18 65531)).length = 29 := by
    have htotal : (UInt16.ofNat (20 + 65531)).toNat = 15 := by decide
    rw [icmpEchoReply, length_slice, htotal, length_take_of_le]
    rw [length_append, length_append, length_ethBuildHeader rfl (length_slice ..)]
    rw [length_ipHeader]
    omega
  exact ⟨_, rfl, hlen, not_icmpVerifies_of_length (hlen.le.trans (by decide))⟩

end VibeOS
