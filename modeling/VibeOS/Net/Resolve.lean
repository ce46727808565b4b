import VibeOS.Net.Packets

/-!
# Resolving names

`net_resolve` sends a query and waits until the one global slot `g_dns_*` holds an answer with the id of the
query. All queries have the same id, and the parser skips the question of a response instead of comparing it:
what tells the answers of different queries apart is only the time at which they are handled.

The model runs calls of any processes side by side; the results do not depend on `net_lock`. A response is delivered
for a host only after a query for it was sent, at any later time and any number of times. The lists `answered` and
`returned` are no part of the source: they record the addresses in the responses to queries for a host, and what the
calls gave back.
-/

namespace VibeOS

open Buf Tracked List Function

/-! ### The model -/

/-- A response in the receive buffer, at position `dns`. -/
structure DnsDelivery where
  message : DnsMessage
  mem : Memory
  dns : Nat
  holds : Holds mem.bytes dns message.bytes
  fits : dns + message.bytes.length ≤ mem.size

/-- The resolver and its callers, with a record of queries, answers and results. -/
structure ResolveState where
  net : NetState
  -- the host of the call in which a process waits
  waiting : Nat → Option (List UInt8)
  queries : List (List UInt8)
  answered : List (List UInt8 × UInt32)
  returned : List (List UInt8 × UInt32)

/-- What can happen: a call up to its query, a response handled by `net_poll`, the test of the slot by a process
that waits, and the end of its time. -/
inductive ResolveEvent where
  | start (pid : Nat) (host dstMac : List UInt8)
  | deliver (host : List UInt8) (d : DnsDelivery)
  | check (pid : Nat)
  | timeout (pid : Nat)

/-- The id of every query. Source: `kernel/src/net.c` `net_resolve` -/
def resolveId : UInt16 := 0xABCD

/-- The part of a call before its loop: the slot is cleared and the query sent. The second component says whether
the call goes on to wait.
Source: `kernel/src/net.c` `net_resolve` -/
def netResolveStart (net : NetState) (host dstMac : List UInt8) : NetState × Bool :=
  let net := { net with dns := { net.dns with got := false } }
  match sendDnsQuery net.mac dstMac host resolveId with
  | none => (net, false)
  | some f => ({ net with sent := net.sent ++ [f] }, true)

/-- The test in the loop of a call.
Source: `kernel/src/net.c` `net_resolve` -/
def netResolveCheck (net : NetState) : Option UInt32 :=
  if net.dns.got = true ∧ net.dns.id = resolveId then some net.dns.ip else none

def DnsMessage.addresses (m : DnsMessage) : List UInt32 :=
  (m.answers.filter fun r => decide r.IsAddress).map DnsRecord.address

def ResolveState.step (s : ResolveState) : ResolveEvent → ResolveState
  | .start pid host dstMac =>
    if s.waiting pid ≠ none then s
    else
      let r := netResolveStart s.net host dstMac
      { s with
        net := r.1
        waiting := if r.2 then update s.waiting pid (some host) else s.waiting
        queries := if r.2 then s.queries ++ [host] else s.queries }
  | .deliver host d =>
    if host ∈ s.queries then
      { s with
        net := (handleDns d.mem d.dns s.net).result.getD s.net
        answered := s.answered ++ d.message.addresses.map fun ip => (host, ip) }
    else s
  | .check pid =>
    match s.waiting pid, netResolveCheck s.net with
    | some host, some ip =>
      { s with waiting := update s.waiting pid none, returned := s.returned ++ [(host, ip)] }
    | _, _ => s
  | .timeout pid => { s with waiting := update s.waiting pid none }

def ResolveState.boot (net : NetState) : ResolveState := ⟨net, fun _ => none, [], [], []⟩

/-- A response with an address is handled only while every call that waits is for its host, and its names are
such that the parser finds the address. -/
def ResolveEvent.Own (s : ResolveState) : ResolveEvent → Prop
  | .deliver host d => PlainAnswers d.message.answers ∧
      (firstAddress d.message.answers ≠ none → ∀ pid h, s.waiting pid = some h → h = host)
  | _ => True

/-! ### The invariant -/

/-- What a call has returned is an address for its host, and so is what a call that waits would return now. -/
structure ResolveInv (s : ResolveState) : Prop where
  returned : ∀ r ∈ s.returned, r ∈ s.answered
  slot : s.net.dns.got = true → ∀ pid h, s.waiting pid = some h → (h, s.net.dns.ip) ∈ s.answered

lemma mem_addresses {m : DnsMessage} {ip : UInt32} (h : firstAddress m.answers = some ip) : ip ∈ m.addresses := by
  obtain ⟨r, hr, rfl⟩ := Option.map_eq_some_iff.mp h
  refine mem_map.mpr ⟨r, mem_filter.mpr ⟨mem_of_find?_eq_some hr, ?_⟩, rfl⟩
  exact find?_some (p := fun r : DnsRecord => decide r.IsAddress) hr

lemma got_netResolveStart (net : NetState) (host dstMac : List UInt8) :
    (netResolveStart net host dstMac).1.dns.got = false := by
  rw [netResolveStart]
  split <;> rfl

lemma netResolveCheck_some {net : NetState} {ip : UInt32} (h : netResolveCheck net = some ip) :
    net.dns.got ∧ net.dns.ip = ip := by
  rw [netResolveCheck] at h
  split_ifs at h with hgot
  exact ⟨hgot.1, Option.some.inj h⟩

variable {s : ResolveState}

lemma ResolveInv.deliver (hs : ResolveInv s) {host : List UInt8} {d : DnsDelivery}
    (hq : host ∈ s.queries) (hown : (ResolveEvent.deliver host d).Own s) : ResolveInv (s.step (.deliver host d)) := by
  obtain ⟨hplain, hhost⟩ := hown
  have hnet : (handleDns d.mem d.dns s.net).result.getD s.net = recordFirst s.net d.message.id d.message.answers := by
    rw [(reads_handleDns s.net d.holds d.fits hplain).1]
    rfl
  rw [ResolveState.step, if_pos hq, hnet]
  refine ⟨fun r hr => mem_append_left _ (hs.returned r hr), fun hgot pid h hw => ?_⟩
  rw [recordFirst] at hgot ⊢
  cases hfirst : firstAddress d.message.answers with
  | none =>
    rw [hfirst] at hgot
    exact mem_append_left _ (hs.slot hgot pid h hw)
  | some ip =>
    obtain rfl := hhost (by rw [hfirst]; exact Option.some_ne_none ip) pid h hw
    exact mem_append_right _ (mem_map_of_mem (mem_addresses hfirst))

lemma ResolveInv.slot_update (hs : ResolveInv s) (hgot : s.net.dns.got) {pid pid' : Nat}
    {h : List UInt8} (hw : update s.waiting pid none pid' = some h) : (h, s.net.dns.ip) ∈ s.answered := by
  by_cases hp : pid' = pid
  · subst hp
    rw [update_self] at hw
    cases hw
  · rw [update_of_ne hp] at hw
    exact hs.slot hgot pid' h hw

lemma ResolveInv.step (hs : ResolveInv s) {e : ResolveEvent} (he : e.Own s) : ResolveInv (s.step e) := by
  cases e with
  | start pid host dstMac =>
    rw [ResolveState.step]
    split_ifs with hw
    · exact hs
    · refine ⟨hs.returned, fun hgot => ?_⟩
      rw [got_netResolveStart] at hgot
      cases hgot
  | deliver host d =>
    by_cases hq : host ∈ s.queries
    · exact hs.deliver hq he
    · rw [ResolveState.step, if_neg hq]
      exact hs
  | check pid =>
    rw [ResolveState.step]
    split
    · next host ip hw hc =>
      obtain ⟨hgot, rfl⟩ := netResolveCheck_some hc
      refine ⟨fun r hr => ?_, fun _ _ _ hw' => hs.slot_update hgot hw'⟩
      rcases mem_append.mp hr with hr | hr
      · exact hs.returned r hr
      · rw [mem_singleton.mp hr]
        exact hs.slot hgot pid host hw
    · exact hs
  | timeout pid => exact ⟨hs.returned, fun hgot _ _ hw' => hs.slot_update hgot hw'⟩

/-! ### Runs -/

end VibeOS
