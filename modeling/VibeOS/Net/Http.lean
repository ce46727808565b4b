import VibeOS.Lib.CInt
import VibeOS.Net.Tcp

/-!
# Framing of HTTP responses

The parser that `net_http_get` runs over what it received so far, and the test that ends its receive loop.
-/

namespace VibeOS

open Buf

def lowerByte (c : UInt8) : UInt8 := if 65 ≤ c ∧ c ≤ 90 then c + 32 else c

def asciiBytes (s : String) : List UInt8 := s.toList.map fun c => UInt8.ofNat c.toNat

/-- The first match of `needle` in the first `n` bytes, without regard to case.
Source: `kernel/src/net.c` -/
def ciFind (hay : List UInt8) (n : Nat) (needle : List UInt8) : Option Nat :=
  (List.range (n + 1 - needle.length)).find? fun i =>
    ((hay.drop i).take needle.length).map lowerByte == needle.map lowerByte

variable (buf : List UInt8)

/-- The end of the header block: the first empty line. -/
def headerEnd : Option Nat :=
  (List.range (buf.length - 3)).find? fun i => (buf.drop i).take 4 == [13, 10, 13, 10]

/-- The number after the first `content-length:` of the header block, a signed 64-bit number. -/
def contentLength (hdrEnd : Nat) : Option Int :=
  (ciFind buf hdrEnd (asciiBytes "content-length:")).bind fun cl =>
    let field := ((buf.take hdrEnd).drop (cl + 15)).dropWhile fun c => c == 32 || c == 9
    let digits := field.takeWhile fun c => 48 ≤ c && c ≤ 57
    if digits = [] then none
    else some (digits.foldl (fun n c => wrap64 (n * 10 + (c.toNat - 48))) 0)

/-- Whether a whole response was received, and whether the connection cannot be used again.
Source: `kernel/src/net.c` -/
def httpResponseComplete : Bool × Bool :=
  match headerEnd buf with
  | none => (false, false)
  | some hdrEnd =>
    let is10 := (ciFind buf (min hdrEnd 16) (asciiBytes "http/1.0")).isSome
    let hdrClose := (ciFind buf hdrEnd (asciiBytes "connection: close")).isSome
    let hdrKeepalive := (ciFind buf hdrEnd (asciiBytes "connection: keep-alive")).isSome
    if (ciFind buf hdrEnd (asciiBytes "transfer-encoding: chunked")).isSome then (false, true)
    else
      match contentLength buf hdrEnd with
      | some n => (decide (((buf.length - (hdrEnd + 4) : Nat) : Int) ≥ n), hdrClose || (is10 && !hdrKeepalive))
      | none => (false, true)

def TcpConn.rx (c : TcpConn) : List UInt8 := c.rxBuf.slice 0 c.rxLen

/-- How a pass of the receive loop ends it: the response is complete, or the peer closed or the buffer is
full. -/
inductive HttpStop where
  | complete (wantClose : Bool)
  | closed
  | full
deriving DecidableEq

/-- The test after `net_poll` in the receive loop.
Source: `kernel/src/net.c` `net_http_get` -/
def httpPass (c : TcpConn) : Option HttpStop :=
  let r := httpResponseComplete c.rx
  if r.1 then some (.complete r.2)
  else if c.state = .done then some .closed
  else if c.rxLen ≥ c.rxCap then some .full
  else none

end VibeOS
