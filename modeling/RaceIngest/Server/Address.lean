import RaceIngest.Decimal.Digits
import RaceIngest.Text.Hex

/-!
# Listen addresses

The address to listen on is a text: an IPv4 address or a bracketed IPv6 address with a port after a
colon, or a host name with a port. An address of numbers is used as it stands. Anything else
needs a lookup of the host, and a text without a port, or with a port beyond 16 bits, then turns
out to be no address. Hosts that are numbers in a looser notation are looked up without asking
anyone: an IPv4 address may then have less than four parts, and parts to the base sixteen or eight.

An IPv6 address may name a zone after a percent sign; it is not needed to listen.

## Main definitions

* `ListenAddress`, `ListenAddress.parse?`, `ListenAddress.resolve?`,
* `ListenAddress.isLiteral`.
-/

namespace RaceIngest

open Decimal Text

-- Powers are those of the core library, also where algebra is imported.
attribute [local instance (high)] instPowNat

/-- Where to listen. -/
inductive ListenAddress where
  /-- An IPv4 address as a number, and a port. -/
  | ipv4 (host : Nat) (port : Nat)
  /-- An IPv6 address as a number, and a port. -/
  | ipv6 (host : Nat) (port : Nat)
  /-- A host to be looked up, and a port. -/
  | named (host : String) (port : Nat)
  deriving DecidableEq, Repr

namespace ListenAddress

/-- Reads a whole row of digits below a bound. -/
def numberBelow? (bound : Nat) (cs : List Char) : Option Nat :=
  match Digits.ofChars? cs with
  | some (d :: ds) =>
    let n := Digits.value (d :: ds)
    if n < bound then some n else none
  | _ => none

/-- The number of four octets, which have no superfluous zeros. -/
def ipv4? (cs : List Char) : Option Nat :=
  let octet? (part : List Char) : Option Nat :=
    if part.length ≤ 3 ∧ (part.length = 1 ∨ part.head? ≠ some '0') then numberBelow? 256 part
    else none
  match (cs.splitOn '.').map octet? with
  | [some a, some b, some c, some d] => some (((a * 256 + b) * 256 + c) * 256 + d)
  | _ => none

/-- The 16-bit groups that parts between colons write; at the end of an address the last part may
be an IPv4 address. -/
def groups? (atEnd : Bool) : List (List Char) → Option (List Nat)
  | [] => some []
  | part :: rest =>
    match atEnd, rest, ipv4? part with
    | true, [], some host => some [host / 65536, host % 65536]
    | _, _, _ =>
      if 1 ≤ part.length ∧ part.length ≤ 4 then do
        let group ← Hex.number? 0 part
        let groups ← groups? atEnd rest
        some (group :: groups)
      else none

/-- The parts between colons of a text that may be empty. -/
def colonParts (cs : List Char) : List (List Char) := if cs.isEmpty then [] else cs.splitOn ':'

/-- Splits a text at the first double colon. -/
def splitDoubleColon? : List Char → Option (List Char × List Char)
  | ':' :: ':' :: rest => some ([], rest)
  | c :: rest => (splitDoubleColon? rest).map fun (front, back) => (c :: front, back)
  | [] => none

/-- The number of eight groups, a row of which may be left out once. -/
def plainIpv6? (cs : List Char) : Option Nat := do
  let number (groups : List Nat) : Nat := groups.foldl (fun n group => n * 65536 + group) 0
  match splitDoubleColon? cs with
  | none =>
    let groups ← groups? true (colonParts cs)
    if groups.length = 8 then some (number groups) else none
  | some (front, back) =>
    let high ← groups? false (colonParts front)
    let low ← groups? true (colonParts back)
    if high.length + low.length ≤ 7 then
      some (number (high ++ List.replicate (8 - high.length - low.length) 0 ++ low))
    else none

/-- The number of an IPv6 address, after which the number of a zone may stand. -/
def ipv6? (cs : List Char) : Option Nat := do
  match cs.dropWhile (· ≠ '%') with
  | [] => plainIpv6? cs
  | _ :: zone =>
    let _ ← numberBelow? (2 ^ (32 : Nat)) zone
    plainIpv6? (cs.takeWhile (· ≠ '%'))

/-- Reads a part of an IPv4 address in loose notation: a number to the base sixteen after its
prefix, to the base eight after a zero, and else to the base ten. -/
def loosePart? : List Char → Option Nat
  | '0' :: 'x' :: digits | '0' :: 'X' :: digits => Hex.based? 16 digits
  | '0' :: digit :: digits => Hex.based? 8 (digit :: digits)
  | digits => Hex.based? 10 digits

/-- The number of an IPv4 address in loose notation: one to four parts, of which the last fills the
octets that are left. -/
def looseIpv4? (cs : List Char) : Option Nat := do
  let parts ← (cs.splitOn '.').mapM loosePart?
  let octets := parts.dropLast
  let rest ← parts.getLast?
  guard (octets.length < 4 && octets.all (· < 256) && rest < 256 ^ (4 - octets.length))
  return octets.foldl (fun n octet => n * 256 + octet) 0 * 256 ^ (4 - octets.length) + rest

/-- Splits a text at its last colon. -/
def splitLastColon? (cs : List Char) : Option (List Char × List Char) :=
  let reversed := cs.reverse
  match reversed.dropWhile (· ≠ ':') with
  | [] => none
  | _ :: front => some (front.reverse, (reversed.takeWhile (· ≠ ':')).reverse)

/-- Reads the port that follows a named host; it may have a plus sign. -/
def port? (cs : List Char) : Option Nat :=
  match cs with
  | '+' :: rest => numberBelow? 65536 rest
  | _ => numberBelow? 65536 cs

/-- Reads an address of numbers. -/
def literal? (cs : List Char) : Option ListenAddress := do
  let (host, port) ← splitLastColon? cs
  let port ← numberBelow? 65536 port
  match host with
  | '[' :: rest =>
    if rest.getLast? = some ']' then (ipv6? rest.dropLast).map (.ipv6 · port) else none
  | _ => (ipv4? host).map (.ipv4 · port)

/-- Reads an address. -/
def parse? (addr : String) : Option ListenAddress :=
  match literal? addr.toList with
  | some address => some address
  | none => do
    let (host, port) ← splitLastColon? addr.toList
    let port ← port? port
    some (.named (String.ofList host) port)

/-- The address of a host that can be looked up without a network: the machine itself, and a host
that is an address of numbers. -/
def resolve? : ListenAddress → Option ListenAddress
  | .named host port =>
    if host = "localhost" then some (.ipv4 0x7f000001 port)
    else
      match looseIpv4? host.toList with
      | some n => some (.ipv4 n port)
      | none => (ipv6? host.toList).map (.ipv6 · port)
  | address => some address

/-- Whether an address can be used without a lookup. -/
def isLiteral (addr : String) : Bool := (literal? addr.toList).isSome

end ListenAddress

end RaceIngest
