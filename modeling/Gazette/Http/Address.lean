import Gazette.Text.Radix
import Gazette.Text.Split

/-!
# Socket addresses

A socket address is the address of a host and the number of a port. The address is either four
octets between points, or eight groups of 16 bits between colons, in brackets; there a run of zero
groups can be left out once, and the last two groups can be written as four octets.
-/
namespace Gazette.Http
open Gazette.Text

inductive HostAddress
  | octets (values : List Nat)
  | groups (values : List Nat) (scope : Nat)
deriving DecidableEq, Repr, Inhabited

structure SocketAddress where
  host : HostAddress
  port : Nat
deriving DecidableEq, Repr, Inhabited

namespace SocketAddress

/-- Takes a number below a bound from the start of a text. Where there is a width, it must not have
more digits than that. -/
def takeNumber (radix bound : Nat) (width : Option Nat) (cs : List Char) :
    Option (Nat × List Char) :=
  let digits := cs.takeWhile (isDigitIn radix)
  if digits = [] ∨ width.any (· < digits.length) ∨ bound ≤ radixValue radix digits then none
  else some (radixValue radix digits, cs.drop digits.length)

/-- Takes an octet, which has no leading zeros. -/
def takeOctet (cs : List Char) : Option (Nat × List Char) :=
  match cs with
  | '0' :: c :: rest => if isDigit c then none else some (0, c :: rest)
  | cs => takeNumber 10 256 (some 3) cs

/-- Takes octets with points between them. -/
def takeOctets : (count : Nat) → List Char → Option (List Nat × List Char)
  | 0, cs => some ([], cs)
  | 1, cs => (takeOctet cs).map fun (n, cs) => ([n], cs)
  | count + 1, cs => do
    let (n, cs) ← takeOctet cs
    let cs ← dropInitial ['.'] cs
    let (ns, cs) ← takeOctets count cs
    some (n :: ns, cs)

/-- The groups that four octets stand for. -/
def pairOctets : List Nat → List Nat
  | a :: b :: rest => (256 * a + b) :: pairOctets rest
  | _ => []

/-- Takes as many groups as there are, up to `limit`. `isFirst` says that no colon stands before
the next group. The result says whether the last two groups are written as octets. -/
def takeGroups : (limit : Nat) → (isFirst : Bool) → List Char → List Nat × Bool × List Char
  | 0, _, cs => ([], false, cs)
  | limit + 1, isFirst, cs =>
    match if isFirst then some cs else dropInitial [':'] cs with
    | none => ([], false, cs)
    | some inner =>
      match if limit = 0 then none else takeOctets 4 inner with
      | some (octets, rest) => (pairOctets octets, true, rest)
      | none =>
        match takeNumber 16 0x10000 (some 4) inner with
        | none => ([], false, cs)
        | some (n, rest) =>
          let (ns, asOctets, rest) := takeGroups limit false rest
          (n :: ns, asOctets, rest)

/-- Takes eight groups, of which a run of zeros can be left out. -/
def takeAllGroups (cs : List Char) : Option (List Nat × List Char) :=
  let (front, asOctets, rest) := takeGroups 8 true cs
  if front.length = 8 then some (front, rest)
  else if asOctets then none
  else do
    let rest ← dropInitial [':', ':'] rest
    let (back, _, rest) := takeGroups (7 - front.length) true rest
    some (front ++ List.replicate (8 - front.length - back.length) 0 ++ back, rest)

/-- Takes the scope of an address in groups, which may be missing. -/
def takeScope (cs : List Char) : Nat × List Char :=
  match (dropInitial ['%'] cs).bind (takeNumber 10 0x100000000 none) with
  | some (n, rest) => (n, rest)
  | none => (0, cs)

def takeHost (cs : List Char) : Option (HostAddress × List Char) :=
  match takeOctets 4 cs with
  | some (octets, rest) => some (.octets octets, rest)
  | none => do
    let cs ← dropInitial ['['] cs
    let (groups, cs) ← takeAllGroups cs
    let (scope, cs) := takeScope cs
    let cs ← dropInitial [']'] cs
    some (.groups groups scope, cs)

def read? (s : String) : Option SocketAddress := do
  let (host, cs) ← takeHost s.toList
  let cs ← dropInitial [':'] cs
  match ← takeNumber 10 0x10000 none cs with
  | (port, []) => some ⟨host, port⟩
  | _ => none

end SocketAddress
end Gazette.Http
