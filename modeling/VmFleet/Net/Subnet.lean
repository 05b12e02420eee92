/-
IPv4 networks in CIDR text: an address, and after a slash the length of its
prefix or a contiguous netmask. Without a slash the prefix is the whole address.
-/
import VmFleet.Net.Address

namespace VmFleet

/-- An address and the length of its network prefix. The address need not be the network's first. -/
structure Subnet where
  address : Ipv4
  length : Nat
  length_le : length ≤ 32
  deriving DecidableEq, Repr

/-- Why a CIDR text names no network. -/
inductive SubnetFault where
  | manySlashes (text : String)
  | badAddress (text : String)
  | badPrefix
  deriving DecidableEq, Repr

def SubnetFault.message : SubnetFault → String
  | .manySlashes text => "invalid cidr format: CIDR must contain a single '/': " ++ text
  | .badAddress text => "invalid address: " ++ text
  | .badPrefix => "invalid prefix"

namespace Subnet

/-- Number of addresses of a network. -/
def size (n : Subnet) : Nat :=
  Nat.pow 2 (32 - n.length)

theorem size_pos (n : Subnet) : 0 < n.size :=
  Nat.pow_pos (by decide)

/-- The lowest address, its host bits all zero. -/
def network (n : Subnet) : Ipv4 :=
  ⟨n.address.value / n.size * n.size,
    Nat.lt_of_le_of_lt (Nat.div_mul_le_self _ _) n.address.value_lt⟩

/-- The highest address, its host bits all one. -/
def broadcast (n : Subnet) : Ipv4 :=
  .ofNat (n.network.value + n.size - 1)

/-- The same network written with its lowest address. -/
def normalized (n : Subnet) : Subnet :=
  { n with address := n.network }

def contains (n : Subnet) (a : Ipv4) : Bool :=
  n.network ≤ a && a ≤ n.broadcast

def text (n : Subnet) : String :=
  n.address.text ++ "/" ++ String.ofList (Text.decimal n.length)

/-- The prefix length of a netmask, whose one bits must all stand before its zero bits. -/
def lengthOfMask? (mask : Ipv4) : Option Nat :=
  (List.range 33).find? fun n => mask.value == bound32 - Nat.pow 2 (32 - n)

/-- A prefix: a netmask or a number up to 32. -/
def readLength? (cs : List Char) : Option Nat :=
  match Ipv4.readChars? cs with
  | some mask => lengthOfMask? mask
  | none => Text.readBelow? 33 cs

def ofLength? (address : Ipv4) (length : Nat) : Except SubnetFault Subnet :=
  if h : length ≤ 32 then .ok ⟨address, length, h⟩ else .error .badPrefix

def read? (s : String) : Except SubnetFault Subnet :=
  let cs := s.toList
  let before := cs.takeWhile (· != '/')
  let address? := Ipv4.readChars? before
  match cs.dropWhile (· != '/') with
  | [] =>
    match address? with
    | some a => ofLength? a 32
    | none => .error (.badAddress s)
  | _ :: after =>
    if after.contains '/' then .error (.manySlashes s)
    else match address? with
      | none => .error (.badAddress (String.ofList before))
      | some a =>
        match readLength? after with
        | some n => ofLength? a n
        | none => .error .badPrefix

end Subnet

end VmFleet
