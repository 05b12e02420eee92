/-
The network of a pool: a subnet with its gateway. Prefixes of 16 to 30 bits are
accepted, because every address that may be handed out gets a record of its own
and at least two are wanted.
-/
import VmFleet.Error
import VmFleet.Net.Subnet
import VmFleet.Text.Blank

namespace VmFleet

/-- A subnet, written with its lowest address, and the gateway in it. -/
structure PoolNetwork where
  subnet : Subnet
  gateway : Ipv4
  deriving DecidableEq, Repr

/-- Why two texts make no network for a pool. -/
inductive NetworkFault where
  | cidr (text : String) (fault : SubnetFault)
  | gateway (text : String)
  | noHosts (cidr : String)
  | tooLarge (cidr : String)
  | gatewayOutside (gateway : Ipv4) (subnet : Subnet)
  deriving DecidableEq, Repr

namespace NetworkFault

def message : NetworkFault → String
  | .cidr text fault => "bad CIDR '" ++ text ++ "': " ++ fault.message
  | .gateway text => "bad gateway '" ++ text ++ "': invalid IPv4 address syntax"
  | .noHosts text => "network " ++ text ++ " has no usable hosts"
  | .tooLarge text => "network " ++ text ++ " is larger than /16"
  | .gatewayOutside g subnet => "gateway " ++ g.text ++ " is outside " ++ subnet.text

def error (f : NetworkFault) : Error :=
  .invalidNetwork f.message

end NetworkFault

namespace PoolNetwork

/-- Reads the two texts, blanks at their ends aside. Host bits of the CIDR are cleared. -/
def read? (cidr gateway : String) : Except NetworkFault PoolNetwork :=
  match Subnet.read? (Text.trim cidr) with
  | .error fault => .error (.cidr cidr fault)
  | .ok subnet =>
    match Ipv4.read? (Text.trim gateway) with
    | none => .error (.gateway gateway)
    | some g =>
      if 30 < subnet.length then .error (.noHosts cidr)
      else if subnet.length < 16 then .error (.tooLarge cidr)
      else if subnet.normalized.contains g then .ok ⟨subnet.normalized, g⟩
      else .error (.gatewayOutside g subnet.normalized)

/-- The addresses that may be handed out, ascending: all of the subnet but its first, its last and
the gateway. -/
def hosts (n : PoolNetwork) : List Ipv4 :=
  let first := n.subnet.network.value
  ((List.range n.subnet.size).map fun i => Ipv4.ofNat (first + i)).filter fun a =>
    a != n.subnet.network && a != n.subnet.broadcast && a != n.gateway

end PoolNetwork

end VmFleet
