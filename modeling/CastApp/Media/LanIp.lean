import CastApp.State

/-!
# The address the stream is served on

`select_lan_ip`: the interface whose subnet holds the receiver, else the
interface of the default route, else loopback.  What the enumeration and the
routing table say is the operating system's.

`selectLanIp_ne_unspecified` — the wildcard address is never selected, unless
it is enumerated or routed through.
-/

namespace CastApp.Media.LanIp

open CastApp.State

/-- `Ipv4Addr::LOCALHOST`. -/
def localhost : BitVec 32 := 0x7F000001

/-- `Ipv4Addr::is_loopback`: the whole of `127.0.0.0/8`. -/
def isLoopback (ip : BitVec 32) : Bool := ip >>> 24 == 127

structure Iface where
  name : String
  ip : BitVec 32
  netmask : BitVec 32

def ipv4Netmask (ip netmask : BitVec 32) : BitVec 32 := ip &&& netmask

/-- Whether a candidate is in the subnet of the interface. -/
def Iface.contains (iface : Iface) (candidate : BitVec 32) : Bool :=
  ipv4Netmask iface.ip iface.netmask == ipv4Netmask candidate iface.netmask

inductive IfAddr : Type
  | v4 (ip netmask : BitVec 32)
  | v6 (ip : BitVec 128)

/-- An interface as `get_if_addrs` lists it. -/
structure Interface where
  name : String
  operUp : Bool
  addr : IfAddr

/-- What the operating system says of its network at one time. -/
structure Network where
  interfaces : Except IoError (List Interface)
  /-- The local address of a socket that was connected to a public address. -/
  routeAddr : Option IpAddr

/-- `default_route_ip`. -/
def defaultRouteIp (network : Network) : Option (BitVec 32) :=
  match network.routeAddr with
  | some (.v4 ip) => if isLoopback ip then none else some ip
  | _ => none

/-- The interfaces that are up and have an IPv4 address of their own. -/
def candidate (interface : Interface) : Option Iface :=
  match interface.addr with
  | .v4 ip netmask =>
      if interface.operUp && !isLoopback ip then some ⟨interface.name, ip, netmask⟩ else none
  | .v6 _ => none

/-- The interface whose subnet the receiver is in. -/
def matched (interfaces : List Iface) (receiver : BitVec 32) : Option Iface :=
  interfaces.find? fun iface => !isLoopback iface.ip && iface.contains receiver

def selectLanIpFrom (interfaces : List Iface) (receiverIp defaultRouteIp : Option (BitVec 32)) :
    Option (BitVec 32) :=
  match receiverIp.bind (matched interfaces) with
  | some iface => some iface.ip
  | none =>
      match defaultRouteIp with
      | some route => if isLoopback route then none else some route
      | none => none

/-- The IPv4 address of a receiver. -/
def receiverV4 : Option IpAddr → Option (BitVec 32)
  | some (.v4 ip) => some ip
  | _ => none

def selectLanIp (network : Network) (receiverIp : Option IpAddr) : BitVec 32 :=
  match network.interfaces with
  | .ok interfaces =>
      (selectLanIpFrom (interfaces.filterMap candidate) (receiverV4 receiverIp)
        (defaultRouteIp network)).getD localhost
  | .error _ => localhost

/-! ## The wildcard is not selected -/

/-- Neither an interface nor the default route has the address `0.0.0.0`. -/
structure Network.Specified (network : Network) : Prop where
  interfaces : ∀ interfaces, network.interfaces = .ok interfaces →
    ∀ interface ∈ interfaces, ∀ netmask, interface.addr ≠ .v4 0 netmask
  route : network.routeAddr ≠ some .unspecified

theorem ip_of_candidate {interface : Interface} {iface : Iface}
    (h : candidate interface = some iface) : interface.addr = .v4 iface.ip iface.netmask := by
  unfold candidate at h
  cases hAddr : interface.addr with
  | v6 => simp [hAddr] at h
  | v4 ip netmask =>
      simp only [hAddr, Option.ite_none_right_eq_some, Option.some.injEq] at h
      obtain ⟨-, rfl⟩ := h
      rfl

/-- What is selected is an address that was enumerated or routed through. -/
theorem selectLanIpFrom_eq {interfaces : List Iface} {receiver route : Option (BitVec 32)}
    {ip : BitVec 32} (h : selectLanIpFrom interfaces receiver route = some ip) :
    (∃ iface ∈ interfaces, iface.ip = ip) ∨ route = some ip := by
  unfold selectLanIpFrom at h
  cases hMatched : receiver.bind (matched interfaces) with
  | some iface =>
      simp only [hMatched, Option.some.injEq] at h
      obtain ⟨receiver, -, hFound⟩ := Option.bind_eq_some_iff.mp hMatched
      exact .inl ⟨iface, List.mem_of_find?_eq_some hFound, h⟩
  | none =>
      right
      cases route with
      | none => simp [hMatched] at h
      | some route =>
          simp only [hMatched, Option.ite_none_left_eq_some] at h
          rw [h.2]

theorem routeAddr_of_defaultRouteIp {network : Network} {ip : BitVec 32}
    (h : defaultRouteIp network = some ip) : network.routeAddr = some (.v4 ip) := by
  unfold defaultRouteIp at h
  split at h
  · rename_i route hRoute
    simp only [Option.ite_none_left_eq_some, Option.some.injEq] at h
    rw [hRoute, h.2]
  · simp at h

/-- **The wildcard is not selected** on a network that does not have it. -/
theorem selectLanIp_ne_unspecified {network : Network} (hNetwork : network.Specified)
    (receiverIp : Option IpAddr) : IpAddr.v4 (selectLanIp network receiverIp) ≠ .unspecified := by
  suffices h : selectLanIp network receiverIp ≠ 0 by simpa [IpAddr.unspecified] using h
  unfold selectLanIp
  cases hInterfaces : network.interfaces with
  | error =>
      show localhost ≠ 0
      decide
  | ok interfaces =>
      show Option.getD _ _ ≠ _
      cases hSelected : selectLanIpFrom (interfaces.filterMap candidate) (receiverV4 receiverIp)
          (defaultRouteIp network) with
      | none => decide
      | some ip =>
          rintro rfl
          rcases selectLanIpFrom_eq hSelected with ⟨iface, hMem, hIp⟩ | hRoute
          · obtain ⟨interface, hListed, hCandidate⟩ := List.mem_filterMap.mp hMem
            refine hNetwork.interfaces _ hInterfaces interface hListed iface.netmask ?_
            rw [ip_of_candidate hCandidate, hIp]
          · exact hNetwork.route (routeAddr_of_defaultRouteIp hRoute)

end CastApp.Media.LanIp
