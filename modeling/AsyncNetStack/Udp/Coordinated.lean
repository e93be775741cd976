import AsyncNetStack.Net.Interface
import AsyncNetStack.Udp.Pool

open Std

namespace UdpPool

variable {δ : Type}

-- Applies a lease to both layers. All endpoints must use the new address.
def configureIpv4 (p : UdpPool (EthernetIpv4 δ)) (address : Ipv4Addr) (prefixLen : Nat)
    (gateway : Option Ipv4Addr) (services : List Service) :
    UdpPool (EthernetIpv4 δ) × IoResult Unit :=
  match p.validateServices services with
  | .error err      => (p, .error err)
  | .ok replacement =>
    if services.any (·.address.ip != address) then
      (p, .error (.invalid "endpoint does not match interface address"))
    else
      match p.device.configureIpv4 address prefixLen gateway with
      | (device, .error err)  => ({ p with device }, .error err)
      | (device, .ok changed) =>
        let p := { p with device }
        if changed || !p.servesAlready replacement then
          let p := if changed then p else { p with device := p.device.resetLink }
          (p.installServices replacement, .ok ())
        else
          (p, .ok ())

-- The lease has expired.
def withdrawIpv4 (p : UdpPool (EthernetIpv4 δ)) : UdpPool (EthernetIpv4 δ) :=
  installServices { p with device := p.device.withdrawIpv4 } ∅

end UdpPool
