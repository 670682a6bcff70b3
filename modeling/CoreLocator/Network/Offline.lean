import CoreLocator.Network.Dial
import CoreLocator.Network.SystemFault

/-! A machine without a network: no connection ever comes about, and no name but its own is known.
What is left of the attempts is the log. -/
namespace CoreLocator.Network

structure Offline where
  log : List Log.Record := []
  deriving DecidableEq, Repr

namespace Offline

/-- In version 6 a machine on the same link would need the link's name, and for most others there
is no address to send from. -/
def refusal : Address → Fault
  | .version4 _ => .ofNumber 101
  | .version6 groups =>
    let first := groups.toList.headD 0
    if (Address.embedded? groups).isSome || first &&& 0xFF00 == 0xFF00 then .ofNumber 101
    else if first &&& 0xFFC0 == 0xFE80 then .ofNumber 22
    else .ofNumber 99

def addresses (host : String) : Except Fault (List Address) :=
  match Address.ofBytes? (.ofString host) with
  | some address => .ok [address]
  | none =>
    if host = "localhost" then .ok [.version4 #v[127, 0, 0, 1]]
    else .error (.lookupFailed "Temporary failure in name resolution")

end Offline

instance : Log (StateM Offline) where
  record r := fun offline => ((), { offline with log := offline.log ++ [r] })

instance : Network (StateM Offline) Empty where
  connect endpoint :=
    match Offline.addresses endpoint.host with
    | .error fault => pure (.error fault)
    | .ok found => dial endpoint (fun address => pure (.error (Offline.refusal address))) found
  send c := nomatch c
  receive c := nomatch c
  disconnect c := nomatch c

end CoreLocator.Network
