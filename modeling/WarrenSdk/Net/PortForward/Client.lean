import WarrenSdk.Foundation.HashMap
import WarrenSdk.Net.Netstack.Session

/-! # The NAT-PMP client

A client asks a gateway for port mappings over a datagram flow. Nothing in a
reply names the request that it answers, so the client goes by the kind of the
request, the protocol and the internal port. The network keeps every datagram
that was ever sent and may deliver it late, again or never; what happens in each
exchange is a script that the environment has written. -/

namespace WarrenSdk.Net.PortForward

open Bolthole Netstack

def maxAttempts : Nat := 9

inductive MapProto
  | tcp
  | udp
  deriving DecidableEq

inductive ResultCode
  | success
  | notAuthorized
  | suggestedPortUnavailable
  | other (code : UInt16)
  deriving DecidableEq

inductive Request
  | externalAddress
  | map (proto : MapProto) (internalPort suggestedExternalPort : UInt16) (lifetimeSecs : Nat)
  deriving DecidableEq

inductive Response
  | externalAddress (resultCode : ResultCode) (externalIp : Ipv4Addr)
  | map (resultCode : ResultCode) (proto : MapProto)
      (internalPort externalPort : UInt16) (lifetimeSecs : Nat)
  deriving DecidableEq

structure MapSpec where
  proto : MapProto
  internalPort : UInt16
  /-- Zero lets the gateway choose. -/
  suggestedExternalPort : UInt16
  lifetimeSecs : Nat
  deriving DecidableEq

structure PortMapping where
  proto : MapProto
  internalPort : UInt16
  externalPort : UInt16
  lifetimeSecs : Nat
  deriving DecidableEq

inductive PortForwardError
  | transport (error : Netstack.NetError)
  | gateway (code : ResultCode)
  | timeout
  | unexpectedReply
  | credential
  deriving DecidableEq

/-! ## The gateway and the network -/

structure Grant where
  resultCode : ResultCode
  externalPort : UInt16
  lifetimeSecs : Nat
  externalIp : Ipv4Addr := ⟨0⟩
  deriving DecidableEq

def Request.answer (request : Request) (grant : Grant) : Response :=
  match request with
  | .externalAddress => .externalAddress grant.resultCode grant.externalIp
  | .map proto internalPort _ _ =>
    .map grant.resultCode proto internalPort grant.externalPort grant.lifetimeSecs

/-- The external port of every mapping. -/
abbrev Mappings := HashMap (MapProto × UInt16) UInt16

/-- What a request does to the mappings; one with lifetime zero deletes. -/
def Mappings.apply (mappings : Mappings) (request : Request) (grant : Grant) :
    Mappings :=
  match request, grant.resultCode with
  | .map proto internalPort _ lifetimeSecs, .success =>
    if lifetimeSecs = 0 then mappings.remove (proto, internalPort)
    else mappings.insert (proto, internalPort) grant.externalPort
  | _, _ => mappings

structure Sent where
  call : Nat
  request : Request
  deriving DecidableEq

structure Answered where
  call : Nat
  request : Request
  grant : Grant
  deriving DecidableEq

def Answered.response (answered : Answered) : Response := answered.request.answer answered.grant

/-- What happens while the client listens. Datagrams are counted from the one
that was sent last. -/
inductive Event
  /-- A request comes to the gateway. -/
  | serve (back : Nat) (grant : Grant)
  /-- A reply comes to the client. -/
  | receive (back : Nat)
  /-- A datagram of someone else, or one that cannot be parsed. -/
  | stray
  | closed
  deriving DecidableEq

structure Window where
  /-- Why the flow did not take the request. -/
  refused : Option Netstack.NetError := none
  events : List Event
  deriving DecidableEq

structure Network where
  sent : List Sent := []
  answers : List Answered := []
  mappings : Mappings := .empty
  /-- How many exchanges were begun. -/
  calls : Nat := 0
  /-- What happens in the exchanges to come. -/
  script : List (List Window)

namespace Network

def send (network : Network) (call : Nat) (request : Request) : Network :=
  { network with sent := network.sent ++ [{ call, request }] }

def serve (network : Network) (back : Nat) (grant : Grant) : Network :=
  match network.sent.reverse[back]? with
  | none => network
  | some sent =>
    { network with
      answers := network.answers ++ [{ call := sent.call, request := sent.request, grant }]
      mappings := network.mappings.apply sent.request grant }

end Network

/-! ## Exchanges -/

def responseMatches : Request → Response → Bool
  | .externalAddress, .externalAddress .. => true
  | .map proto .., .map _ answered .. => proto = answered
  | _, _ => false

inductive Heard
  | reply (answered : Answered)
  | closed
  | elapsed
  deriving DecidableEq

def listen (request : Request) : List Event → Network → Heard × Network
  | [], network => (.elapsed, network)
  | .serve back grant :: events, network => listen request events (network.serve back grant)
  | .receive back :: events, network =>
    match network.answers.reverse[back]? with
    | none => listen request events network
    | some answered =>
      if responseMatches request answered.response then (.reply answered, network)
      else listen request events network
  | .stray :: events, network => listen request events network
  | .closed :: _, network => (.closed, network)

def attempts (call : Nat) (request : Request) :
    Nat → List Window → Network → Except PortForwardError Answered × Network
  | 0, _, network => (.error .timeout, network)
  | left + 1, [], network => attempts call request left [] (network.send call request)
  | left + 1, window :: windows, network =>
    match window.refused with
    | some error => (.error (.transport error), network)
    | none =>
      match listen request window.events (network.send call request) with
      | (.reply answered, network) => (.ok answered, network)
      | (.closed, network) => (.error (.transport .engineStopped), network)
      | (.elapsed, network) => attempts call request left windows network

def exchangeFrame (request : Request) (network : Network) :
    Except PortForwardError Answered × Network :=
  attempts network.calls request maxAttempts (network.script.headD [])
    { network with calls := network.calls + 1, script := network.script.tail }

/-! ## Mappings -/

def MapSpec.request (spec : MapSpec) : Request :=
  .map spec.proto spec.internalPort spec.suggestedExternalPort spec.lifetimeSecs

def MapSpec.granted (spec : MapSpec) : Response → Except PortForwardError PortMapping
  | .map .success _ internalPort externalPort lifetimeSecs =>
    if internalPort = spec.internalPort then
      .ok { proto := spec.proto, internalPort, externalPort, lifetimeSecs }
    else .error .unexpectedReply
  | .map resultCode .. => .error (.gateway resultCode)
  | _ => .error .unexpectedReply

/-- Create or refresh a mapping. A credential that is too large for the trailer
is refused before anything is sent. -/
def mapWithCredential (spec : MapSpec) (oversized : Bool) (network : Network) :
    Except PortForwardError PortMapping × Network :=
  if oversized then (.error .credential, network)
  else
    match exchangeFrame spec.request network with
    | (.ok answered, network) => (spec.granted answered.response, network)
    | (.error error, network) => (.error error, network)

def deleteRequest (proto : MapProto) (internalPort : UInt16) : Request :=
  .map proto internalPort 0 0

def acknowledged (internalPort : UInt16) : Response → Except PortForwardError Unit
  | .map .success _ echoed .. =>
    if echoed = internalPort then .ok () else .error .unexpectedReply
  | .map resultCode .. => .error (.gateway resultCode)
  | _ => .error .unexpectedReply

def delete (proto : MapProto) (internalPort : UInt16) (network : Network) :
    Except PortForwardError Unit × Network :=
  match exchangeFrame (deleteRequest proto internalPort) network with
  | (.ok answered, network) => (acknowledged internalPort answered.response, network)
  | (.error error, network) => (.error error, network)

theorem delete_exchange (proto : MapProto) (internalPort : UInt16) (network : Network) :
    (delete proto internalPort network).2 =
      (exchangeFrame (deleteRequest proto internalPort) network).2 := by
  rw [delete]
  split
  · rename_i returned
    rw [returned]
  · rename_i returned
    rw [returned]

/-! ## Cycles -/

/-- One mapping per leg; a failure comes with what was granted before it. -/
def mapLegs (internalPort suggestedExternalPort : UInt16) (lifetimeSecs : Nat) (oversized : Bool) :
    List MapProto → List PortMapping → Network →
      Except (PortForwardError × List PortMapping) (List PortMapping) × Network
  | [], granted, network => (.ok granted, network)
  | proto :: legs, granted, network =>
    let spec : MapSpec :=
      { proto
        internalPort
        suggestedExternalPort := granted.head?.elim suggestedExternalPort PortMapping.externalPort
        lifetimeSecs }
    match mapWithCredential spec oversized network with
    | (.ok mapping, network) =>
      mapLegs internalPort suggestedExternalPort lifetimeSecs oversized legs
        (granted ++ [mapping]) network
    | (.error error, network) => (.error (error, granted), network)

def deleteLegs (internalPort : UInt16) (granted : List PortMapping) (network : Network) : Network :=
  granted.foldl (fun network leg => (delete leg.proto internalPort network).2) network

def mapCycle (legs : List MapProto) (internalPort suggestedExternalPort : UInt16)
    (lifetimeSecs : Nat) (oversized : Bool) (network : Network) :
    Except PortForwardError (List PortMapping) × Network :=
  match mapLegs internalPort suggestedExternalPort lifetimeSecs oversized legs []
      network with
  | (.ok granted, network) => (.ok granted, network)
  | (.error (error, granted), network) => (.error error, deleteLegs internalPort granted network)

def mapSingleLeg (spec : MapSpec) (oversized : Bool) (network : Network) :
    Except PortForwardError PortMapping × Network :=
  match mapCycle [spec.proto] spec.internalPort spec.suggestedExternalPort
      spec.lifetimeSecs oversized network with
  | (.ok granted, network) => (granted.getLast?.elim (.error .unexpectedReply) .ok, network)
  | (.error error, network) => (.error error, network)

end WarrenSdk.Net.PortForward
