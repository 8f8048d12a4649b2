import Mathlib.Data.List.Count
import WarrenSdk.Foundation.Execution
import WarrenSdk.Net.Netstack.Session

/-! # Requests between two paths

A proxy server carries the requests of its clients over a path, and a path can
be given up at any time. A request that its path could not answer is held in a
queue that all servers of the same listeners share, and the next server takes it
up. Tasks, servers and timers take turns; every look at a watch channel and
every access to the queue is a step of its own. -/

namespace WarrenSdk.Net.Proxy

open Bolthole Netstack

def handoverDeadline : Duration := .fromSecs 15

/-! ## What a client asks and is told -/

inductive Request
  | socks
  | connect
  | forward
  deriving DecidableEq

structure Pending where
  /-- The connection of the client. -/
  id : Nat
  request : Request
  /-- When it is refused. -/
  expires : Instant
  /-- A timer already refuses it then. -/
  deadlineArmed : Bool := false
  deriving DecidableEq

inductive SocksReply
  | networkUnreachable
  | generalFailure
  deriving DecidableEq

def connectFailureReply : Netstack.NetError → SocksReply
  | .engineStopped => .networkUnreachable
  | _ => .generalFailure

def connectFailureCause : Netstack.NetError → String
  | .engineStopped => "tunnel-gone"
  | .connectionRefused => "exit-refused"
  | .connectTimeout => "connect-timeout"
  | _ => "connect-failed"

inductive Answer
  /-- The request is carried. -/
  | carried
  | socks (reply : SocksReply)
  /-- Status 502 with the cause. -/
  | tunnelUnavailable (cause : String)
  /-- Status 502 of a forwarded request whose upstream has failed. -/
  | badGateway
  deriving DecidableEq

def refusal (request : Request) (error : Netstack.NetError) : Answer :=
  match request with
  | .socks => .socks (connectFailureReply error)
  | .connect | .forward => .tunnelUnavailable (connectFailureCause error)

/-! ## Who has a request -/

/-- The channel that says whether a path, or a server, goes on. -/
structure Watch where
  value : Bool := true
  /-- Its sender was dropped. -/
  closed : Bool := false
  deriving DecidableEq

def Watch.stopped (watch : Watch) : Bool := !watch.value || watch.closed

/-- The path a request is served on, and whether it may be handed over. -/
structure PathScope where
  stop : Nat
  handover : Bool
  deriving DecidableEq

inductive Pc
  | answer (scope : PathScope)
  | dial (scope : PathScope)
  | dialling (scope : PathScope)
  /-- The path is gone, but maybe not given up. -/
  | pathGone (scope : PathScope)
  | hold
  | push
  /-- The target was reached; the client does not know yet. -/
  | relay (scope : PathScope)
  | refuse (error : Netstack.NetError)
  deriving DecidableEq

structure Task where
  pending : Pending
  pc : Pc
  deriving DecidableEq

structure Server where
  /-- The watch that stops its loop. -/
  run : Nat
  scope : PathScope
  serving : Bool := true
  deriving DecidableEq

structure Proxies where
  now : Instant := 0
  /-- How long a request may wait. -/
  deadline : Duration
  watches : List Watch := []
  servers : List Server := []
  tasks : List Task := []
  queue : List Pending := []
  timers : List Instant := []
  /-- How many requests were read. -/
  accepted : Nat := 0
  /-- The clients that have hung up. -/
  gone : List Nat := []
  replies : List (Nat × Answer) := []
  deriving DecidableEq

namespace Proxies

def start (deadline : Duration) : Proxies where
  deadline := deadline

def stopped (proxies : Proxies) (watch : Nat) : Bool :=
  (proxies.watches[watch]?).elim true Watch.stopped

def spawn (proxies : Proxies) (pending : Pending) (pc : Pc) : Proxies :=
  { proxies with tasks := proxies.tasks ++ [{ pending, pc }] }

def goto (proxies : Proxies) (place : Nat) (task : Task) (pc : Pc) : Proxies :=
  { proxies with tasks := proxies.tasks.set place { task with pc } }

/-- The task is over, and the client's connection with it. -/
def drop (proxies : Proxies) (place : Nat) : Proxies :=
  { proxies with tasks := proxies.tasks.eraseIdx place }

def reply (proxies : Proxies) (place : Nat) (task : Task) (answer : Answer) :
    Proxies :=
  { proxies.drop place with
    replies := proxies.replies ++ [(task.pending.id, answer)] }

/-! ## The queue -/

/-- Keep a request for the next path, and arm its timer the first time. -/
def push (proxies : Proxies) (place : Nat) (pending : Pending) : Proxies :=
  { proxies.drop place with
    queue := proxies.queue ++ [{ pending with deadlineArmed := true }]
    timers :=
      if pending.deadlineArmed then proxies.timers
      else proxies.timers ++ [pending.expires] }

def refuseExpired (proxies : Proxies) : Proxies :=
  { proxies with
    queue := proxies.queue.filter fun pending => !decide (pending.expires ≤ proxies.now)
    tasks := proxies.tasks ++ (proxies.queue.filter fun pending =>
        decide (pending.expires ≤ proxies.now)).map fun pending =>
          { pending, pc := .refuse .engineStopped } }

/-- The next request that is still within its deadline goes to a server; one
that is not is refused. -/
def take (proxies : Proxies) (scope : PathScope) : Proxies :=
  match proxies.queue with
  | [] => proxies
  | pending :: rest =>
    { proxies with queue := rest }.spawn pending
      (if proxies.now < pending.expires then .answer scope
      else .refuse .engineStopped)

/-! ## Serving a request -/

/-- What a future that is polled has come to. -/
inductive Input
  | nothing
  | up
  | failed (error : Netstack.NetError)
  /-- The client was written to. -/
  | sent
  /-- Writing to the client failed. -/
  | broken
  deriving DecidableEq

def dialled (proxies : Proxies) (place : Nat) (task : Task) (scope : PathScope) : Input → Proxies
  | .up => proxies.goto place task (.relay scope)
  | .failed .engineStopped => proxies.goto place task (.pathGone scope)
  | .failed error => proxies.goto place task (.refuse error)
  | _ => proxies

def tell (proxies : Proxies) (place : Nat) (task : Task) (answer : Answer) : Input → Proxies
  | .sent => proxies.reply place task answer
  | .broken =>
    if task.pending.id ∈ proxies.gone then proxies.drop place else proxies
  | _ => proxies

/-- Tell the client that its request is carried. A forwarded request is carried
once its response begins, and its upstream can fail before. -/
def relay (proxies : Proxies) (place : Nat) (task : Task) (input : Input) :
    Proxies :=
  match task.pending.request, input with
  | .forward, .failed _ => proxies.reply place task .badGateway
  | _, input => proxies.tell place task .carried input

def advance (proxies : Proxies) (place : Nat) (task : Task) (input : Input) :
    Proxies :=
  match task.pc with
  | .answer scope =>
    -- Only a tunnelling client that has waited is asked whether it is there.
    if task.pending.deadlineArmed ∧ task.pending.request ≠ .forward ∧
        task.pending.id ∈ proxies.gone then
      proxies.drop place
    else proxies.goto place task (.dial scope)
  | .dial scope =>
    if (proxies.watches[scope.stop]?).elim false Watch.value then
      proxies.goto place task (.dialling scope)
    else proxies.goto place task (.pathGone scope)
  | .dialling scope =>
    if proxies.stopped scope.stop then proxies.goto place task (.pathGone scope)
    else proxies.dialled place task scope input
  | .pathGone scope =>
    if scope.handover then
      if proxies.stopped scope.stop ∨ task.pending.expires ≤ proxies.now then
        proxies.goto place task .hold
      else proxies
    else proxies.goto place task (.refuse .engineStopped)
  | .hold =>
    if task.pending.expires ≤ proxies.now then
      proxies.goto place task (.refuse .engineStopped)
    else proxies.goto place task .push
  | .push => proxies.push place task.pending
  | .relay scope =>
    -- The stop is looked at first, and takes the client with it.
    if proxies.stopped scope.stop then proxies.drop place
    else proxies.relay place task input
  | .refuse error => proxies.tell place task (refusal task.pending.request error) input

/-! ## Steps -/

inductive Action
  /-- A path or a server gets its watch. -/
  | watch
  | publish (watch : Nat) (value : Bool)
  | close (watch : Nat)
  | serve (run : Nat) (scope : PathScope)
  /-- A server looks whether it goes on. -/
  | look (server : Nat)
  /-- A client of a server has said what it wants. -/
  | read (server : Nat) (request : Request)
  | take (server : Nat)
  | fire (timer : Nat)
  | elapse (time : Duration)
  | hangUp (client : Nat)
  | advance (place : Nat) (input : Input)
  deriving DecidableEq

def step (proxies : Proxies) : Action → Proxies
  | .watch => { proxies with watches := proxies.watches ++ [{}] }
  | .publish watch value =>
    { proxies with watches := proxies.watches.modify watch ({ · with value }) }
  | .close watch =>
    { proxies with
      watches := proxies.watches.modify watch ({ · with closed := true }) }
  | .serve run scope =>
    { proxies with servers := proxies.servers ++ [{ run, scope }] }
  | .look server =>
    { proxies with
      servers := proxies.servers.modify server fun server =>
        { server with
          serving := server.serving && !proxies.stopped server.run } }
  | .read server request =>
    match proxies.servers[server]? with
    | none => proxies
    | some server =>
      { proxies with accepted := proxies.accepted + 1 }.spawn
        { id := proxies.accepted
          request := request
          expires :=
            if server.scope.handover then proxies.now + proxies.deadline
            else proxies.now }
        (.answer server.scope)
  | .take server =>
    match proxies.servers[server]? with
    | none => proxies
    | some server =>
      if server.serving && server.scope.handover then proxies.take server.scope
      else proxies
  | .fire timer =>
    match proxies.timers[timer]? with
    | none => proxies
    | some expires =>
      if expires ≤ proxies.now then
        { proxies with timers := proxies.timers.eraseIdx timer }.refuseExpired
      else proxies
  | .elapse time => { proxies with now := proxies.now + time }
  | .hangUp client => { proxies with gone := client :: proxies.gone }
  | .advance place input =>
    match proxies.tasks[place]? with
    | none => proxies
    | some task => proxies.advance place task input

def run (proxies : Proxies) (actions : List Action) : Proxies := Execution.run step proxies actions

end Proxies

end WarrenSdk.Net.Proxy
