import WarrenSdk.Foundation.Execution
import WarrenSdk.Net.PortForward.Client

/-! # Whose reply a result was read from

Calls on one flow follow each other, and the replies to earlier ones may still
be on the wire. A result is right if nothing but replies to its own call came
to the client, as far as they are of its kind. -/

namespace WarrenSdk.Net.PortForward

open Bolthole Netstack List

/-! ## What an exchange keeps -/

variable {network after : Network} {answered : Answered}

/-- What serving a request keeps, listening keeps. -/
theorem listen_rule (holds : Network → Prop) (serves : ∀ network back grant, holds network →
      holds (network.serve back grant)) (request : Request)
    (events : List Event) (start : holds network) : holds (listen request events network).2 := by
  induction events generalizing network with
  | nil => exact start
  | cons event events induction =>
    cases event with
    | serve back grant => exact induction (serves network back grant start)
    | receive back =>
      rw [listen]
      split
      · exact induction start
      · split
        · exact start
        · exact induction start
    | stray => exact induction start
    | closed => exact start

/-- What sending the request and serving any request keep, an exchange keeps. -/
theorem attempts_rule (holds : Network → Prop) (call : Nat) (request : Request)
    (sends : ∀ network, holds network → holds (network.send call request))
    (serves : ∀ network back grant, holds network →
      holds (network.serve back grant)) (left : Nat) (windows : List Window)
    (start : holds network) : holds (attempts call request left windows network).2 := by
  induction left generalizing windows network with
  | zero => exact start
  | succ left induction =>
    cases windows with
    | nil => exact induction [] (sends network start)
    | cons window windows =>
      rw [attempts]
      have heard := listen_rule holds serves request window.events (sends network start)
      split
      · exact start
      · split
        · rename_i taken
          rw [taken] at heard
          exact heard
        · rename_i taken
          rw [taken] at heard
          exact heard
        · rename_i taken
          rw [taken] at heard
          exact induction windows heard

/-! ## Numbers of exchanges -/

/-- Everything on the wire belongs to an exchange that was begun. -/
structure Network.Numbered (network : Network) : Prop where
  sent : ∀ sent ∈ network.sent, sent.call < network.calls
  answers : ∀ answered ∈ network.answers, answered.call < network.calls

/-- Everything on the wire for one exchange is about one request. -/
structure Network.About (network : Network) (call : Nat) (request : Request) : Prop where
  sent : ∀ sent ∈ network.sent, sent.call = call → sent.request = request
  answers : ∀ answered ∈ network.answers, answered.call = call → answered.request = request

/-- The exchange that was begun last is about its request. -/
structure Network.Asks (network : Network) (call : Nat) (request : Request) : Prop
    extends network.About call request where
  calls : network.calls = call + 1
  numbered : network.Numbered

theorem Network.serve_cases (network : Network) (back : Nat) (grant : Grant) :
    network.serve back grant = network ∨ ∃ sent ∈ network.sent, network.serve back grant =
        { network with
          answers := network.answers ++ [⟨sent.call, sent.request, grant⟩]
          mappings := network.mappings.apply sent.request grant } := by
  rw [Network.serve]
  split
  · exact .inl rfl
  · rename_i sent there
    exact .inr ⟨sent, mem_reverse.mp (mem_of_getElem? there), rfl⟩

theorem Network.About.send (about : network.About call request)
    (own : other = call → asked = request) : (network.send other asked).About call request := by
  refine ⟨?_, about.answers⟩
  intro sent member same
  rcases mem_append.mp member with old | new
  · exact about.sent sent old same
  · rw [mem_singleton.mp new] at same ⊢
    exact own same

theorem Network.About.serve (about : network.About call request) (back : Nat) (grant : Grant) :
    (network.serve back grant).About call request := by
  rcases network.serve_cases back grant with same | ⟨source, member, served⟩
  · rw [same]
    exact about
  · rw [served]
    refine ⟨about.sent, ?_⟩
    intro answered listed same
    rcases mem_append.mp listed with old | new
    · exact about.answers answered old same
    · rw [mem_singleton.mp new] at same ⊢
      exact about.sent source member same

theorem Network.Asks.send (asks : network.Asks call request) :
    (network.send call request).Asks call request := by
  refine ⟨asks.toAbout.send fun _ => rfl, asks.calls, ?_, asks.numbered.answers⟩
  intro sent member
  rcases mem_append.mp member with old | new
  · exact asks.numbered.sent sent old
  · rw [mem_singleton.mp new]
    exact Nat.lt_of_lt_of_eq (Nat.lt_succ_self call) asks.calls.symm

theorem Network.Asks.serve (asks : network.Asks call request) (back : Nat) (grant : Grant) :
    (network.serve back grant).Asks call request := by
  have about := asks.toAbout.serve back grant
  rcases network.serve_cases back grant with same | ⟨source, member, served⟩
  · rw [same]
    exact asks
  · rw [served] at about ⊢
    refine ⟨about, asks.calls, asks.numbered.sent, ?_⟩
    intro answered listed
    rcases mem_append.mp listed with old | new
    · exact asks.numbered.answers answered old
    · rw [mem_singleton.mp new]
      exact asks.numbered.sent source member

/-- The replies that were on the wire stay there. -/
theorem exchange_answers (request : Request) (network : Network) :
    network.answers ⊆ (exchangeFrame request network).2.answers := by
  apply attempts_rule (fun later => network.answers ⊆ later.answers)
  · exact fun _ before => before
  · intro later back grant before
    rcases later.serve_cases back grant with same | ⟨_, _, served⟩
    · rw [same]
      exact before
    · rw [served]
      exact subset_append_of_subset_left _ before
  · exact fun _ member => member

theorem exchange_asks (numbered : network.Numbered) (request : Request) :
    (exchangeFrame request network).2.Asks network.calls request := by
  apply attempts_rule (fun later => later.Asks network.calls request)
  · exact fun _ asks => asks.send
  · exact fun _ back grant asks => asks.serve back grant
  · refine ⟨⟨?_, ?_⟩, rfl, ?_, ?_⟩
    · intro sent member same
      exact absurd same (Nat.ne_of_lt (numbered.sent sent member))
    · intro answered member same
      exact absurd same (Nat.ne_of_lt (numbered.answers answered member))
    · intro sent member
      exact Nat.lt_succ_of_lt (numbered.sent sent member)
    · intro answered member
      exact Nat.lt_succ_of_lt (numbered.answers answered member)

/-! ## What the environment delivers -/

/-- The replies that a script brings to the client, and the network after it. -/
def delivered : List Event → Network → List Answered × Network
  | [], network => ([], network)
  | .serve back grant :: events, network => delivered events (network.serve back grant)
  | .receive back :: events, network =>
    let later := delivered events network
    ((network.answers.reverse[back]?).toList ++ later.1, later.2)
  | .stray :: events, network => delivered events network
  | .closed :: _, network => ([], network)

def deliveries (call : Nat) (request : Request) : Nat → List Window → Network → List Answered
  | 0, _, _ => []
  | _ + 1, [], _ => []
  | left + 1, window :: windows, network =>
    let here := delivered window.events (network.send call request)
    if window.refused.isSome then []
    else here.1 ++ deliveries call request left windows here.2

/-- What the client hears was delivered; it is on the wire and fits. -/
theorem listen_delivered (request : Request) (events : List Event) (network : Network) :
    match listen request events network with
    | (.reply answered, after) => answered ∈ (delivered events network).1 ∧
        answered ∈ after.answers ∧ responseMatches request answered.response
    | (.closed, _) => True
    | (.elapsed, after) => after = (delivered events network).2 := by
  induction events generalizing network with
  | nil => rfl
  | cons event events induction =>
    cases event with
    | serve back grant => exact induction (network.serve back grant)
    | receive back =>
      have later := induction network
      rw [listen, delivered]
      cases there : network.answers.reverse[back]? with
      | none => exact later
      | some answered =>
        by_cases fits : responseMatches request answered.response
        · simp only [fits, if_true, and_true]
          exact ⟨mem_append_left _ mem_cons_self, mem_reverse.mp (mem_of_getElem? there)⟩
        · simp only [fits, Bool.false_eq_true, if_false]
          split
          · rename_i heard
            rw [heard] at later
            exact ⟨mem_append_right _ later.1, later.2⟩
          · trivial
          · rename_i heard
            rw [heard] at later
            exact later
    | stray => exact induction network
    | closed => trivial

theorem attempts_delivered
    (ok : attempts call request left windows network = (.ok answered, after)) :
    answered ∈ deliveries call request left windows network ∧
      answered ∈ after.answers ∧ responseMatches request answered.response := by
  induction left generalizing windows network with
  | zero => cases ok
  | succ left induction =>
    cases windows with
    | nil =>
      have none := (induction ok).1
      cases left <;> exact absurd none not_mem_nil
    | cons window windows =>
      have came := listen_delivered request window.events (network.send call request)
      rw [attempts] at ok
      cases refused : window.refused with
      | some error => simp [refused] at ok
      | none =>
        simp only [refused] at ok
        simp only [deliveries, refused, Option.isSome_none, Bool.false_eq_true, if_false]
        split at ok
        · rename_i heard
          cases ok
          rw [heard] at came
          exact ⟨mem_append_left _ came.1, came.2⟩
        · cases ok
        · rename_i heard
          rw [heard] at came
          subst came
          exact ⟨mem_append_right _ (induction ok).1, (induction ok).2⟩

/-- No reply to an earlier exchange is delivered that the client would take for
its own. -/
def Fresh (request : Request) (network : Network) : Prop :=
  ∀ answered ∈ deliveries network.calls request maxAttempts (network.script.headD [])
      { network with calls := network.calls + 1, script := network.script.tail },
    responseMatches request answered.response → answered.call = network.calls

instance (request : Request) (network : Network) : Decidable (Fresh request network) :=
  inferInstanceAs (Decidable (∀ answered ∈ deliveries .., _))

theorem exchange_own (numbered : network.Numbered)
    (ok : exchangeFrame request network = (.ok answered, after)) (fresh : Fresh request network) :
    answered ∈ after.answers ∧ answered.call = network.calls ∧ answered.request = request := by
  have asks := exchange_asks numbered request
  rw [ok] at asks
  rcases attempts_delivered ok with ⟨came, there, fits⟩
  have own := fresh answered came fits
  exact ⟨there, own, asks.answers answered there own⟩

/-! ## Calls on one flow -/

inductive Call
  | map (spec : MapSpec) (oversized : Bool)
  | delete (proto : MapProto) (internalPort : UInt16)
  deriving DecidableEq

def Call.request : Call → Request
  | .map spec _ => spec.request
  | .delete proto internalPort => deleteRequest proto internalPort

structure Outcome where
  asked : Call
  /-- The number of its exchange. -/
  call : Nat
  result : Except PortForwardError (Option PortMapping)

structure Client where
  network : Network
  outcomes : List Outcome := []

namespace Client

def start (script : List (List Window)) : Client where
  network := { script }

def step (client : Client) (call : Call) : Client :=
  let returned : Except PortForwardError (Option PortMapping) × Network :=
    match call with
    | .map spec oversized =>
      let mapped := mapWithCredential spec oversized client.network
      (mapped.1.map some, mapped.2)
    | .delete proto internalPort =>
      let deleted := PortForward.delete proto internalPort client.network
      (deleted.1.map fun _ => none, deleted.2)
  { network := returned.2
    outcomes := client.outcomes ++
      [{ asked := call
         call := client.network.calls
         result := returned.1 }] }

def run (client : Client) (calls : List Call) : Client := Execution.run step client calls

end Client

/-- The gateway has processed the request of the call, and a mapping that was
returned is what it has granted. -/
def Outcome.Right (outcome : Outcome) (answers : List Answered) : Prop :=
  match outcome.result with
  | .error _ => True
  | .ok mapping => ∃ answered ∈ answers, answered.call = outcome.call ∧
      answered.request = outcome.asked.request ∧ answered.grant.resultCode = .success ∧
      ∀ granted ∈ mapping, granted.externalPort = answered.grant.externalPort ∧
          granted.lifetimeSecs = answered.grant.lifetimeSecs

theorem granted_ok {spec : MapSpec} (asked : answered.request = spec.request)
    (ok : spec.granted answered.response = .ok mapping) : answered.grant.resultCode = .success ∧
      mapping.externalPort = answered.grant.externalPort ∧
      mapping.lifetimeSecs = answered.grant.lifetimeSecs := by
  rw [Answered.response, asked, MapSpec.request, Request.answer] at ok
  cases code : answered.grant.resultCode with
  | success =>
    rw [code, MapSpec.granted] at ok
    split at ok
    · cases ok
      exact ⟨rfl, rfl, rfl⟩
    · cases ok
  | _ =>
    rw [code] at ok
    cases ok

theorem acknowledged_ok (asked : answered.request = deleteRequest proto internalPort)
    (ok : acknowledged internalPort answered.response = .ok ()) :
    answered.grant.resultCode = .success := by
  rw [Answered.response, asked, deleteRequest, Request.answer] at ok
  cases code : answered.grant.resultCode with
  | success => rfl
  | _ =>
    rw [code] at ok
    cases ok

theorem Outcome.Right.mono {outcome : Outcome} (right : outcome.Right answers)
    (longer : answers ⊆ later) : outcome.Right later := by
  rw [Outcome.Right] at right ⊢
  split
  · trivial
  · rename_i mapping returned
    rw [returned] at right
    rcases right with ⟨answered, member, rest⟩
    exact ⟨answered, longer member, rest⟩

/-! ## One call -/

/-- What a call leaves: the wire grows, and its outcome is right if no old reply
of its kind is delivered. -/
structure Client.Stepped (client : Client) (call : Call) (after : Client) : Prop where
  numbered : after.network.Numbered
  answers : client.network.answers ⊆ after.network.answers
  outcomes : ∃ outcome, after.outcomes = client.outcomes ++ [outcome] ∧
    (Fresh call.request client.network → outcome.Right after.network.answers)

variable {client : Client}

theorem Client.step_map (numbered : client.network.Numbered) (spec : MapSpec)
    (oversized : Bool) :
    client.Stepped (.map spec oversized) (client.step (.map spec oversized)) := by
  cases oversized with
  | true =>
    refine ⟨numbered, fun _ member => member, _, rfl, ?_⟩
    intro _
    trivial
  | false =>
    have asks := exchange_asks numbered spec.request
    have longer := exchange_answers spec.request client.network
    rw [Client.step]
    simp only [mapWithCredential, Bool.false_eq_true, if_false]
    cases returned : exchangeFrame spec.request client.network with
    | mk result network =>
      rw [returned] at asks longer
      cases result with
      | error error => exact ⟨asks.numbered, longer, _, rfl, fun _ => trivial⟩
      | ok answered =>
        refine ⟨asks.numbered, longer, _, rfl, ?_⟩
        intro fresh
        rcases exchange_own numbered returned fresh with ⟨there, same, asked⟩
        simp only [Outcome.Right]
        cases read : spec.granted answered.response with
        | error error => trivial
        | ok mapping =>
          rcases granted_ok asked read with ⟨success, port, lifetime⟩
          refine ⟨answered, there, same, asked, success, ?_⟩
          intro granted member
          cases member
          exact ⟨port, lifetime⟩

theorem Client.step_delete (numbered : client.network.Numbered)
    (proto : MapProto) (internalPort : UInt16) : client.Stepped (.delete proto internalPort)
      (client.step (.delete proto internalPort)) := by
  have asks := exchange_asks numbered (deleteRequest proto internalPort)
  have longer := exchange_answers (deleteRequest proto internalPort) client.network
  rw [Client.step]
  simp only [PortForward.delete]
  cases returned : exchangeFrame (deleteRequest proto internalPort) client.network with
  | mk result network =>
    rw [returned] at asks longer
    cases result with
    | error error => exact ⟨asks.numbered, longer, _, rfl, fun _ => trivial⟩
    | ok answered =>
      refine ⟨asks.numbered, longer, _, rfl, ?_⟩
      intro fresh
      rcases exchange_own numbered returned fresh with ⟨there, same, asked⟩
      simp only [Outcome.Right]
      cases read : acknowledged internalPort answered.response with
      | error error => trivial
      | ok done =>
        refine ⟨answered, there, same, asked, acknowledged_ok asked read, ?_⟩
        intro _ member
        cases member

theorem Client.step_stepped (numbered : client.network.Numbered) (call : Call) :
    client.Stepped call (client.step call) := by
  cases call with
  | map spec oversized => exact step_map numbered spec oversized
  | delete proto internalPort => exact step_delete numbered proto internalPort

/-! ## Every sequence of calls -/

/-- In every run of calls on one flow, over every network and gateway, in which
no call is delivered a reply to an earlier one that it would take for its own,
every result is right: the gateway has processed the request, and has granted
what was returned. -/
theorem Client.results_right (script : List (List Window)) (calls : List Call)
    (fresh : Execution.Guarded Client.step (fun client call => Fresh call.request client.network)
      (Client.start script) calls) :
    ∀ outcome ∈ ((Client.start script).run calls).outcomes,
      outcome.Right ((Client.start script).run calls).network.answers := by
  refine (Execution.run_history Client.step (fun _ client =>
    client.network.Numbered ∧ ∀ outcome ∈ client.outcomes, outcome.Right client.network.answers)
    ⟨⟨?_, ?_⟩, ?_⟩ ?_ calls fresh).2
  · exact fun _ member => absurd member not_mem_nil
  · exact fun _ member => absurd member not_mem_nil
  · exact fun _ member => absurd member not_mem_nil
  · intro past call invariant now
    have stepped := step_stepped invariant.1 call
    refine ⟨stepped.numbered, ?_⟩
    intro outcome member
    rcases stepped.outcomes with ⟨last, added, right⟩
    rw [added] at member
    rcases mem_append.mp member with old | new
    · exact (invariant.2 outcome old).mono stepped.answers
    · rw [mem_singleton.mp new]
      exact right now

/-! ## Samples -/

namespace Sample

def spec : MapSpec := ⟨.tcp, 80, 0, 7200⟩

def served (grant : Grant) : Window :=
  { events := [.serve 0 grant, .receive 0] }

def granting (port : UInt16) : Grant := ⟨.success, port, 7200, ⟨0⟩⟩

end Sample

theorem Client.results_right_sample :
    ∃ answered ∈ ((Client.start [[Sample.served (Sample.granting 4000)]]).run
        [.map Sample.spec false]).network.answers,
      answered.call = 0 ∧ answered.grant.externalPort = 4000 := by
  have right := Client.results_right [[Sample.served (Sample.granting 4000)]]
    [.map Sample.spec false] (by decide)
    ⟨.map Sample.spec false, 0, .ok (some ⟨.tcp, 80, 4000, 7200⟩)⟩
    (mem_singleton.mpr rfl)
  rcases right with ⟨answered, member, call, _, _, granted⟩
  exact ⟨answered, member, call, (granted _ rfl).1.symm⟩

/-- A copy of an old reply: the delete returns although the gateway never got
it, and so does the map behind it. -/
theorem Client.old_reply_taken :
    let client := (Client.start [[Sample.served (Sample.granting 4000)],
        [{ events := [.receive 0] }], [{ events := [.receive 0] }]]).run
      [.map Sample.spec false, .delete .tcp 80, .map Sample.spec false]
    client.outcomes.tail =
        [⟨.delete .tcp 80, 1, .ok none⟩,
          ⟨.map Sample.spec false, 2, .ok (some ⟨.tcp, 80, 4000, 7200⟩)⟩] ∧
      ∀ outcome ∈ client.outcomes.tail,
        ¬outcome.Right client.network.answers := by
  intro client
  have returned : client.outcomes.tail =
      [⟨.delete .tcp 80, 1, .ok none⟩,
        ⟨.map Sample.spec false, 2, .ok (some ⟨.tcp, 80, 4000, 7200⟩)⟩] :=
    rfl
  have served : client.network.answers =
      [⟨0, Sample.spec.request, Sample.granting 4000⟩] := rfl
  refine ⟨returned, ?_⟩
  rw [returned, served]
  intro outcome member right
  simp only [mem_cons, not_mem_nil, or_false] at member
  rcases member with rfl | rfl
  all_goals
    rcases right with ⟨answered, there, call, _⟩
    rw [mem_singleton.mp there] at call
    cases call

end WarrenSdk.Net.PortForward
