import WarrenSdk.Net.PortForward.Results

/-! # Requests over a lossy network

Over a network that only loses datagrams, an exchange does to the gateway what
the transmissions that arrive do to it, and only to its own mapping. -/

namespace WarrenSdk.Net.PortForward

open Bolthole Netstack List HashMap

/-! ## The network and the gateway -/

/-- A transmission is lost, served with its reply lost, or served and answered. -/
def Window.lossy (window : Window) : Bool :=
  match window.events with
  | [] | [.closed] | [.serve 0 _] | [.serve 0 _, .closed]
  | [.serve 0 _, .receive 0] => true
  | _ => false

def Network.Lossy (network : Network) : Prop :=
  ∀ windows ∈ network.script, ∀ window ∈ windows, window.lossy = true

/-- A suggestion other than zero is granted exactly, or refused. -/
def Answered.Strict (answered : Answered) : Prop :=
  match answered.request with
  | .map _ _ suggested lifetimeSecs =>
    suggested ≠ 0 → lifetimeSecs ≠ 0 → answered.grant.resultCode = .success →
      answered.grant.externalPort = suggested
  | .externalAddress => True

instance (network : Network) : Decidable network.Lossy :=
  inferInstanceAs (Decidable (∀ windows ∈ network.script, _))

instance : (answered : Answered) → Decidable answered.Strict
  | ⟨_, .externalAddress, _⟩ => isTrue trivial
  | ⟨_, .map .., _⟩ => inferInstanceAs (Decidable (_ → _ → _ → _))

/-! ## One exchange -/

/-- The network after the gateway has decided about transmissions of one request,
one after the other. -/
structure Decided (call : Nat) (request : Request) (grants : List Grant)
    (before after : Network) : Prop where
  calls : after.calls = before.calls
  script : after.script = before.script
  answers : after.answers = before.answers ++ grants.map fun grant => ⟨call, request, grant⟩
  mappings : after.mappings = grants.foldl (fun mappings grant => mappings.apply request grant)
      before.mappings

theorem Decided.none (call : Nat) (request : Request) (network : Network) :
    Decided call request [] network network :=
  ⟨rfl, rfl, (append_nil _).symm, rfl⟩

theorem Decided.trans (before : Decided call request early first second)
    (after : Decided call request late second third) :
    Decided call request (early ++ late) first third := by
  refine ⟨after.calls.trans before.calls, after.script.trans before.script, ?_, ?_⟩
  · rw [after.answers, before.answers, map_append, append_assoc]
  · rw [after.mappings, before.mappings, foldl_append]

theorem send_decided (call : Nat) (request : Request) (network : Network) :
    Decided call request [] network (network.send call request) :=
  ⟨rfl, rfl, (append_nil _).symm, rfl⟩

theorem serve_decided (call : Nat) (request : Request) (grant : Grant) (network : Network) :
    Decided call request [grant] network ((network.send call request).serve 0 grant) := by
  have last : (network.send call request).sent.reverse[0]? = some ⟨call, request⟩ := by
    simp [Network.send]
  rw [Network.serve, last]
  exact ⟨rfl, rfl, rfl, rfl⟩

theorem matches_answer (request : Request) (grant : Grant) :
    responseMatches request (request.answer grant) := by
  cases request with
  | externalAddress => rfl
  | map proto internalPort suggested lifetimeSecs => simp [responseMatches, Request.answer]

/-- What comes of the windows of an exchange over a lossy network: what the
gateway decides, one transmission after the other, and the decision that the
client hears of. -/
def course : Nat → List Window → List Grant × Option Grant
  | 0, _ => ([], none)
  | _ + 1, [] => ([], none)
  | left + 1, window :: windows =>
    match window.refused, window.events with
    | none, [] => course left windows
    | none, [.serve _ grant] =>
      let later := course left windows
      (grant :: later.1, later.2)
    | none, [.serve _ grant, .closed] => ([grant], none)
    | none, [.serve _ grant, .receive _] => ([grant], some grant)
    | _, _ => ([], none)

def Grant.port (grant : Grant) : Option UInt16 :=
  if grant.resultCode = .success then some grant.externalPort else none

/-- The ports that the gateway grants, one after the other. -/
def ports (windows : List Window) : List UInt16 :=
  (course maxAttempts windows).1.filterMap Grant.port

/-- The port that the client is granted, as far as it hears. -/
def told (windows : List Window) : Option UInt16 := (course maxAttempts windows).2.bind Grant.port

theorem course_nil (left : Nat) : course left [] = ([], none) := by cases left <;> rfl

theorem course_heard (heard : (course left windows).2 = some grant) :
    ∃ front, (course left windows).1 = front ++ [grant] := by
  induction left generalizing windows with
  | zero => cases heard
  | succ left induction =>
    cases windows with
    | nil => cases heard
    | cons window windows =>
      rw [course] at heard ⊢
      split at heard
      · exact induction heard
      · rcases induction heard with ⟨front, split⟩
        exact ⟨_ :: front, congrArg _ split⟩
      · cases heard
      · cases heard
        exact ⟨[], rfl⟩
      · cases heard

theorem told_last (heard : told windows = some port) : (ports windows).getLast? = some port := by
  rcases Option.bind_eq_some_iff.mp heard with ⟨last, there, granted⟩
  rcases course_heard there with ⟨front, split⟩
  simp [ports, split, filterMap_append, granted]

theorem attempts_lossy {windows : List Window}
    (lossy : ∀ window ∈ windows, window.lossy) (call : Nat) (request : Request)
    (left : Nat) (network : Network) : Decided call request (course left windows).1 network
        (attempts call request left windows network).2 ∧
      (attempts call request left windows network).1.toOption =
        (course left windows).2.map fun grant => ⟨call, request, grant⟩ := by
  induction left generalizing windows network with
  | zero => exact ⟨.none call request network, rfl⟩
  | succ left induction =>
    have sent := send_decided call request network
    cases windows with
    | nil =>
      have none : ∀ window ∈ ([] : List Window), window.lossy = true := by simp
      have rest := induction none (network.send call request)
      rw [course_nil] at rest
      exact ⟨sent.trans rest.1, rest.2⟩
    | cons window windows =>
      have rest := induction fun window member => lossy window (mem_cons_of_mem _ member)
      have shape := lossy window mem_cons_self
      rw [attempts, course]
      cases window.refused with
      | some error => exact ⟨.none call request network, rfl⟩
      | none =>
        rw [Window.lossy] at shape
        split at shape
        · rename_i events
          rw [events]
          exact ⟨sent.trans (rest _).1, (rest _).2⟩
        · rename_i events
          rw [events]
          exact ⟨sent, rfl⟩
        · rename_i grant events
          rw [events]
          exact ⟨(serve_decided call request grant network).trans (rest _).1, (rest _).2⟩
        · rename_i grant events
          rw [events]
          exact ⟨serve_decided call request grant network, rfl⟩
        · rename_i grant events
          rw [events]
          have decided := serve_decided call request grant network
          have last : ((network.send call request).serve 0 grant).answers.reverse[0]? =
              some ⟨call, request, grant⟩ := by
            rw [decided.answers]
            simp
          have fits : responseMatches request (Answered.response ⟨call, request, grant⟩) = true :=
            matches_answer request grant
          simp only [listen, last, fits, if_true]
          exact ⟨decided, rfl⟩
        · cases shape

def Network.begun (network : Network) : Network :=
  { network with calls := network.calls + 1, script := network.script.tail }

variable {network : Network}

theorem exchange_lossy (lossy : network.Lossy) (request : Request) :
    Decided network.calls request (course maxAttempts (network.script.headD [])).1
        network.begun (exchangeFrame request network).2 ∧
      (exchangeFrame request network).1.toOption =
        (course maxAttempts (network.script.headD [])).2.map fun grant =>
          ⟨network.calls, request, grant⟩ := by
  apply attempts_lossy
  intro window member
  cases script : network.script with
  | nil =>
    rw [script] at member
    exact absurd member not_mem_nil
  | cons windows later =>
    rw [script] at member
    exact lossy windows (by rw [script]; exact mem_cons_self) window member

theorem Decided.lossy {after : Network} (decided : Decided call request grants network.begun after)
    (lossy : network.Lossy) : after.Lossy := by
  intro windows member
  rw [decided.script] at member
  exact lossy windows (mem_of_mem_tail member)

/-! ## What decisions do to mappings -/

/-- What is mapped is the last port that was granted, unless the request deletes. -/
theorem get_applied (grants : List Grant) (mappings : Mappings) (key : MapProto × UInt16) :
    (grants.foldl (fun mappings grant => mappings.apply
      (.map proto internalPort suggested lifetimeSecs) grant) mappings).get key =
      if key = (proto, internalPort) then
        (grants.filterMap Grant.port).getLast?.elim (mappings.get key) fun port =>
          if lifetimeSecs = 0 then none else some port
      else mappings.get key := by
  induction grants using reverseRecOn with
  | nil => simp
  | append_singleton grants grant induction =>
    rw [foldl_append, foldl_cons, foldl_nil, filterMap_append, getLast?_append, Mappings.apply.eq_def]
    by_cases success : grant.resultCode = .success
    · have granted : [grant].filterMap Grant.port = [grant.externalPort] := by
        simp [Grant.port, success]
      rw [success, granted]
      by_cases deletes : lifetimeSecs = 0
      · simp only [deletes, if_true, get_remove] at induction ⊢
        rw [induction]
        split <;> simp
      · simp only [deletes, if_false, get_insert] at induction ⊢
        rw [induction]
        split <;> simp
    · have refused : [grant].filterMap Grant.port = [] := by simp [Grant.port, success]
      rw [refused]
      simpa [success] using induction

/-! ## One leg -/

/-- The windows that a caller's exchanges meet: none, if its credential is too
large to be sent. -/
def Network.plan (network : Network) (oversized : Bool) : List (List Window) :=
  if oversized then [] else network.script

def PortMapping.leg (mapping : PortMapping) : MapProto × UInt16 :=
  (mapping.proto, mapping.externalPort)

/-- What a map request over a lossy network leaves. -/
structure MapSpec.Served (spec : MapSpec) (oversized : Bool)
    (network after : Network) (result : Except PortForwardError PortMapping) : Prop where
  lossy : after.Lossy
  answers : network.answers ⊆ after.answers
  plan : after.plan oversized = (network.plan oversized).tail
  mappings : ∀ key, after.mappings.get key = (if key = (spec.proto, spec.internalPort) then
      (ports ((network.plan oversized).headD [])).getLast? else none).or (network.mappings.get key)
  told : result.toOption.map PortMapping.leg =
    (told ((network.plan oversized).headD [])).map (spec.proto, ·)
  strict : (∀ answered ∈ after.answers, answered.Strict) → spec.suggestedExternalPort ≠ 0 →
    ∀ port ∈ ports ((network.plan oversized).headD []), port = spec.suggestedExternalPort

/-- What the client makes of the reply to its own request. -/
theorem granted_own (spec : MapSpec) (call : Nat) (grant : Grant) :
    (spec.granted (Answered.response ⟨call, spec.request, grant⟩)).toOption.map PortMapping.leg =
      grant.port.map (spec.proto, ·) := by
  rw [Answered.response, MapSpec.request, Request.answer, Grant.port]
  cases code : grant.resultCode with
  | success =>
    rw [MapSpec.granted, if_pos rfl]
    rfl
  | _ => rfl

theorem map_served (spec : MapSpec) (real : spec.lifetimeSecs ≠ 0)
    (lossy : network.Lossy) (oversized : Bool) :
    spec.Served oversized network (mapWithCredential spec oversized network).2
      (mapWithCredential spec oversized network).1 := by
  cases oversized with
  | true =>
    refine ⟨lossy, fun _ member => member, rfl, ?_, rfl, by rintro _ _ _ ⟨⟩⟩
    intro key
    exact (congrArg (Option.or · _) (ite_self none)).symm
  | false =>
    simp only [mapWithCredential, Bool.false_eq_true, if_false]
    have longer := exchange_answers spec.request network
    rcases exchange_lossy lossy spec.request with ⟨decided, heard⟩
    have mappings : ∀ key, (exchangeFrame spec.request network).2.mappings.get key =
        (if key = (spec.proto, spec.internalPort) then
          (ports (network.script.headD [])).getLast? else none).or (network.mappings.get key) := by
      intro key
      rw [decided.mappings, MapSpec.request, get_applied, ports]
      simp only [if_neg real]
      split
      · cases getLast? _ <;> rfl
      · rfl
    have strict : (∀ answered ∈ (exchangeFrame spec.request network).2.answers,
        answered.Strict) → spec.suggestedExternalPort ≠ 0 →
        ∀ port ∈ ports (network.script.headD []), port = spec.suggestedExternalPort := by
      intro strict suggests port granted
      rcases mem_filterMap.mp granted with ⟨grant, member, same⟩
      rcases Option.ite_none_right_eq_some.mp same with ⟨success, ⟨⟩⟩
      apply strict ⟨network.calls, spec.request, grant⟩ _ suggests real success
      rw [decided.answers]
      exact mem_append_right _ (mem_map.mpr ⟨grant, member, rfl⟩)
    cases returned : exchangeFrame spec.request network with
    | mk result after =>
      rw [returned] at longer decided heard strict mappings
      have served : ∀ result, result.toOption.map PortMapping.leg =
          (PortForward.told (network.script.headD [])).map (spec.proto, ·) →
          spec.Served false network after result :=
        fun _ told => ⟨decided.lossy lossy, longer, decided.script, mappings, told, strict⟩
      rw [PortForward.told] at served
      cases result with
      | error error =>
        rw [Option.map_eq_none_iff.mp heard.symm] at served
        exact served _ rfl
      | ok answered =>
        rcases Option.map_eq_some_iff.mp heard.symm with ⟨grant, there, rfl⟩
        rw [there] at served
        exact served _ (granted_own spec _ grant)

/-! ## Samples -/

namespace Sample

def pair : Network where
  script := [[served (granting 4000)], [served (granting 4000)]]

theorem fresh_numbered (script : List (List Window)) (mappings : Mappings) :
    Network.Numbered { script, mappings } :=
  ⟨fun _ member => absurd member not_mem_nil, fun _ member => absurd member not_mem_nil⟩

end Sample

end WarrenSdk.Net.PortForward
