import WarrenSdk.Bolthole.Responder.Reload

/-! # Which socket answers

An endpoint is answered by the socket that it was last heard on. The table that
says so is written by the handling of datagrams alone. -/

namespace WarrenSdk.Bolthole.Routes

open Execution (run)

def endpointRoutesMax : Nat := 1024

abbrev Table := HashMap SocketAddr Nat

/-- `sockets` are the local addresses, as far as they can be read. -/
def socketFor (sockets : List (Option SocketAddr)) (routes : Table) (endpoint : SocketAddr) : Nat :=
  match routes.get endpoint with
  | some index => index
  | none =>
    (sockets.findIdx? fun socket => socket.any fun bound => bound.isIpv6 = endpoint.isIpv6).getD 0

def noteRoute (routes : Table) (src : SocketAddr) (index : Nat) : Table :=
  let routes :=
    if endpointRoutesMax ≤ routes.size ∧ routes.get src = none then .empty
    else routes
  routes.insert src index

/-- A datagram, the socket that it was read from and the responder that it
meets. -/
structure Arrival (noise : Noise) where
  responder : Responder noise
  index : Nat
  src : SocketAddr
  datagram : List UInt8
  ambient : noise.Ambient
  now : Instant
  scratch : List UInt8

variable (engine : ChecksumEngine)

namespace Arrival

def inbound (arrival : Arrival noise) : Inbound :=
  (arrival.responder.handleDatagram engine arrival.ambient arrival.src
    arrival.datagram arrival.now arrival.scratch).1

def Dropped (arrival : Arrival noise) : Prop := ∃ reason, arrival.inbound engine = .dropped reason

/-- The answer is what the limiter wrote, or a cookie reply by its type. -/
def Cookied (arrival : Arrival noise) : Prop :=
  ∃ cookie, arrival.inbound engine = .reply cookie ∧
    ((noise.verifyPacket arrival.ambient arrival.responder.limiter
        arrival.src.ip arrival.datagram).1 = .error (.writeToNetwork cookie) ∨
      cookie.head? = some 3)

end Arrival

def handleDatagram (routes : Table) (arrival : Arrival noise) : Table :=
  match arrival.inbound engine with
  | .dropped _ => routes
  | _ => noteRoute routes arrival.src arrival.index

/-- Every endpoint is answered as by the other table. -/
def SameAnswers (left right : Table) : Prop :=
  ∀ endpoint, left.get endpoint = right.get endpoint ∧
    ∀ sockets, socketFor sockets left endpoint = socketFor sockets right endpoint

theorem sameAnswers_iff :
    SameAnswers left right ↔ ∀ endpoint, left.get endpoint = right.get endpoint := by
  constructor
  · exact fun same endpoint => (same endpoint).1
  · intro same endpoint
    exact ⟨same endpoint, fun _ => by rw [socketFor, socketFor, same endpoint]⟩

theorem noteRoute_same_iff : (∀ endpoint, (noteRoute routes src index).get endpoint =
        routes.get endpoint) ↔
      routes.get src = some index := by
  constructor
  · intro same
    rw [← same src, noteRoute, HashMap.get_insert, if_pos rfl]
  · intro known endpoint
    rw [noteRoute, if_neg (by simp [known]), HashMap.get_insert]
    split
    · next equal => rw [equal, known]
    · rfl

/-- A datagram leaves the table alone exactly if it is dropped, or its source was
last heard on the same socket. -/
theorem handleDatagram_same_iff : (∀ endpoint, (handleDatagram engine routes arrival).get endpoint =
        routes.get endpoint) ↔
      arrival.Dropped engine ∨ routes.get arrival.src = some arrival.index := by
  unfold handleDatagram Arrival.Dropped
  cases arrival.inbound engine with
  | dropped reason => exact iff_of_true (fun _ => rfl) (.inl ⟨reason, rfl⟩)
  | _ => rw [noteRoute_same_iff, or_iff_right nofun]

/-- Datagrams that authenticate no peer leave all answers where they were exactly
if those among them that get a cookie come by the socket that already answers
their source. -/
theorem stray_answers_iff (routes : Table) (arrivals : List (Arrival noise))
    (stray : ∀ arrival ∈ arrivals, arrival.Dropped engine ∨ arrival.Cookied engine) :
    (∀ past later, arrivals = past ++ later →
        SameAnswers (run (handleDatagram engine) routes past) routes) ↔
      ∀ arrival ∈ arrivals, arrival.Cookied engine →
        routes.get arrival.src = some arrival.index := by
  simp only [sameAnswers_iff]
  constructor
  · intro same arrival mem cookied
    rcases List.append_of_mem mem with ⟨past, later, split⟩
    have before := same past _ split
    have after := same (past ++ [arrival]) later (by simp [split])
    rw [Execution.run_snoc] at after
    have kept := (handleDatagram_same_iff engine).mp fun endpoint =>
      (after endpoint).trans (before endpoint).symm
    rw [← before]
    refine kept.resolve_left ?_
    rintro ⟨reason, dropped⟩
    rcases cookied with ⟨cookie, replied, _⟩
    cases dropped.symm.trans replied
  · intro known past later split
    have part : ∀ arrival ∈ past, arrival ∈ arrivals := by simp_all
    clear split
    induction past using List.reverseRecOn with
    | nil => exact fun _ => rfl
    | append_singleton past arrival induction =>
      have before := induction fun other mem => part other (by simp [mem])
      have mem := part arrival (by simp)
      have kept : arrival.Dropped engine ∨
          (run (handleDatagram engine) routes past).get arrival.src = some arrival.index := by
        rw [before]
        exact (stray arrival mem).imp_right (known arrival mem)
      intro endpoint
      rw [Execution.run_snoc, (handleDatagram_same_iff engine).mpr kept]
      exact before endpoint

/-- An empty datagram, which the limiter answers with a cookie. -/
def forged : Arrival Responder.Sample.noise where
  responder := Responder.Sample.start
  index := 0
  src := Responder.Sample.visitor
  datagram := []
  ambient := ()
  now := 0
  scratch := []

theorem forged_cookied : forged.Cookied Responder.Sample.engine := ⟨[3], rfl, .inr rfl⟩

theorem stray_answers_iff_forged : SameAnswers (run (handleDatagram Responder.Sample.engine)
        (HashMap.empty.insert Responder.Sample.visitor 0) [forged])
      (HashMap.empty.insert Responder.Sample.visitor 0) :=
  (stray_answers_iff Responder.Sample.engine _ [forged]
    (by simp [forged_cookied])).mpr (by simp [forged]) [forged] [] rfl

/-- A forged datagram moves the answers of a peer that was heard on socket 1. -/
theorem forged_moves_answers : forged.Cookied Responder.Sample.engine ∧
      socketFor [] (HashMap.empty.insert Responder.Sample.visitor 1) Responder.Sample.visitor = 1 ∧
      socketFor [] (run (handleDatagram Responder.Sample.engine)
          (HashMap.empty.insert Responder.Sample.visitor 1) [forged])
        Responder.Sample.visitor = 0 :=
  ⟨forged_cookied, by decide +kernel, by decide +kernel⟩

end WarrenSdk.Bolthole.Routes
