import Mathlib
import WarrenSdk.Foundation.Execution
import WarrenSdk.Net.Netstack.Session

/-! # The write side of a connection

What the application writes is queued, taken up by the engine and handed to the
socket. The three places together always hold what was written, in order. -/

namespace WarrenSdk.Net.Netstack

open List Execution

def WriteOp.bytes : WriteOp → List UInt8
  | .data bytes => bytes
  | .shutdown => []

def queuedBytes (ops : List WriteOp) : List UInt8 := ops.flatMap WriteOp.bytes

@[simp] theorem queuedBytes_nil : queuedBytes [] = [] := rfl

@[simp] theorem queuedBytes_cons (op : WriteOp) (ops : List WriteOp) :
    queuedBytes (op :: ops) = op.bytes ++ queuedBytes ops := rfl

@[simp] theorem queuedBytes_append (front back : List WriteOp) :
    queuedBytes (front ++ back) = queuedBytes front ++ queuedBytes back := by
  simp [queuedBytes]

/-- An operation of the queue has fewer bytes before it, pending or queued, than
the cap. -/
def Reaches (pending : Nat) (ops : List WriteOp) (op : WriteOp) : Prop :=
  ∃ front back, ops = front ++ op :: back ∧ pending + (queuedBytes front).length < pendingOutCap

theorem reaches_cons : Reaches pending (op :: ops) other ↔ pending < pendingOutCap ∧
      (other = op ∨ Reaches (pending + op.bytes.length) ops other) := by
  constructor
  · rintro ⟨front, back, split, room⟩
    cases front with
    | nil =>
      cases split
      exact ⟨room, .inl rfl⟩
    | cons first front =>
      cases split
      rw [queuedBytes_cons, length_append, ← Nat.add_assoc] at room
      exact ⟨by omega, .inr ⟨front, back, rfl, room⟩⟩
  · rintro ⟨room, rfl | ⟨front, back, rfl, fits⟩⟩
    · exact ⟨[], ops, rfl, room⟩
    · refine ⟨op :: front, back, rfl, ?_⟩
      rwa [queuedBytes_cons, length_append, ← Nat.add_assoc]

theorem Reaches.of_mem (queued : op ∈ ops)
    (room : pending + (queuedBytes ops).length < pendingOutCap) : Reaches pending ops op := by
  rcases append_of_mem queued with ⟨front, back, rfl⟩
  refine ⟨front, back, rfl, ?_⟩
  rw [queuedBytes_append, length_append] at room
  omega

namespace Outgoing

def Counted (out : Outgoing) : Prop := out.pendingOutLen = out.pendingOut.flatten.length

def Solid (out : Outgoing) : Prop := ∀ chunk ∈ out.pendingOut, chunk ≠ []

theorem Solid.eq_nil {out : Outgoing} (solid : out.Solid)
    (empty : out.pendingOut.flatten = []) : out.pendingOut = [] := by
  cases pending : out.pendingOut with
  | nil => rfl
  | cons chunk rest =>
    rw [pending, flatten_cons, append_eq_nil_iff] at empty
    exact absurd empty.1 (solid chunk (by simp [pending]))

/-! ## Taking up -/

structure Ingested (out : Outgoing) (taken : List WriteOp) (after : Outgoing) : Prop where
  chunks : after.pendingOut.flatten = out.pendingOut.flatten ++ queuedBytes taken
  counted : out.Counted → after.Counted
  wants : after.wantClose = true ↔ out.wantClose = true ∨ .shutdown ∈ taken
  handed : after.handed = out.handed
  closed : after.closed = out.closed
  solid : after.Solid ↔ out.Solid ∧ .data [] ∉ taken

theorem Ingested.refl (out : Outgoing) : out.Ingested [] out where
  chunks := by simp
  counted := id
  wants := by simp
  handed := rfl
  closed := rfl
  solid := by simp

theorem Ingested.data {out after : Outgoing} (later : Ingested { out with
      pendingOutLen := out.pendingOutLen + bytes.length
      pendingOut := out.pendingOut ++ [bytes] } taken after) :
    out.Ingested (.data bytes :: taken) after where
  chunks := by
    rw [later.chunks]
    simp [WriteOp.bytes]
  counted := by
    intro counted
    apply later.counted
    unfold Counted at counted ⊢
    simp [counted]
  wants := by
    rw [later.wants]
    simp
  handed := later.handed
  closed := later.closed
  solid := by
    rw [later.solid]
    simp [Solid, or_imp, forall_and, and_assoc, eq_comm]

theorem Ingested.shutdown {out after : Outgoing}
    (later : Ingested { out with wantClose := true } taken after) :
    out.Ingested (.shutdown :: taken) after where
  chunks := later.chunks
  counted := later.counted
  wants := by
    rw [later.wants]
    simp
  handed := later.handed
  closed := later.closed
  solid := by
    rw [later.solid]
    simp [Solid]

/-- An ingest takes up the first operations of the queue: those that it
reaches. -/
theorem ingest_spec (out : Outgoing) (ops : List WriteOp) :
    ∃ taken, ops = taken ++ (out.ingest ops).2 ∧ out.Ingested taken (out.ingest ops).1 ∧
      ∀ op, op ∈ taken ↔ Reaches out.pendingOutLen ops op := by
  induction ops generalizing out with
  | nil => exact ⟨[], rfl, .refl out, by simp [Reaches]⟩
  | cons op rest induction =>
    by_cases room : out.pendingOutLen < pendingOutCap
    · cases op with
      | data bytes =>
        rw [ingest, if_pos room]
        rcases induction { out with
          pendingOutLen := out.pendingOutLen + bytes.length
          pendingOut := out.pendingOut ++ [bytes] } with
          ⟨taken, split, spec, reached⟩
        refine ⟨.data bytes :: taken, congrArg _ split, spec.data, ?_⟩
        intro other
        rw [mem_cons, reached, reaches_cons]
        exact (and_iff_right room).symm
      | shutdown =>
        rw [ingest, if_pos room]
        rcases induction { out with wantClose := true } with ⟨taken, split, spec, reached⟩
        refine ⟨.shutdown :: taken, congrArg _ split, spec.shutdown, ?_⟩
        intro other
        rw [mem_cons, reached, reaches_cons]
        exact (and_iff_right room).symm
    · rw [ingest.eq_def]
      simp only [if_neg room]
      refine ⟨[], rfl, .refl out, ?_⟩
      intro other
      simp [reaches_cons, room]

/-- One write above the cap is the most that an ingest leaves pending. -/
theorem ingest_bounded {out : Outgoing} (below : out.pendingOutLen < pendingOutCap + longest)
    (short : ∀ bytes, .data bytes ∈ ops → bytes.length ≤ longest) :
    (out.ingest ops).1.pendingOutLen < pendingOutCap + longest := by
  induction ops generalizing out with
  | nil => exact below
  | cons op rest induction =>
    have shortRest : ∀ bytes, .data bytes ∈ rest → bytes.length ≤ longest :=
      fun bytes member => short bytes (mem_cons_of_mem _ member)
    cases op with
    | data bytes =>
      rw [ingest]
      split
      · rename_i room
        apply induction _ shortRest
        have fits := short bytes mem_cons_self
        simp only
        omega
      · exact below
    | shutdown =>
      rw [ingest]
      split
      · exact induction below shortRest
      · exact below

/-! ## Handing over -/

section Pump

variable {Socket : Type} (outlet : Outlet Socket)

structure Pushed (out after : Outgoing) : Prop where
  chunks : after.handed ++ after.pendingOut.flatten = out.handed ++ out.pendingOut.flatten
  grows : out.handed <+: after.handed
  counted : out.Counted → after.Counted
  lighter : after.pendingOutLen ≤ out.pendingOutLen
  wants : after.wantClose = out.wantClose
  closed : after.closed = out.closed
  solid : after.Solid ↔ out.Solid

theorem Pushed.refl (out : Outgoing) : out.Pushed out where
  chunks := rfl
  grows := prefix_refl _
  counted := id
  lighter := Nat.le_refl _
  wants := rfl
  closed := rfl
  solid := .rfl

theorem Pushed.trans {first : Outgoing} (early : first.Pushed second) (late : second.Pushed third) :
    first.Pushed third where
  chunks := late.chunks.trans early.chunks
  grows := early.grows.trans late.grows
  counted := late.counted ∘ early.counted
  lighter := Nat.le_trans late.lighter early.lighter
  wants := late.wants.trans early.wants
  closed := late.closed.trans early.closed
  solid := late.solid.trans early.solid

theorem flatten_accepted (out : Outgoing) (chunk : List UInt8)
    (rest : List (List UInt8)) (size : Nat) :
    (out.accepted chunk rest size).pendingOut.flatten = chunk.drop size ++ rest.flatten := by
  rw [accepted]
  simp only
  split
  · rename_i whole
    simp [whole]
  · simp

theorem pushed_accepted {out : Outgoing}
    (pending : out.pendingOut = chunk :: rest) (fits : size ≤ chunk.length)
    (some : 0 < size) : out.Pushed (out.accepted chunk rest size) where
  chunks := by
    rw [flatten_accepted, pending, accepted, flatten_cons]
    simp only [append_assoc]
    rw [← append_assoc (chunk.take size), take_append_drop]
  grows := prefix_append _ _
  counted := by
    intro counted
    have left := out.flatten_accepted chunk rest size
    unfold Counted at counted ⊢
    rw [left]
    simp only [accepted, counted, pending, flatten_cons, length_append, length_drop]
    omega
  lighter := Nat.sub_le _ _
  wants := rfl
  closed := rfl
  solid := by
    have offered : chunk ≠ [] := ne_nil_of_length_pos (by omega)
    unfold Solid
    rw [pending, accepted]
    simp only
    split
    · simp [offered]
    · rename_i partial_
      have left : chunk.drop size ≠ [] := by
        rw [ne_eq, drop_eq_nil_iff]
        omega
      simp [offered, left]

theorem push_spec (rounds : Nat) (out : Outgoing) (socket : Socket) :
    out.Pushed (out.push outlet rounds socket).1 := by
  induction rounds generalizing out socket with
  | zero => exact .refl out
  | succ rounds induction =>
    rw [push]
    split
    · split
      · exact .refl out
      · rename_i chunk rest pending
        split
        · exact .refl out
        · exact .refl out
        · rename_i size after sent
          exact (pushed_accepted pending (outlet.accepts sent)
            (Nat.succ_pos _)).trans (induction _ _)
    · exact .refl out

/-- With no empty chunk in the way, the pump stops only for a full socket or for
want of bytes. -/
theorem push_flushes {rounds : Nat} {out : Outgoing}
    (enough : out.pendingOut.flatten.length < rounds) (solid : out.Solid) :
    outlet.hasRoom (out.push outlet rounds socket).2 = false ∨
      (out.push outlet rounds socket).1.pendingOut = [] := by
  induction rounds generalizing out socket with
  | zero => exact absurd enough (Nat.not_lt_zero _)
  | succ rounds induction =>
    rw [push]
    split
    · split
      · rename_i nothing
        exact .inr nothing
      · rename_i chunk rest pending
        split
        · rename_i refused
          exact .inl (outlet.invalid refused)
        · rename_i after sent
          have offered : chunk ≠ [] := solid chunk (by simp [pending])
          exact .inl (outlet.full offered sent)
        · rename_i size after sent
          have fits := outlet.accepts sent
          apply induction
          · rw [flatten_accepted]
            rw [pending] at enough
            simp only [flatten_cons, length_append] at enough
            simp only [length_append, length_drop]
            omega
          · exact (pushed_accepted pending fits (Nat.succ_pos _)).solid.mpr solid
    · rename_i silent
      exact .inl (outlet.mute (by simpa using silent))

end Pump

end Outgoing

theorem Link.pollWrite_cases (link : Link) (buf : List UInt8) : (link.pollWrite buf).2 = link ∨
      (link.pollWrite buf).2 =
        { link with
          fromApp := link.fromApp ++ [.data buf]
          written := link.written ++ buf } := by
  simp only [Link.pollWrite, Link.queueOp]
  split_ifs
  · exact .inr rfl
  · exact .inl rfl
  · exact .inl rfl

theorem Link.pollShutdown_cases (link : Link) : link.pollShutdown.2 = link ∨ link.pollShutdown.2 =
        { link with
          fromApp := link.fromApp ++ [.shutdown]
          shut := true } := by
  simp only [Link.pollShutdown, Link.queueOp]
  split_ifs
  · exact .inr rfl
  · exact .inl rfl
  · exact .inl rfl

/-! ## The writer and its passes -/

/-- A connection as far as its writes go, over any kind of socket. -/
structure Writer (Socket : Type) where
  link : Link
  out : Outgoing := {}
  socket : Socket

namespace Writer

variable {Socket : Type} (outlet : Outlet Socket)

inductive Action (Socket : Type)
  | write (buf : List UInt8)
  | shutdown
  /-- The engine takes up what is queued and pumps the socket. -/
  | pass
  /-- The socket changes between two passes. -/
  | evolve (socket : Socket)

def taken (writer : Writer Socket) : Outgoing × List WriteOp :=
  writer.out.ingest writer.link.fromApp

/-- What the socket has taken when a pass asks whether to close it. -/
def pushed (writer : Writer Socket) : Outgoing × Socket :=
  writer.taken.1.push outlet (writer.taken.1.pendingOut.flatten.length + 1) writer.socket

def pass (writer : Writer Socket) : Writer Socket where
  link := { writer.link with fromApp := writer.taken.2 }
  out := (writer.taken.1.pump outlet writer.socket).1
  socket := (writer.taken.1.pump outlet writer.socket).2

def step (writer : Writer Socket) : Action Socket → Writer Socket
  | .write buf => { writer with link := (writer.link.pollWrite buf).2 }
  | .shutdown => { writer with link := writer.link.pollShutdown.2 }
  | .pass => writer.pass outlet
  | .evolve socket => { writer with socket }

def start (holder : Holder) (socket : Socket) : Writer Socket where
  link := { holder }
  socket := socket

def Final (writer : Writer Socket) : Action Socket → Prop
  | .write _ => writer.link.shut = false
  | _ => True

instance (writer : Writer Socket) : (action : Action Socket) → Decidable (writer.Final action)
  | .write _ => inferInstanceAs (Decidable (writer.link.shut = false))
  | .shutdown => isTrue trivial
  | .pass => isTrue trivial
  | .evolve _ => isTrue trivial

/-- Where the written bytes are, and what the shutdown has reached. -/
structure Intact (writer : Writer Socket) : Prop where
  written : writer.link.written = writer.out.handed ++
    writer.out.pendingOut.flatten ++ queuedBytes writer.link.fromApp
  counted : writer.out.Counted
  asked : writer.link.shut = true ↔ writer.out.wantClose = true ∨ .shutdown ∈ writer.link.fromApp
  silent : writer.out.wantClose = true → queuedBytes writer.link.fromApp = []
  last : ∀ front rest, writer.link.fromApp = front ++ .shutdown :: rest → queuedBytes rest = []
  closed : writer.out.closed = true →
    writer.link.shut = true ∧ writer.out.handed = writer.link.written

theorem Intact.start (holder : Holder) (socket : Socket) : (Writer.start holder socket).Intact where
  written := rfl
  counted := rfl
  asked := by simp [Writer.start]
  silent := fun _ => rfl
  last := by simp [Writer.start]
  closed := by simp [Writer.start]

theorem Intact.write {writer : Writer Socket} (intact : writer.Intact)
    (open_ : writer.link.shut = false) (buf : List UInt8) :
    Intact { writer with link := (writer.link.pollWrite buf).2 } := by
  have unasked : ¬(writer.out.wantClose = true ∨ .shutdown ∈ writer.link.fromApp) := by
    rw [← intact.asked]
    simp [open_]
  rcases writer.link.pollWrite_cases buf with same | accepted
  · rw [same]
    exact intact
  · rw [accepted]
    constructor
    · simp [intact.written, WriteOp.bytes]
    · exact intact.counted
    · simp [intact.asked]
    · intro wants
      exact absurd (.inl wants) unasked
    · intro front rest split
      have member : .shutdown ∈ writer.link.fromApp ++ [.data buf] := by
        simp only at split
        simp [split]
      simp only [mem_append, mem_singleton, reduceCtorEq, or_false] at member
      exact absurd (.inr member) unasked
    · intro closed
      have shut := (intact.closed closed).1
      simp [open_] at shut

theorem Intact.shutdown {writer : Writer Socket} (intact : writer.Intact) :
    Intact { writer with link := writer.link.pollShutdown.2 } := by
  rcases writer.link.pollShutdown_cases with same | accepted
  · rw [same]
    exact intact
  · rw [accepted]
    constructor
    · simp [intact.written, WriteOp.bytes]
    · exact intact.counted
    · simp
    · intro wants
      simpa [WriteOp.bytes] using intact.silent wants
    · intro front rest split
      rcases eq_nil_or_concat rest with rfl | ⟨middle, final, rfl⟩
      · rfl
      · simp only [concat_eq_append] at split ⊢
        rw [← cons_append, ← append_assoc] at split
        rcases append_inj' split rfl with ⟨older, same⟩
        cases same
        simpa [WriteOp.bytes] using intact.last front middle older
    · intro closed
      exact ⟨rfl, (intact.closed closed).2⟩

theorem Intact.take {writer : Writer Socket} (intact : writer.Intact) : Intact { writer with
      link := { writer.link with fromApp := writer.taken.2 }
      out := writer.taken.1 } := by
  rcases writer.out.ingest_spec writer.link.fromApp with ⟨taken, split, spec, _⟩
  change _ = taken ++ writer.taken.2 at split
  change writer.out.Ingested taken writer.taken.1 at spec
  have asked := intact.asked
  have written := intact.written
  rw [split] at asked written
  constructor
  · simp only [spec.chunks, spec.handed, written, queuedBytes_append, append_assoc]
  · exact spec.counted intact.counted
  · simp only [spec.wants, asked, mem_append]
    tauto
  · intro wants
    rcases spec.wants.mp wants with before | taking
    · have empty := intact.silent before
      rw [split, queuedBytes_append, append_eq_nil_iff] at empty
      exact empty.2
    · rcases append_of_mem taking with ⟨front, rest, rfl⟩
      have empty := intact.last front (rest ++ writer.taken.2) (by simp [split])
      rw [queuedBytes_append, append_eq_nil_iff] at empty
      exact empty.2
  · intro front rest left
    simp only at left
    exact intact.last (taken ++ front) rest (by rw [split, left]; simp)
  · intro closed
    simp only [spec.closed] at closed
    simp only [spec.handed]
    exact intact.closed closed

theorem Intact.push {writer : Writer Socket} (intact : writer.Intact)
    {after : Outgoing} (socket : Socket) (spec : writer.out.Pushed after) :
    Intact { writer with out := after, socket } := by
  constructor
  · simp only [spec.chunks, intact.written]
  · exact spec.counted intact.counted
  · simp only [spec.wants, intact.asked]
  · simp only [spec.wants]
    exact intact.silent
  · exact intact.last
  · intro closed
    simp only [spec.closed] at closed
    rcases intact.closed closed with ⟨shut, all⟩
    refine ⟨shut, ?_⟩
    -- Everything was handed over before, so nothing can follow.
    rw [← all]
    have whole : after.handed <+: writer.link.written := by
      rw [intact.written, ← spec.chunks, append_assoc]
      exact prefix_append _ _
    rw [← all] at whole
    exact (spec.grows.eq_of_length_le whole.length_le).symm

theorem Intact.finish {writer : Writer Socket} (intact : writer.Intact) : Intact { writer with
      out := (writer.out.finish outlet writer.socket).1
      socket := (writer.out.finish outlet writer.socket).2 } := by
  simp only [Outgoing.finish]
  split
  · rename_i closes
    simp only [Bool.and_eq_true, List.isEmpty_iff] at closes
    rcases closes with ⟨⟨wants, empty⟩, _⟩
    refine ⟨intact.written, intact.counted, intact.asked, intact.silent, intact.last, ?_⟩
    intro _
    constructor
    · exact intact.asked.mpr (.inl wants)
    · simp [intact.written, intact.silent wants, empty]
  · exact ⟨intact.written, intact.counted, intact.asked, intact.silent, intact.last, intact.closed⟩

theorem Intact.pass {writer : Writer Socket} (intact : writer.Intact) :
    (writer.pass outlet).Intact :=
  (intact.take.push (writer.pushed outlet).2 (Outgoing.push_spec outlet _ _ _)).finish outlet

theorem Intact.step {writer : Writer Socket} (intact : writer.Intact)
    (final : writer.Final action) : (writer.step outlet action).Intact := by
  cases action with
  | write buf => exact intact.write final buf
  | shutdown => exact intact.shutdown
  | pass => exact intact.pass outlet
  | evolve socket =>
    exact ⟨intact.written, intact.counted, intact.asked, intact.silent, intact.last, intact.closed⟩

/-! ## What the chunks have in common -/

section Chunks

def Writes (test : List UInt8 → Prop) : Action Socket → Prop
  | .write buf => test buf
  | _ => True

def Queued (test : List UInt8 → Prop) (writer : Writer Socket) : Prop :=
  ∀ bytes, .data bytes ∈ writer.link.fromApp → test bytes

theorem Queued.start (holder : Holder) (socket : Socket) :
    (Writer.start holder socket).Queued test :=
  fun _ member => absurd member (not_mem_nil)

theorem mem_of_left {writer : Writer Socket} (member : op ∈ writer.taken.2) :
    op ∈ writer.link.fromApp := by
  rcases writer.out.ingest_spec writer.link.fromApp with ⟨taken, split, _⟩
  rw [split]
  exact mem_append_right _ member

theorem Queued.step {writer : Writer Socket} (queued : writer.Queued test)
    (writes : Writes test action) : (writer.step outlet action).Queued test := by
  intro bytes member
  cases action with
  | write buf =>
    simp only [Writer.step] at member
    rcases writer.link.pollWrite_cases buf with same | accepted
    · rw [same] at member
      exact queued bytes member
    · rw [accepted] at member
      rcases mem_append.mp member with older | new
      · exact queued bytes older
      · cases mem_singleton.mp new
        exact writes
  | shutdown =>
    simp only [Writer.step] at member
    rcases writer.link.pollShutdown_cases with same | accepted
    · rw [same] at member
      exact queued bytes member
    · rw [accepted] at member
      rcases mem_append.mp member with older | new
      · exact queued bytes older
      · cases mem_singleton.mp new
  | pass => exact queued bytes (mem_of_left member)
  | evolve socket => exact queued bytes member

theorem taken_solid {writer : Writer Socket} (solid : writer.out.Solid)
    (queued : writer.Queued (· ≠ [])) : writer.taken.1.Solid := by
  rcases writer.out.ingest_spec writer.link.fromApp with ⟨taken, split, spec, _⟩
  refine spec.solid.mpr ⟨solid, fun member => queued [] ?_ rfl⟩
  rw [split]
  exact mem_append_left _ member

theorem Solid.start (holder : Holder) (socket : Socket) : (Writer.start holder socket).out.Solid :=
  fun _ member => absurd member (not_mem_nil)

theorem finish_pending (out : Outgoing) (socket : Socket) :
    (out.finish outlet socket).1.pendingOut = out.pendingOut ∧
      (out.finish outlet socket).1.pendingOutLen = out.pendingOutLen := by
  rw [Outgoing.finish]
  split <;> exact ⟨rfl, rfl⟩

theorem finish_cases (out : Outgoing) (socket : Socket) : ((out.wantClose ∧ out.pendingOut = [] ∧
        outlet.canSend socket) ∧
      out.finish outlet socket = ({ out with closed := true }, outlet.close socket)) ∨
    (¬(out.wantClose = true ∧ out.pendingOut = [] ∧ outlet.canSend socket = true) ∧
      out.finish outlet socket = (out, socket)) := by
  rw [Outgoing.finish]
  split
  · rename_i closes
    simp only [Bool.and_eq_true, List.isEmpty_iff] at closes
    exact .inl ⟨⟨closes.1.1, closes.1.2, closes.2⟩, rfl⟩
  · rename_i stays
    simp only [Bool.and_eq_true, List.isEmpty_iff, and_assoc] at stays
    exact .inr ⟨stays, rfl⟩

theorem pass_pendingOut (writer : Writer Socket) :
    (writer.pass outlet).out.pendingOut = (writer.pushed outlet).1.pendingOut :=
  (finish_pending outlet _ _).1

theorem solid_step {writer : Writer Socket} (solid : writer.out.Solid)
    (queued : writer.Queued (· ≠ [])) (action : Action Socket) :
    (writer.step outlet action).out.Solid := by
  cases action with
  | write | shutdown | evolve => exact solid
  | pass =>
    intro chunk member
    rw [Writer.step, pass_pendingOut] at member
    exact (Outgoing.push_spec outlet _ _ _).solid.mpr (taken_solid solid queued) chunk member

theorem bounded_step {writer : Writer Socket}
    (below : writer.out.pendingOutLen < pendingOutCap + longest)
    (queued : writer.Queued (·.length ≤ longest)) (action : Action Socket) :
    (writer.step outlet action).out.pendingOutLen < pendingOutCap + longest := by
  cases action with
  | write | shutdown | evolve => exact below
  | pass =>
    have taken := Outgoing.ingest_bounded below queued
    have lighter := (Outgoing.push_spec outlet
      (writer.taken.1.pendingOut.flatten.length + 1) writer.taken.1 writer.socket).lighter
    have finished : (writer.pass outlet).out.pendingOutLen =
        (writer.pushed outlet).1.pendingOutLen :=
      (finish_pending outlet _ _).2
    rw [Writer.step, finished]
    exact Nat.lt_of_le_of_lt lighter taken

end Chunks

/-! ## Runs -/

/-- What holds after any sequence of actions. -/
structure Carried (past : List (Action Socket)) (writer : Writer Socket) : Prop where
  inOrder : writer.out.handed <+: writer.link.written
  counted : writer.out.pendingOutLen = (writer.out.pendingOut.map List.length).sum
  bounded : ∀ longest, (∀ buf, .write buf ∈ past → buf.length ≤ longest) →
    writer.out.pendingOutLen < pendingOutCap + longest
  closes : writer.out.closed = true →
    writer.link.shut = true ∧ writer.out.handed = writer.link.written

/-- What a pass from a state achieves: it leaves nothing pending that the socket
has room for, and closes a socket that can send once all is handed over. -/
structure Prompt (writer : Writer Socket) : Prop where
  flushes : outlet.hasRoom (writer.pass outlet).socket = false ∨
    (writer.pass outlet).out.pendingOut = []
  closes : writer.link.shut = true → (writer.pass outlet).out.handed = writer.link.written →
    outlet.canSend (writer.pushed outlet).2 = true → (writer.pass outlet).out.closed = true

/-- No write is empty, and a pass that finds a shutdown in the queue finds fewer
bytes pending and queued than the cap. -/
def Flowing (writer : Writer Socket) : Action Socket → Prop
  | .write buf => buf ≠ []
  | .pass => .shutdown ∈ writer.link.fromApp →
      writer.out.pendingOutLen + (queuedBytes writer.link.fromApp).length < pendingOutCap
  | _ => True

instance (writer : Writer Socket) : (action : Action Socket) → Decidable (writer.Flowing action)
  | .write buf => inferInstanceAs (Decidable (buf ≠ []))
  | .pass => inferInstanceAs (Decidable (_ → _))
  | .shutdown => isTrue trivial
  | .evolve _ => isTrue trivial

section Runs

variable (holder : Holder) (socket : Socket)

theorem intact_run (final : Execution.Guarded (step outlet) Final (start holder socket) actions) :
    (Execution.run (step outlet) (start holder socket) actions).Intact :=
  run_history (step outlet) (fun _ writer => writer.Intact) (Intact.start holder socket)
    (fun _ _ intact final => intact.step outlet final) actions final

theorem writes_of_mem (written : ∀ buf, .write buf ∈ actions → test buf) :
    Execution.Guarded (step outlet) (fun _ => Writes test) (start holder socket) actions := by
  intro past action later split
  cases action with
  | write buf => exact written buf (by simp [split])
  | shutdown | pass | evolve => trivial

theorem bounded_run {longest : Nat} (short : ∀ buf, .write buf ∈ actions → buf.length ≤ longest) :
    (Execution.run (step outlet) (start holder socket) actions).out.pendingOutLen
      < pendingOutCap + longest := by
  have written := writes_of_mem outlet holder socket short
  refine (run_history (step outlet) (fun _ writer => writer.Queued (·.length ≤ longest) ∧
      writer.out.pendingOutLen < pendingOutCap + longest)
    ⟨Queued.start holder socket, ?_⟩ ?_ actions written).2
  · exact Nat.lt_add_right longest (Nat.mul_pos (by decide) (by decide))
  · intro past action both writes
    exact ⟨both.1.step outlet writes, bounded_step outlet both.2 both.1 action⟩

theorem solid_run (flowing : Execution.Guarded (step outlet) Flowing
      (start holder socket) actions) :
    (Execution.run (step outlet) (start holder socket) actions).Queued (· ≠ []) ∧
      (Execution.run (step outlet) (start holder socket) actions).out.Solid := by
  refine run_history (step outlet) (fun _ writer => writer.Queued (· ≠ []) ∧ writer.out.Solid)
    ⟨Queued.start holder socket, Solid.start holder socket⟩ ?_ actions flowing
  intro past action both flows
  refine ⟨both.1.step outlet ?_, solid_step outlet both.2 both.1 action⟩
  cases action with
  | write buf => exact flows
  | shutdown | pass | evolve => trivial

end Runs

/-- Where the writes flow, a pass takes up the shutdown that it finds. -/
theorem wants_of_left {writer : Writer Socket} (flows : writer.Flowing .pass)
    (left : .shutdown ∈ writer.taken.2) : (writer.pushed outlet).1.wantClose = true := by
  have queued := mem_of_left left
  rcases writer.out.ingest_spec writer.link.fromApp with ⟨taken, _, spec, reached⟩
  have wants := (Outgoing.push_spec outlet
    (writer.taken.1.pendingOut.flatten.length + 1) writer.taken.1 writer.socket).wants
  exact wants.trans (spec.wants.mpr (.inr ((reached _).mpr (.of_mem queued (flows queued)))))

theorem prompt_of_solid {writer : Writer Socket} (intact : writer.Intact)
    (queued : writer.Queued (· ≠ [])) (solid : writer.out.Solid)
    (flows : writer.Flowing .pass) : writer.Prompt outlet := by
  have pending := pass_pendingOut outlet writer
  have takenSolid := taken_solid solid queued
  have pushedSolid : (writer.pushed outlet).1.Solid :=
    (Outgoing.push_spec outlet _ _ _).solid.mpr takenSolid
  have after := intact.pass outlet
  constructor
  · rcases Outgoing.push_flushes outlet (Nat.lt_succ_self _) takenSolid with
      full | nothing
    · rcases finish_cases outlet (writer.pushed outlet).1
        (writer.pushed outlet).2 with ⟨closing, _⟩ | ⟨_, same⟩
      · right
        rw [pending]
        exact closing.2.1
      · left
        change outlet.hasRoom (writer.pushed outlet).2 = false at full
        change outlet.hasRoom ((writer.pushed outlet).1.finish outlet
          (writer.pushed outlet).2).2 = false
        rw [same]
        exact full
    · right
      rw [pending]
      exact nothing
  · intro shut all sends
    -- Nothing is pending or queued any more, so the shutdown was taken up.
    have nothing := after.written
    rw [show (writer.pass outlet).link.written = writer.link.written from rfl,
      ← all, append_assoc, self_eq_append_right,
      append_eq_nil_iff, pending] at nothing
    have empty := pushedSolid.eq_nil nothing.1
    have asked := after.asked.mp shut
    rcases finish_cases outlet (writer.pushed outlet).1
      (writer.pushed outlet).2 with ⟨_, closed⟩ | ⟨idle, same⟩
    · exact congrArg (·.1.closed) closed
    · have out : (writer.pass outlet).out = (writer.pushed outlet).1 := congrArg (·.1) same
      rcases asked with wants | behind
      · rw [out] at wants
        exact absurd ⟨wants, empty, sends⟩ idle
      · exact absurd ⟨wants_of_left outlet flows behind, empty, sends⟩ idle

/-- In every run with a final shutdown the writes are carried in order, within
the bound and closed only when all is handed over; where they flow, every pass
is prompt. -/
theorem writes_carried (holder : Holder) (socket : Socket) (actions : List (Action Socket))
    (final : Execution.Guarded (step outlet) Final (start holder socket) actions) : Carried actions
        (Execution.run (step outlet) (start holder socket) actions) ∧
      (Execution.Guarded (step outlet) Flowing (start holder socket) actions →
        ∀ past later, actions = past ++ .pass :: later →
          (Execution.run (step outlet) (start holder socket) past).Prompt outlet) := by
  constructor
  · have intact := intact_run outlet holder socket final
    constructor
    · rw [intact.written, append_assoc]
      exact prefix_append _ _
    · rw [intact.counted, length_flatten]
    · intro longest short
      exact bounded_run outlet holder socket short
    · exact intact.closed
  · intro flowing past later split
    rw [split] at final flowing
    have solid := solid_run outlet holder socket flowing.of_append
    exact prompt_of_solid outlet (intact_run outlet holder socket final.of_append) solid.1 solid.2
      (flowing past .pass later rfl)

end Writer

/-! ## Samples -/

namespace Sample

def established : Tcp.Socket where
  state := .established
  capacity := 64
  opened := true

def writer : Writer Tcp.Socket := .start .application established

end Sample

/-- Three bytes and a shutdown go out in one pass. -/
theorem Writer.writes_carried_sample :
    let early : List (Writer.Action Tcp.Socket) := [.write [1, 2], .write [3], .shutdown]
    let after := Execution.run (Writer.step tcpOutlet) Sample.writer
      (early ++ [.pass])
    Writer.Carried (early ++ [.pass]) after ∧
      (Execution.run (Writer.step tcpOutlet) Sample.writer early).Prompt tcpOutlet ∧
      after.out.closed = true ∧ after.out.handed = [1, 2, 3] := by
  have both := Writer.writes_carried tcpOutlet .application Sample.established
    [.write [1, 2], .write [3], .shutdown, .pass] (by decide)
  exact ⟨both.1, both.2 (by decide) [.write [1, 2], .write [3], .shutdown] [] rfl,
    by decide, by decide⟩

/-- An empty write stays at the front for good: the byte behind it is pending
though the socket has room, and the shutdown closes nothing. -/
theorem Writer.empty_write_stalls :
    let actions : List (Writer.Action Tcp.Socket) :=
      [.write [], .write [7], .shutdown, .pass, .pass]
    let after := Execution.run (Writer.step tcpOutlet) Sample.writer actions
    Execution.Guarded (Writer.step tcpOutlet) Writer.Final Sample.writer actions ∧
      tcpOutlet.hasRoom after.socket = true ∧
      after.out.pendingOut = [[], [7]] ∧ after.out.closed = false := by
  decide

end WarrenSdk.Net.Netstack
