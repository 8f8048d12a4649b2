import WarrenSdk.Bolthole.Napt.Changes

/-! # Pinned forwards

A forward stays until the operator removes or replaces it, as long as no sweep
meets it a day after its last packet with an entry of the heap that is due. The
heap gets such an entry when a TCP flow through the forward closes, and the
sweep then takes the forward like any other mapping.

Forwards are also the only mappings that can stand on a port of the control
range, because a forward outside the pool is not checked against it. -/

namespace WarrenSdk.Bolthole.Napt

open Execution

def Installed (nat : Napt) (id : MappingId) (dnat : StaticDnat) : Prop :=
  ∃ mapping, nat.mappings.get id = some mapping ∧ mapping.pinned = true ∧
    mapping.proto = dnat.proto ∧ mapping.internal = dnat.target ∧
    mapping.externalPort = dnat.externalPort

/-- An operation names the forward in order to remove it, or is accepted as a
forward for the same target or the same port. -/
def Supersedes (dnat : StaticDnat) (nat : Napt) : Op → Prop
  | .removeStatic proto externalPort v6 =>
    proto = dnat.proto ∧ externalPort = dnat.externalPort ∧ v6 = dnat.target.isIpv6
  | .addStatic other _ =>
    nat.Accepts other ∧ other.proto = dnat.proto ∧ (other.target = dnat.target ∨
        (other.target.isIpv6 = dnat.target.isIpv6 ∧ other.externalPort = dnat.externalPort))
  | _ => False

/-- A sweep that finds a due entry of the heap for the forward comes within a
day of the forward's last packet. -/
def SweepsInTime (id : MappingId) (nat : Napt) : Op → Prop
  | .sweep now => ∀ mapping deadline, nat.mappings.get id = some mapping →
    (deadline, id) ∈ nat.expiry → deadline ≤ now → now < mapping.lastSeen + Duration.fromSecs 86400
  | _ => True

variable (engine : ChecksumEngine) {nat : Napt} {id : MappingId}

theorem addStatic_installs (coherent : nat.Coherent)
    (accepted : (nat.addStatic dnat now).1 = .ok id) :
    Installed (nat.addStatic dnat now).2 id dnat := by
  rcases addStatic_cases coherent dnat now with
    ⟨_, refusal, equal⟩ | ⟨_, owner, reserved, _, isReserved, equal⟩
  · rw [equal] at accepted
    cases accepted
  · rw [equal] at accepted ⊢
    cases accepted
    have present := table_addStatic coherent isReserved owner now ⟨nat.nextId⟩
    rw [if_pos rfl] at present
    rcases get_of_table present with ⟨mapping, found, same⟩
    exact ⟨mapping, found, congrArg Mapping.pinned same,
      congrArg Mapping.proto same, congrArg Mapping.internal same,
      congrArg Mapping.externalPort same⟩

theorem Ends.of_pinned (present : nat.mappings.get id = some mapping)
    (pinned : mapping.pinned) (proto : mapping.proto = dnat.proto)
    (internal : mapping.internal = dnat.target)
    (externalPort : mapping.externalPort = dnat.externalPort)
    (ends : Ends nat id mapping.unlinked op) :
    Supersedes dnat nat op ∨ ¬ SweepsInTime id nat op := by
  cases ends with
  | epoch dynamic | flushed dynamic | evicted dynamic =>
    exact absurd (dynamic.symm.trans pinned) (by simp)
  | unpinned _ key =>
    rw [Mapping.unlinked_inboundKey, Mapping.inboundKey, proto, internal, externalPort] at key
    simp only [Prod.mk.injEq] at key
    exact .inl ⟨key.1.symm, key.2.2.symm, key.2.1.symm⟩
  | displaced accepted displaces =>
    rename_i other now
    simp only [Displaces, Mapping.outboundKey, Mapping.inboundKey,
      Mapping.unlinked_proto, Mapping.unlinked_internal,
      Mapping.unlinked_externalPort, proto, internal, externalPort,
      Bool.or_eq_true, decide_eq_true_eq, Prod.mk.injEq] at displaces
    left
    rcases displaces with ⟨sameProto, ip, port⟩ | ⟨sameProto, family, port⟩
    · exact ⟨accepted, sameProto.symm, .inl (SocketAddr.ext ip.symm port.symm)⟩
    · exact ⟨accepted, sameProto.symm, .inr ⟨family.symm, port.symm⟩⟩
  | swept due =>
    right
    intro inTime
    rcases due with ⟨passed, deadline, isDue, member⟩
    have early := inTime mapping deadline present member isDue
    rw [deadlineOf, Mapping.unlinked_pinned, if_pos pinned] at passed
    exact absurd early (Nat.not_lt.mpr passed)

theorem Installed.step (sound : nat.Sound) (installed : Installed nat id dnat)
    (stays : ¬ Supersedes dnat nat op) (inTime : SweepsInTime id nat op) :
    Installed (nat.step engine op) id dnat := by
  rcases installed with ⟨mapping, present, pinned, proto, internal, externalPort⟩
  have lasts : ¬ Ends nat id mapping.unlinked op := by
    intro ends
    rcases ends.of_pinned present pinned proto internal externalPort with supersedes | late
    · exact stays supersedes
    · exact late inTime
  rcases step_keeps engine sound (table_of_get present) lasts with ⟨kept, keptPresent, same⟩
  rcases get_of_table keptPresent with ⟨linked, found, rfl⟩
  exact ⟨linked, found, same.pinned.trans pinned, same.proto.trans proto,
    same.internal.trans internal, same.externalPort.trans externalPort⟩

/-- A forward that was installed is still there, with its port and target,
after any operations that do not supersede it and whose sweeps are in time. -/
theorem forward_stays (engine : ChecksumEngine) (config : NatConfig)
    (before later : List Op) (dnat : StaticDnat) (now : Instant) (id : MappingId)
    (accepted : ((run engine config before).addStatic dnat now).1 = .ok id)
    (stays : Execution.Guarded (step engine) (fun nat op => ¬ Supersedes dnat nat op)
      (run engine config (before ++ [.addStatic dnat now])) later)
    (inTime : Execution.Guarded (step engine) (SweepsInTime id)
      (run engine config (before ++ [.addStatic dnat now])) later) :
    Installed (run engine config (before ++ .addStatic dnat now :: later)) id
      dnat := by
  have atFirst : Installed (run engine config (before ++ [.addStatic dnat now])) id dnat := by
    rw [run_snoc]
    exact addStatic_installs (run_coherent engine config before) accepted
  have whole : run engine config (before ++ .addStatic dnat now :: later) =
      Execution.run (step engine) (run engine config (before ++ [.addStatic dnat now])) later := by
    rw [run, run, ← run_append]
    simp
  rw [whole]
  refine (run_history (step engine) (fun _ nat => nat.Sound ∧ Installed nat id dnat) ?_ ?_ later
    (stays.and _ inTime)).2
  · exact ⟨run_sound engine config _, atFirst⟩
  · rintro past op ⟨sound, installed⟩ ⟨kept, swept⟩
    exact ⟨sound.step engine op, installed.step engine sound kept swept⟩

/-- An hour after a connection to the forward was reset, a sweep leaves it. -/
theorem forward_stays_reset : Installed (run Sample.engine Sample.config (Sample.start ++
      [.addStatic Sample.forward 10, Sample.reset,
        .sweep (Duration.fromSecs 3600)])) ⟨1⟩ Sample.forward := by
  refine forward_stays Sample.engine Sample.config Sample.start _
    Sample.forward 10 ⟨1⟩ (by decide +kernel) ?_ ?_
  · refine Execution.Guarded.cons _ (fun supersedes => supersedes) ?_
    refine Execution.Guarded.cons _ (fun supersedes => supersedes) ?_
    exact Execution.Guarded.nil _ _
  · refine Execution.Guarded.cons _ trivial ?_
    refine Execution.Guarded.cons _ ?_ (Execution.Guarded.nil _ _)
    intro mapping deadline present _ _
    have seen : ((run Sample.engine Sample.config (Sample.start ++
        [.addStatic Sample.forward 10, Sample.reset])).mappings.get ⟨1⟩).map
        Mapping.lastSeen = some 20 := by
      decide +kernel
    have found : (run Sample.engine Sample.config (Sample.start ++
        [.addStatic Sample.forward 10, Sample.reset])).mappings.get ⟨1⟩ = some mapping := present
    rw [found] at seen
    rw [Option.some.inj seen]
    decide

/-- Two days after a connection to the forward was reset, a sweep removes the
forward, although nobody removed or replaced it. -/
theorem forward_swept : ((run Sample.engine Sample.config Sample.start).addStatic Sample.forward
      10).1 = .ok ⟨1⟩ ∧
    (run Sample.engine Sample.config (Sample.start ++ [.addStatic Sample.forward 10, Sample.reset,
        .sweep (Duration.fromSecs 172800)])).mappings.get ⟨1⟩ = none := by
  decide +kernel

/-! ## The control range -/

/-- An operation asks for no TCP or UDP forward from the control range to a
target that a peer owns. -/
def SparesControlRange (nat : Napt) : Op → Prop
  | .addStatic dnat _ => dnat.proto ≠ .icmp → nat.ownership.ownerOf dnat.target.ip ≠ none →
    isControl dnat.externalPort = false
  | _ => True

def ControlRangeFree (nat : Napt) : Prop :=
  ∀ id mapping, nat.table id = some mapping → mapping.proto ≠ .icmp →
    isControl mapping.externalPort = false

/-- The port spaces of TCP and UDP leave the control range out. -/
theorem run_contains_control (config : NatConfig) (ops : List Op) (v6 : Bool)
    (transport : proto ≠ .icmp) (control : isControl port) :
    ((run engine config ops).ports v6 proto).contains port = false := by
  rw [run_contains]
  cases proto with
  | tcp | udp => exact PortAllocator.contains_of_isControl rfl control
  | icmp => exact absurd rfl transport

theorem run_controlRangeFree (config : NatConfig) (ops : List Op)
    (guarded : Execution.Guarded (step engine) SparesControlRange (new config) ops) :
    (run engine config ops).ControlRangeFree := by
  refine run_history (step engine) (fun _ nat => nat.ControlRangeFree) ?_ ?_ ops guarded
  · intro id mapping present
    exact absurd present (by simp [table_new])
  · intro past op free spares id mapping present transport
    have change := step_change engine (run_sound engine config past) op id
    generalize before : (run engine config past).table id = entry at change
    have after : (Napt.step engine (run engine config past) op).table id = some mapping := present
    rw [after] at change
    cases change with
    | same => exact free id mapping before transport
    | opened read owner next known marked =>
      have same := Mapping.SameIdentity.of_observe marked
      rw [Bool.eq_false_iff]
      intro control
      rw [same.externalPort] at control
      rw [same.proto] at transport
      exact absurd (known.symm.trans (run_contains_control engine config past _ transport control))
        (by simp)
    | sent read owner owned key marked | received read key admitted marked =>
      have same := Mapping.SameIdentity.of_observe marked
      rw [same.proto] at transport
      rw [same.externalPort]
      exact free id _ before transport
    | pinned accepted owned next => exact spares transport accepted.1

/-- Unless a forward is asked for there, no mapping of TCP or UDP ever stands
on a port of the control range, and no packet for such a port is delivered to a
peer. -/
theorem control_range_spared (engine : ChecksumEngine) (config : NatConfig) (ops : List Op)
    (guarded : Execution.Guarded (step engine) SparesControlRange (new config) ops) :
    let nat := run engine config ops
    (∀ id mapping, nat.mappings.get id = some mapping →
      mapping.proto ≠ .icmp → isControl mapping.externalPort = false) ∧
    (∀ proto v6 port, proto ≠ .icmp → isControl port = true →
      nat.inbound.get (proto, v6, port) = none) ∧
    ∀ pkt now hdr flow, readFlow pkt .destination = some (hdr, flow) →
      flow.proto ≠ .icmp → isControl flow.port = true →
      ∃ refusal, (nat.translateDownlink engine pkt now).1 = .error refusal := by
  intro nat
  have free := run_controlRangeFree engine config ops guarded
  have coherent := run_coherent engine config ops
  have unused : ∀ proto v6 port, proto ≠ .icmp → isControl port = true →
      nat.inbound.get (proto, v6, port) = none := by
    intro proto v6 port transport control
    cases found : nat.inbound.get (proto, v6, port) with
    | none => rfl
    | some id =>
      rcases (coherent.inbound _ id).mp found with ⟨mapping, present, key⟩
      cases key
      rw [free id mapping present transport] at control
      cases control
  refine ⟨?_, unused, ?_⟩
  · intro id mapping present transport
    exact free id mapping.unlinked (table_of_get present) transport
  · intro pkt now hdr flow read transport control
    cases outcome : (nat.translateDownlink engine pkt now).1 with
    | error refusal => exact ⟨refusal, rfl⟩
    | ok result =>
      rcases translateDownlink_delivered engine read outcome with ⟨_, _, _, found, _⟩
      rw [unused flow.proto hdr.isV6 flow.port transport control] at found
      cases found

/-- A packet for a control port is refused in the small gateway. -/
theorem control_range_spared_ask : (run Sample.engine Sample.config
      (Sample.start ++ [Sample.ask])).inbound.get (.udp, false, 61000) =
      none := by
  refine (control_range_spared Sample.engine Sample.config
    (Sample.start ++ [Sample.ask]) ?_).2.1 .udp false 61000 (by decide) (by decide)
  refine Execution.Guarded.cons _ trivial ?_
  refine Execution.Guarded.cons _ trivial ?_
  exact Execution.Guarded.cons _ trivial (Execution.Guarded.nil _ _)

/-- A forward from a control port is accepted, and hands the control plane's
datagrams to the peer. -/
theorem control_range_forwarded :
    let nat := run Sample.engine Sample.config (Sample.start ++
      [.addStatic ⟨.udp, 61000, ⟨.v4 (Sample.host 1), 53⟩⟩ 10])
    isControl 61000 = true ∧
    nat.inbound.get (.udp, false, 61000) = some ⟨1⟩ ∧
    (nat.translateDownlink Sample.engine (Sample.udp 50 99 53 61000) 20).1 =
      .ok ⟨Sample.first, .v4 (Sample.host 1)⟩ := by
  decide +kernel

end WarrenSdk.Bolthole.Napt
