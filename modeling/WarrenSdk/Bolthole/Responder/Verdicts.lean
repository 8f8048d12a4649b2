import WarrenSdk.Bolthole.Responder.Ownership

/-! # Where decrypted packets may go

What leaves for the exit, and what is answered at the gateway's own address. -/

namespace WarrenSdk.Bolthole

open List

namespace Responder

section Packets

/-! ## Toward the exit -/

/-- The packet asks a resolver. -/
def AsksResolver (packet : List UInt8) : Prop :=
  ∃ header, parseIp packet = .ok header ∧
    (header.protocol = protoUdp ∨ header.protocol = protoTcp) ∧
    header.l4Offset + 4 ≤ packet.length ∧ u16At packet (header.l4Offset + 2) = 53

/-- What may leave for the exit, but for the state of IPv6. -/
structure MayLeave (responder : Responder noise) (packet : List UInt8) (dst : IpAddr) : Prop where
  unicast : isUnicast dst = true ∧ isLinkLocal dst = false
  foreign : responder.plan.isGateway dst = false
  unowned : ∀ (id : PeerId) (peer : Peer noise),
    responder.peers[id]? = some peer → peer.owns dst = false
  unplanned : responder.plan.contains dst = false
  routable : isPrivate dst = false ∧ isTunnelPool dst = false ∨
    isTunnelGateway dst = true ∧ AsksResolver packet

theorem asksResolver_of_port (asks : isResolverPort packet) : AsksResolver packet := by
  unfold isResolverPort at asks
  split at asks
  · cases asks
  rename_i header parsed
  split at asks
  · cases asks
  rename_i carried
  unfold readPorts at asks
  by_cases fits : header.l4Offset + 4 ≤ packet.length
  · rw [if_pos fits] at asks
    refine ⟨header, parsed, ?_, fits, of_decide_eq_true asks⟩
    rcases not_and_or.mp carried with udp | tcp
    · exact .inl (not_not.mp udp)
    · exact .inr (not_not.mp tcp)
  · rw [if_neg fits] at asks
    cases asks

theorem not_linkLocal (unicast : isUnicast dst) : isLinkLocal dst = false := by
  cases dst with
  | v4 | v6 => simp_all [isUnicast, isLinkLocal]

/-- A packet is forwarded by the rules, and an IPv6 packet while IPv6 is
available, unless it asks the resolver of the exit. -/
theorem forward_cases {responder : Responder noise} (views : Views responder)
    (read : noise.dstAddress packet = some dst) (forwarded : responder.verdict packet = .forward) :
    responder.MayLeave packet dst ∧
      (dst.isIpv6 → dst ≠ .v6 tunnelGatewayV6 → responder.v6 = .available) := by
  simp only [verdict, read] at forwarded
  split at forwarded
  · cases forwarded
  rename_i unicast
  rw [Bool.not_eq_false] at unicast
  split at forwarded
  · split at forwarded <;> cases forwarded
  rename_i foreign
  cases matched : responder.routes.longestMatch dst with
  | some entry =>
    rw [matched] at forwarded
    simp only at forwarded
    split at forwarded <;> cases forwarded
  | none =>
    rw [matched] at forwarded
    simp only at forwarded
    have unowned : ∀ (id : PeerId) (peer : Peer noise),
        responder.peers[id]? = some peer → peer.owns dst = false := by
      intro id peer present
      rcases responder.routes.longestMatch_spec dst with ⟨_, uncovered⟩ | ⟨_, _, found, _⟩
      · apply Bool.eq_false_iff.mpr
        intro owns
        rcases owns_iff.mp owns with ⟨network, listed, covers⟩
        have routed := (views.routes network id).mpr
          ⟨peer.conf, confOf_eq_some.mpr ⟨peer, present, rfl⟩, listed⟩
        rw [uncovered network id routed] at covers
        cases covers
      · cases matched.symm.trans found
    split at forwarded
    · cases forwarded
    rename_i unplanned
    have rules : (isPrivate dst = false ∧ isTunnelPool dst = false ∨
          isTunnelGateway dst = true ∧ AsksResolver packet) ∧
        (dst.isIpv6 = true → dst ≠ .v6 tunnelGatewayV6 → responder.v6 = .available) := by
      split at forwarded
      · split at forwarded
        · rename_i asked
          rcases Bool.and_eq_true_iff.mp asked with ⟨gateway, port⟩
          refine ⟨.inr ⟨gateway, asksResolver_of_port port⟩, ?_⟩
          intro v6 other
          simp only [isTunnelGateway, other, decide_false, Bool.or_false,
            decide_eq_true_eq] at gateway
          rw [gateway] at v6
          cases v6
        · cases forwarded
      rename_i unpooled
      split at forwarded
      · cases forwarded
      rename_i routable
      refine ⟨.inl ⟨Bool.not_eq_true _ ▸ routable, Bool.not_eq_true _ ▸ unpooled⟩, ?_⟩
      intro v6 _
      rw [if_pos v6] at forwarded
      cases state : responder.v6 with
      | available => rfl
      | noAssignment | budgetTooSmall =>
        rw [state] at forwarded
        cases forwarded
    exact ⟨{
      unicast := ⟨unicast, not_linkLocal unicast⟩
      foreign := Bool.not_eq_true _ ▸ foreign
      unowned := unowned
      unplanned := Bool.not_eq_true _ ▸ unplanned
      routable := rules.1 }, rules.2⟩

/-- What is forwarded in a run is permitted to the last point exactly if it is
not a question to the exit's resolver over an IPv6 that is not available. -/
theorem forward_permitted_iff (engine : ChecksumEngine)
    {opening : noise.Ambient} {conf : GatewayConf} {plan : PeerPlan}
    {options : ResponderOptions} {indexes : IndexGen} {start : Responder noise}
    (built : withIndexes opening conf plan options indexes = .ok start)
    (past : List (Op noise))
    (read : noise.dstAddress packet = some dst)
    (forwarded : (run engine start past).verdict packet = .forward) :
    (run engine start past).MayLeave packet dst ∧
        (dst.isIpv6 = true → (run engine start past).v6 = .available) ↔
      (dst = .v6 tunnelGatewayV6 → (run engine start past).v6 = .available) := by
  have sound := run_sound engine (withIndexes_sound built) past
  rcases forward_cases sound.views read forwarded with ⟨leaves, available⟩
  constructor
  · rintro ⟨_, always⟩ rfl
    exact always rfl
  · intro resolver
    refine ⟨leaves, ?_⟩
    intro v6
    by_cases asked : dst = .v6 tunnelGatewayV6
    · exact resolver asked
    · exact available v6 asked

end Packets

/-! ### A question to the resolver -/

namespace Sample

/-- The protocol library with destinations that are read from packets. -/
abbrev reading : Noise :=
  { Sample.noise with
    dstAddress := fun packet => (parseIp packet).toOption.map IpHeader.dst }

def alone : Responder reading := (vacant () (conf []) .default {} (.fromSeed 2 0)).rebuildRoutes

def question : List UInt8 :=
  [0x60, 0, 0, 0, 0, 8, 17, 64] ++ (⟨0xfd776172726500000000000000000002⟩ : Ipv6Addr).octets ++
    tunnelGatewayV6.octets ++ [0x82, 0x35, 0, 53, 0, 8, 0, 0]

end Sample

theorem question_read : Sample.reading.dstAddress Sample.question = some (.v6 tunnelGatewayV6) := by
  decide +kernel

/-- The question leaves while the epoch has no IPv6 address. -/
theorem question_forwarded : (Sample.reading.dstAddress Sample.question).any IpAddr.isIpv6 = true ∧
      (Sample.alone.setIpv6 .noAssignment).v6 ≠ .available ∧
      (Sample.alone.setIpv6 .noAssignment).verdict Sample.question =
        .forward :=
  ⟨by decide +kernel, nofun, rfl⟩

theorem forward_permitted_iff_available :
    (run Sample.engine Sample.alone []).MayLeave Sample.question (.v6 tunnelGatewayV6) :=
  ((forward_permitted_iff Sample.engine
    (rfl : withIndexes () (Sample.conf []) .default {} (.fromSeed 2 0) =
      .ok Sample.alone) [] question_read rfl).mpr fun _ => rfl).1

/-! ## At the gateway's own address -/

/-- An unfragmented echo request of its own family, with a complete header and
from a unicast source. -/
def AnswerableEcho (packet : List UInt8) : Prop :=
  ∃ header, parseIp packet = .ok header ∧
    header.protocol = (if header.isV6 then protoIcmpv6 else protoIcmpv4) ∧ (match header.src with
      | .v4 src => unicastV4 src = true
      | .v6 src => unicastV6 src = true) ∧
    header.l4Offset + 8 ≤ header.totalLen ∧
    byteAt packet header.l4Offset =
      if header.isV6 then icmpv6EchoRequest else icmpv4EchoRequest

section Echoes

theorem isEchoRequest_of_answerable (echo : AnswerableEcho packet) : isEchoRequest packet := by
  rcases echo with ⟨header, parsed, _, _, complete, kind⟩
  have declared := (parse_bounds parsed).declared
  have fits : header.l4Offset + 4 ≤ packet.length := by omega
  simp only [isEchoRequest, parsed, readIcmp, fits, if_true, kind]
  cases header.isV6 <;> rfl

/-- A message is replied to if it is complete and of the right kind, when a
reply of its length can be framed. -/
theorem reply_isSome (bounds : header.Bounds packet)
    {frame : List UInt8 → Option (List UInt8)} (framed : ∀ body : List UInt8,
      body.length = header.totalLen - header.l4Offset → (frame body).isSome) :
    ((icmpMessage packet header).bind fun msg =>
      (echoReplyBody request reply msg).bind frame).isSome ↔
      header.l4Offset + 8 ≤ header.totalLen ∧ byteAt packet header.l4Offset = request := by
  rw [icmpMessage, if_pos ⟨bounds.transport, bounds.declared⟩, Option.bind_some, echoReplyBody]
  have declared := bounds.declared
  have transport := bounds.transport
  have length : (Bytes.slice packet header.l4Offset (header.totalLen - header.l4Offset)).length =
      header.totalLen - header.l4Offset := Bytes.length_slice (by omega)
  by_cases complete : header.l4Offset + 8 ≤ header.totalLen
  · have kind : byteAt (Bytes.slice packet header.l4Offset (header.totalLen - header.l4Offset)) 0 =
        byteAt packet header.l4Offset := by
      rw [byteAt, byteAt, getD_eq_getElem?_getD,
        getD_eq_getElem?_getD, Bytes.getElem?_slice, if_pos (by omega), Nat.add_zero]
    rw [length, kind]
    by_cases asked : byteAt packet header.l4Offset = request
    · rw [if_neg (not_or.mpr ⟨by omega, not_not.mpr asked⟩), Option.bind_some]
      refine iff_of_true (framed _ ?_) ⟨complete, asked⟩
      rw [Bytes.length_splice, Bytes.length_splice, length]
      · simp only [length_cons, length_nil]
        omega
      · rw [Bytes.length_splice] <;> simp only [length_cons, length_nil] <;> omega
    · rw [if_pos (.inr asked)]
      exact iff_of_false (by simp) fun both => asked both.2
  · rw [if_pos (.inl (by omega))]
    exact iff_of_false (by simp) fun both => complete both.1

theorem guarded_isSome {wanted : UInt8} {built : Option (List UInt8)} :
    (if protocol ≠ wanted ∨ unicast = false then none else built).isSome ↔
      protocol = wanted ∧ unicast ∧ built.isSome := by
  by_cases same : protocol = wanted
  · cases unicast <;> simp [same]
  · simp [same]

/-- The builder of a packet's family answers exactly these requests. -/
theorem buildAnswer_echo (engine : ChecksumEngine) (plan : PeerPlan) :
    (buildAnswer engine plan .echo packet).isSome ↔ AnswerableEcho packet := by
  rw [buildAnswer]
  cases parsed : parseIp packet with
  | error refusal =>
    simp only [buildEchoReplyV4, buildEchoReplyV6, parsed, ite_self]
    refine iff_of_false nofun ?_
    rintro ⟨header, found, _⟩
    cases parsed.symm.trans found
  | ok header =>
    have shape : AnswerableEcho packet ↔
        header.protocol = (if header.isV6 then protoIcmpv6 else protoIcmpv4) ∧
        (match header.src with
          | .v4 src => unicastV4 src = true
          | .v6 src => unicastV6 src = true) ∧
        header.l4Offset + 8 ≤ header.totalLen ∧
        byteAt packet header.l4Offset =
          if header.isV6 then icmpv6EchoRequest else icmpv4EchoRequest := by
      constructor
      · rintro ⟨other, found, rest⟩
        cases parsed.symm.trans found
        exact rest
      · exact fun rest => ⟨header, parsed, rest⟩
    have bounds := parse_bounds parsed
    have family := bounds.family
    have room := bounds.header
    rw [shape]
    rcases parseIp_family parsed with ⟨four, v4, size⟩ | ⟨other, v6, offset, size⟩
    · rw [if_pos four, buildEchoReplyV4, parsed]
      rcases header with ⟨src, dst, protocol, start, total⟩
      cases src with
      | v6 => cases v4
      | v4 src =>
        cases dst with
        | v6 => cases family
        | v4 dst =>
          refine guarded_isSome.trans (and_congr_right fun _ => and_congr_right fun _ => ?_)
          apply reply_isSome bounds
          intro body length
          have start : 20 ≤ start := room
          simp only at length size
          simp [frameV4, ipv4MinHeader, show ¬ 65535 < 20 + body.length by omega]
    · rw [if_neg other, buildEchoReplyV6, parsed]
      rcases header with ⟨src, dst, protocol, start, total⟩
      cases src with
      | v4 => cases v6
      | v6 src =>
        cases dst with
        | v4 => cases family
        | v6 dst =>
          refine guarded_isSome.trans (and_congr_right fun _ => and_congr_right fun _ => ?_)
          apply reply_isSome bounds
          intro body length
          simp only at length size offset
          simp [frameV6, show ¬ 65535 < body.length by omega]

end Echoes

/-- A packet to the gateway's own address is answered exactly if it is an echo
request that is replied to, and otherwise dropped at no expense. -/
structure AnswersEchoes (engine : ChecksumEngine) (responder : Responder noise)
    (ambient : noise.Ambient) (id : PeerId) (len : Nat) (now : Instant)
    (scratch : List UInt8) : Prop where
  echo : responder.verdict (scratch.take len) = .answer .echo ↔ AnswerableEcho (scratch.take len)
  built : AnswerableEcho (scratch.take len) ↔
    (buildAnswer engine responder.plan .echo (scratch.take len)).isSome = true
  dropped : ¬ AnswerableEcho (scratch.take len) →
    responder.deliver engine ambient id len now scratch =
      (.dropped .selfDestination, responder.noteFor id .selfDestination) ∧
    (responder.noteFor id .selfDestination).answers = responder.answers

/-- The gateway answers echoes exactly when its address passes for a unicast
one and no other packet has the byte of an echo request where it is looked
for. -/
theorem answersEchoes_iff (engine : ChecksumEngine)
    (responder : Responder noise) (ambient : noise.Ambient) (id : PeerId)
    (len : Nat) (now : Instant) (scratch : List UInt8) {dst : IpAddr}
    (read : noise.dstAddress (scratch.take len) = some dst)
    (gateway : responder.plan.isGateway dst = true) :
    AnswersEchoes engine responder ambient id len now scratch ↔
      isUnicast dst = true ∧ (isEchoRequest (scratch.take len) = true →
        AnswerableEcho (scratch.take len)) := by
  have verdict : responder.verdict (scratch.take len) =
      if isUnicast dst = false then .drop .nonUnicast
      else if isEchoRequest (scratch.take len) then .answer .echo
      else .drop .selfDestination := by
    simp only [Responder.verdict, read, gateway, if_true]
  constructor
  · intro answers
    have unicast : isUnicast dst = true := by
      rw [← Bool.not_eq_false]
      intro other
      rw [if_pos other] at verdict
      have refused : ¬ AnswerableEcho (scratch.take len) := by
        intro echo
        cases verdict.symm.trans (answers.echo.mpr echo)
      have dropped := (answers.dropped refused).1
      rw [deliver, verdict] at dropped
      cases congrArg Prod.fst dropped
    refine ⟨unicast, ?_⟩
    intro asked
    rw [unicast, if_neg nofun, if_pos asked] at verdict
    exact answers.echo.mp verdict
  · rintro ⟨unicast, genuine⟩
    rw [unicast, if_neg nofun] at verdict
    refine ⟨?_, (buildAnswer_echo engine _).symm, ?_⟩
    · rw [verdict]
      constructor
      · intro answered
        apply genuine
        by_contra other
        rw [if_neg other] at answered
        cases answered
      · intro echo
        rw [if_pos (isEchoRequest_of_answerable echo)]
    · intro refused
      rw [deliver, verdict, if_neg (mt genuine refused)]
      exact ⟨rfl, rfl⟩

/-! ### A datagram that passes for an echo -/

/-- A UDP datagram to the gateway from port 2048. -/
def Sample.lookalike : List UInt8 :=
  [0x45, 0, 0, 28, 0, 0, 0, 0, 64, 17, 0, 0, 10, 67, 0, 2, 10, 67, 0, 1, 8, 0, 0, 9, 0, 8, 0, 0]

def Sample.ping : List UInt8 :=
  [0x45, 0, 0, 28, 0, 0, 0, 0, 64, 1, 0, 0, 10, 67, 0, 2, 10, 67, 0, 1, 8, 0, 0, 0, 0, 7, 0, 1]

/-- The datagram spends a token of the answer budget, and no reply to it can be
built. -/
theorem lookalike_answered : Sample.alone.verdict Sample.lookalike = .answer .echo ∧
      buildAnswer Sample.engine .default .echo Sample.lookalike = none ∧
      (Sample.alone.deliver Sample.engine () ⟨0⟩ 28 0
        Sample.lookalike).2.answers.tokens < Sample.alone.answers.tokens :=
  ⟨rfl, by decide +kernel, by decide +kernel⟩

theorem answersEchoes_iff_ping :
    AnswersEchoes Sample.engine Sample.alone () ⟨0⟩ 28 0 Sample.ping := by
  have read : Sample.reading.dstAddress (Sample.ping.take 28) =
      some (.v4 (.ofOctets [10, 67, 0, 1])) := by decide +kernel
  apply (answersEchoes_iff Sample.engine Sample.alone () ⟨0⟩ 28 0 Sample.ping
    read (by decide +kernel)).mpr
  refine ⟨by decide +kernel, fun _ => ?_⟩
  exact (buildAnswer_echo Sample.engine .default).mp (by decide +kernel)

end Responder

end WarrenSdk.Bolthole
