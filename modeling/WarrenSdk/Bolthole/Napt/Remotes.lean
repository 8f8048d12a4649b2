import WarrenSdk.Bolthole.Napt.Effects

/-! # The remotes a mapping tracks

A packet adds the remote it names and can push out one other, when the mapping
already tracks as many as it may. -/

namespace WarrenSdk.Bolthole

open List

theorem advance_endpoint (flow : RemoteFlow) (proto : MapProto) (flags : UInt8) (uplink : Bool) :
    (advance flow proto flags uplink).1.addr = flow.addr ∧
      (advance flow proto flags uplink).1.port = flow.port := by
  cases proto with
  | tcp =>
    simp only [advance]
    split
    · exact ⟨rfl, rfl⟩
    · constructor
      · repeat' split
        all_goals rfl
      · repeat' split
        all_goals rfl
  | udp =>
    cases uplink with
    | true | false => exact ⟨rfl, rfl⟩
  | icmp => exact ⟨rfl, rfl⟩

theorem oldestRemote_some (oldest : oldestRemote remotes = some position) :
    ∃ flow, remotes[position]? = some flow := by
  rcases Option.bind_eq_some_iff.mp oldest with ⟨_, _, found⟩
  rw [List.findIdx?_eq_some_iff_getElem] at found
  rcases found with ⟨inside, _⟩
  exact ⟨_, List.getElem?_eq_getElem inside⟩

namespace Mapping

def Tracks (mapping : Mapping) (addr : IpAddr) (port : UInt16) : Prop :=
  ∃ flow ∈ mapping.remotes, flow.addr = addr ∧ flow.port = port

theorem tracks_iff {mapping : Mapping} :
    mapping.Tracks addr port ↔ (mapping.remoteIndex addr port).isSome := by
  rw [remoteIndex, List.findIdx?_isSome, any_eq_true]
  simp [Tracks]

theorem forgetOldest_subset (mapping : Mapping) (cap : Nat) :
    mapping.forgetOldest cap ⊆ mapping.remotes := by
  unfold forgetOldest
  split
  · split
    · rename_i oldest
      rcases oldestRemote_some oldest with ⟨flow, found⟩
      exact fun _ member => mem_of_mem_swapRemove found member
    · exact fun _ member => member
  · exact fun _ member => member

variable {mapping : Mapping}

theorem observe_known (known : mapping.remoteIndex addr port = some position) :
    ∃ flow moved, mapping.remotes[position]? = some flow ∧ flow.addr = addr ∧ flow.port = port ∧
      moved.addr = addr ∧ moved.port = port ∧
      (mapping.observe cap addr port flags now uplink).1.remotes =
        mapping.remotes.set position moved := by
  have found := known
  rw [remoteIndex, List.findIdx?_eq_some_iff_getElem] at found
  rcases found with ⟨inside, test, _⟩
  simp only [Bool.and_eq_true, decide_eq_true_eq] at test
  have present := List.getElem?_eq_getElem inside
  have endpoint := advance_endpoint
    { mapping.remotes[position] with lastSeen := now } mapping.proto flags
    uplink
  refine ⟨_, (advance { mapping.remotes[position] with lastSeen := now }
    mapping.proto flags uplink).1, present, test.1, test.2,
    endpoint.1.trans test.1, endpoint.2.trans test.2, ?_⟩
  simp only [observe, known, present]

theorem observe_unknown (unknown : mapping.remoteIndex addr port = none) :
    ∃ added, added.addr = addr ∧ added.port = port ∧
      (mapping.observe cap addr port flags now uplink).1.remotes =
        mapping.forgetOldest cap ++ [added] := by
  have endpoint := advance_endpoint (newFlow mapping.proto addr port now) mapping.proto flags uplink
  refine ⟨_, endpoint.1, endpoint.2, ?_⟩
  simp only [observe, unknown]

theorem tracks_of_observe
    (tracks : (mapping.observe cap addr port flags now uplink).1.Tracks other otherPort) :
    mapping.Tracks other otherPort ∨ (other = addr ∧ otherPort = port) := by
  rcases tracks with ⟨flow, member, rfl, rfl⟩
  cases known : mapping.remoteIndex addr port with
  | none =>
    rcases observe_unknown known with ⟨added, sameAddr, samePort, remotes⟩
    rw [remotes] at member
    rcases mem_append.mp member with old | new
    · exact .inl ⟨flow, mapping.forgetOldest_subset cap old, rfl, rfl⟩
    · rw [mem_singleton.mp new]
      exact .inr ⟨sameAddr, samePort⟩
  | some position =>
    rcases observe_known known with ⟨_, moved, _, _, _, movedAddr, movedPort, remotes⟩
    rw [remotes] at member
    rcases mem_or_eq_of_mem_set member with old | rfl
    · exact .inl ⟨flow, old, rfl, rfl⟩
    · exact .inr ⟨movedAddr, movedPort⟩

theorem observe_tracks : (mapping.observe cap addr port flags now uplink).1.Tracks addr port := by
  cases known : mapping.remoteIndex addr port with
  | none =>
    rcases observe_unknown known with ⟨added, sameAddr, samePort, remotes⟩
    refine ⟨added, ?_, sameAddr, samePort⟩
    rw [remotes]
    exact mem_append_right _ (mem_singleton.mpr rfl)
  | some position =>
    rcases observe_known known with ⟨_, moved, present, _, _, movedAddr, movedPort, remotes⟩
    refine ⟨moved, ?_, movedAddr, movedPort⟩
    rw [remotes]
    exact mem_set (List.getElem?_eq_some_iff.mp present).1 _

end Mapping

end WarrenSdk.Bolthole
