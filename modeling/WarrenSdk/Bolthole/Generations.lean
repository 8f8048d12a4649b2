import Mathlib.Data.List.Dedup
import WarrenSdk.Bolthole.RateLimit

/-! # Sources in two generations

The limiter forgets a source once two generations of sources have called since.
Until then its bucket is the one that a limiter without a bound would have. -/

namespace WarrenSdk.Bolthole

open List HashMap

/-- Refill a bucket, and spend a token of it if there is one. -/
def Bucket.spend (rate burst : Nat) (bucket : Bucket) (now : Instant) : Bool × Bucket :=
  let refill := refillFor rate (now - bucket.last)
  let bucket : Bucket :=
    if 0 < refill then
      { tokens := min (saturated (bucket.tokens + refill)) burst
        last := now }
    else bucket
  let admitted := decide (scale ≤ bucket.tokens)
  (admitted,
    if admitted then { bucket with tokens := bucket.tokens - scale }
    else bucket)

/-- A limiter that keeps the bucket of every source for ever. -/
structure IdealBuckets where
  rate : Nat
  burst : Nat
  bucket : IpAddr → Option Bucket

namespace IdealBuckets

def withLimits (rate burst : UInt32) : IdealBuckets where
  rate := rate.toNat
  burst := burst.toNat * scale
  bucket := fun _ => none

def admits (buckets : IdealBuckets) (source : IpAddr) (now : Instant) : Bool × IdealBuckets :=
  let spent := ((buckets.bucket source).getD ⟨buckets.burst, now⟩).spend
    buckets.rate buckets.burst now
  (spent.1, { buckets with
    bucket := fun other =>
      if other = source then some spent.2 else buckets.bucket other })

end IdealBuckets

section Traces

variable {Limiter : Type} (admits : Limiter → IpAddr → Instant → Bool × Limiter)

def served (limiter : Limiter) (trace : List (IpAddr × Instant)) : Limiter :=
  trace.foldl (fun limiter call => (admits limiter call.1 call.2).2) limiter

def decisions : Limiter → List (IpAddr × Instant) → List Bool
  | _, [] => []
  | limiter, (source, now) :: later =>
    (admits limiter source now).1 :: decisions (admits limiter source now).2 later

end Traces

/-- The calls since the last one of a source, the latest first. -/
def since (past : List IpAddr) (source : IpAddr) : List IpAddr :=
  past.takeWhile fun other => other ≠ source

/-- Between two calls of a source at most so many other sources call. -/
def Sparse (cap : Nat) : List IpAddr → List (IpAddr × Instant) → Prop
  | _, [] => True
  | past, (source, _) :: later =>
    (source ∈ past → (since past source).dedup.length ≤ cap) ∧ Sparse cap (source :: past) later

theorem since_cons_ne (differ : other ≠ source) :
    since (other :: past) source = other :: since past source := by
  simp [since, differ]

namespace HandshakeBuckets

def tracked (buckets : HandshakeBuckets) : Nat := buckets.current.size + buckets.previous.size

def bucketOf (buckets : HandshakeBuckets) (source : IpAddr) : Option Bucket :=
  (buckets.current.get source).or (buckets.previous.get source)

/-! ## Generations -/

structure Bounded (buckets : HandshakeBuckets) : Prop where
  apart : ∀ source, buckets.current.get source = none ∨ buckets.previous.get source = none
  positive : 1 ≤ buckets.cap
  current : buckets.current.size ≤ buckets.cap
  previous : buckets.previous.size ≤ buckets.cap

/-- The entries of one map are those of another without a source. -/
def Without (source : IpAddr) (before after : HashMap IpAddr Bucket) : Prop :=
  (∀ other, after.get other =
    if other = source then none else before.get other) ∧
  after.size ≤ before.size

variable {buckets : HandshakeBuckets}

theorem without_remove (map : HashMap IpAddr Bucket) (source : IpAddr) :
    Without source map (map.remove source) :=
  ⟨map.get_remove source, map.size_remove_le source⟩

theorem without_self {map : HashMap IpAddr Bucket}
    (absent : map.get source = none) : Without source map map := by
  refine ⟨?_, Nat.le_refl _⟩
  intro other
  split
  · subst other
    exact absent
  · rfl

theorem take_spec (bounded : Bounded buckets) (source : IpAddr) (now : Instant) :
    ∃ current previous, buckets.take source now =
      ((buckets.bucketOf source).getD ⟨buckets.burst, now⟩,
        { buckets with current, previous }) ∧
      Without source buckets.current current ∧
      Without source buckets.previous previous := by
  rw [take, bucketOf]
  cases found : buckets.current.get source with
  | some bucket =>
    have absent : buckets.previous.get source = none := by
      rcases bounded.apart source with none | none
      · cases found.symm.trans none
      · exact none
    exact ⟨_, _, rfl, without_remove _ _, without_self absent⟩
  | none => exact ⟨_, _, rfl, without_self found, without_remove _ _⟩

/-- The bucket that a call leaves its source, and the decision. -/
def spent (buckets : HandshakeBuckets) (source : IpAddr) (now : Instant) : Bool × Bucket :=
  ((buckets.bucketOf source).getD ⟨buckets.burst, now⟩).spend buckets.rate buckets.burst now

/-- A call puts its source into the current generation, or into a new one when
the current one is full without it. -/
theorem admits_cases (bounded : Bounded buckets) (source : IpAddr) (now : Instant) :
    ∃ rest previous, Without source buckets.current rest ∧
      Without source buckets.previous previous ∧
      (rest.size < buckets.cap ∧ buckets.admits source now =
        ((buckets.spent source now).1, { buckets with
          current := rest.insert source (buckets.spent source now).2
          previous }) ∨
      buckets.cap ≤ rest.size ∧ buckets.admits source now =
        ((buckets.spent source now).1, { buckets with
          current := HashMap.empty.insert source (buckets.spent source now).2
          previous := rest })) := by
  rcases take_spec bounded source now with ⟨rest, previous, taken, restWithout, previousWithout⟩
  refine ⟨rest, previous, restWithout, previousWithout, ?_⟩
  rw [admits, taken]
  by_cases full : buckets.cap ≤ rest.size
  · refine .inr ⟨full, ?_⟩
    simp only [full, if_true]
    rfl
  · refine .inl ⟨Nat.lt_of_not_le full, ?_⟩
    simp only [full, if_false]
    rfl

theorem Bounded.admits (bounded : Bounded buckets) (source : IpAddr)
    (now : Instant) : Bounded (buckets.admits source now).2 := by
  rcases admits_cases bounded source now with ⟨rest, previous, restWithout, previousWithout, cases⟩
  rcases cases with ⟨room, same⟩ | ⟨full, same⟩
  · rw [same]
    refine ⟨?_, bounded.positive, ?_, ?_⟩
    · intro other
      dsimp only
      rw [get_insert, restWithout.1, previousWithout.1]
      by_cases own : other = source
      · simp [own]
      · simpa [own] using bounded.apart other
    · exact Nat.le_trans (size_insert_le _ _ _) room
    · exact Nat.le_trans previousWithout.2 bounded.previous
  · rw [same]
    refine ⟨?_, bounded.positive, ?_, ?_⟩
    · intro other
      dsimp only
      rw [get_insert, restWithout.1, get_empty]
      by_cases own : other = source
      · simp [own]
      · simp [own]
    · exact Nat.le_trans (size_insert_le _ _ _) bounded.positive
    · exact Nat.le_trans restWithout.2 bounded.current

/-! ## The limiter without a bound -/

/-- The bucket of a source is known, and if it is in the previous generation,
every source of the current one has called since. -/
def Knows (past : List IpAddr) (buckets : HandshakeBuckets)
    (ideal : IdealBuckets) (source : IpAddr) : Prop :=
  buckets.bucketOf source = ideal.bucket source ∧
  (buckets.current.get source = none → ∀ other bucket,
    buckets.current.get other = some bucket → other ∈ since past source)

structure Tracks (past : List IpAddr) (buckets : HandshakeBuckets)
    (ideal : IdealBuckets) : Prop where
  bounded : Bounded buckets
  rate : ideal.rate = buckets.rate
  burst : ideal.burst = buckets.burst
  uncalled : ∀ source, source ∉ past → ideal.bucket source = none
  known : ∀ source, Knows past buckets ideal source ∨
    source ∈ past ∧ buckets.cap < (since past source).dedup.length

/-- A generation that is full without a source has a source more with it. -/
theorem crowded {rest : HashMap IpAddr Bucket}
    (without : rest.get source = none) (full : buckets.cap ≤ rest.size)
    (called : ∀ other bucket, rest.get other = some bucket → other ∈ later) :
    buckets.cap < (source :: later).dedup.length := by
  have keys : ∀ other ∈ rest.toList.map Prod.fst, ∃ bucket, rest.get other = some bucket := by
    intro other member
    rcases mem_map.mp member with ⟨⟨_, bucket⟩, listed, rfl⟩
    exact ⟨bucket, mem_toList.mp listed⟩
  have nodup : (source :: rest.toList.map Prod.fst).Nodup := by
    refine nodup_cons.mpr ⟨?_, rest.toList_keys_nodup⟩
    intro member
    rcases keys source member with ⟨bucket, found⟩
    cases without.symm.trans found
  have covered : source :: rest.toList.map Prod.fst ⊆ (source :: later).dedup := by
    intro other member
    apply mem_dedup.mpr
    rcases mem_cons.mp member with rfl | member
    · exact mem_cons_self
    · rcases keys other member with ⟨bucket, found⟩
      exact mem_cons_of_mem _ (called other bucket found)
  have counted := nodup.length_le_of_subset covered
  rw [length_cons, length_map] at counted
  exact Nat.lt_of_lt_of_le (Nat.lt_succ_of_le full) counted

theorem dedup_cons_le (other : IpAddr) (later : List IpAddr) :
    later.dedup.length ≤ (other :: later).dedup.length := by
  by_cases member : other ∈ later
  · rw [dedup_cons_of_mem member]
  · rw [dedup_cons_of_notMem member]
    exact Nat.le_succ _

/-- What a call leaves is tracked if its source has its bucket in the current
generation, and every other source is known as before or crowded out. -/
theorem Tracks.called {next : HandshakeBuckets} (tracks : Tracks past buckets ideal)
    (bounded : Bounded next) (rate : next.rate = buckets.rate)
    (burst : next.burst = buckets.burst) (cap : next.cap = buckets.cap)
    (own : next.current.get source = some bucket)
    (others : ∀ other, other ≠ source → Knows past buckets ideal other →
      next.bucketOf other = buckets.bucketOf other ∧
        (next.current.get other = none → ∀ third bucket,
          next.current.get third = some bucket →
          third = source ∨ third ∈ since past other) ∨
      other ∈ past ∧ buckets.cap < (source :: since past other).dedup.length) :
    Tracks (source :: past) next { ideal with
      bucket := fun other =>
        if other = source then some bucket else ideal.bucket other } where
  bounded := bounded
  rate := tracks.rate.trans rate.symm
  burst := tracks.burst.trans burst.symm
  uncalled := by
    intro other absent
    rcases not_or.mp (mem_cons.not.mp absent) with ⟨differ, before⟩
    dsimp only
    rw [if_neg differ, tracks.uncalled other before]
  known := by
    intro other
    rw [cap]
    by_cases self : other = source
    · subst other
      left
      rw [Knows, bucketOf, own]
      exact ⟨(if_pos rfl).symm, nofun⟩
    · rw [since_cons_ne (Ne.symm self)]
      rcases tracks.known other with knows | ⟨called, crowded⟩
      · rcases others other self knows with ⟨kept, newer⟩ | ⟨called, crowded⟩
        · left
          rw [Knows, since_cons_ne (Ne.symm self), kept]
          refine ⟨knows.1.trans (if_neg self).symm, ?_⟩
          intro absent third bucket found
          exact mem_cons.mpr (newer absent third bucket found)
        · exact .inr ⟨mem_cons_of_mem _ called, crowded⟩
      · right
        exact ⟨mem_cons_of_mem _ called, Nat.lt_of_lt_of_le crowded (dedup_cons_le _ _)⟩

theorem Tracks.admits (tracks : Tracks past buckets ideal)
    (sparse : source ∈ past → (since past source).dedup.length ≤ buckets.cap) :
    (buckets.admits source now).1 = (ideal.admits source now).1 ∧
    Tracks (source :: past) (buckets.admits source now).2 (ideal.admits source now).2 := by
  have own : buckets.bucketOf source = ideal.bucket source := by
    rcases tracks.known source with knows | ⟨called, crowded⟩
    · exact knows.1
    · have few := sparse called
      omega
  have same : ideal.admits source now = ((buckets.spent source now).1, { ideal with
        bucket := fun other =>
          if other = source then some (buckets.spent source now).2
          else ideal.bucket other }) := by
    rw [IdealBuckets.admits, spent, own, tracks.rate, tracks.burst]
  have bounded := tracks.bounded.admits source now
  rcases admits_cases tracks.bounded source now with
    ⟨rest, previous, restWithout, previousWithout, ⟨_, next⟩ | ⟨full, next⟩⟩
  · rw [next] at bounded ⊢
    rw [same]
    refine ⟨rfl, tracks.called bounded rfl rfl rfl (by simp) ?_⟩
    intro other differ knows
    left
    simp only [bucketOf, get_insert, restWithout.1, previousWithout.1, differ, if_false, true_and]
    intro absent third bucket found
    by_cases newest : third = source
    · exact .inl newest
    · rw [if_neg newest, if_neg newest] at found
      exact .inr (knows.2 absent third bucket found)
  · rw [next] at bounded ⊢
    rw [same]
    refine ⟨rfl, tracks.called bounded rfl rfl rfl (by simp) ?_⟩
    intro other differ knows
    have forgotten : (HashMap.empty.insert source
        (buckets.spent source now).2).get other = none := by simp [differ]
    have moved := restWithout.1 other
    rw [if_neg differ] at moved
    by_cases lost : buckets.current.get other = none ∧ other ∈ past
    · right
      refine ⟨lost.2, crowded (by simp [restWithout.1]) full ?_⟩
      intro third bucket found
      rw [restWithout.1] at found
      split at found
      · cases found
      · exact knows.2 lost.1 third bucket found
    · left
      refine ⟨?_, ?_⟩
      · rw [bucketOf, forgotten, moved, Option.none_or]
        cases held : buckets.current.get other with
        | some bucket => simp [bucketOf, held]
        | none => rw [knows.1, tracks.uncalled other fun called => lost ⟨held, called⟩]
      · intro _ third bucket found
        rw [get_insert] at found
        split at found
        · rename_i newest
          exact .inl newest
        · simp at found

/-! ## Traces -/

theorem withLimits_bounded (rate burst : UInt32) (cap : Nat) :
    Bounded (withLimits rate burst cap) where
  apart := fun _ => .inl rfl
  positive := Nat.le_max_right _ _
  current := Nat.zero_le _
  previous := Nat.zero_le _

theorem served_bounded (bounded : Bounded buckets) (trace : List (IpAddr × Instant)) :
    Bounded (served admits buckets trace) ∧ (served admits buckets trace).cap = buckets.cap := by
  induction trace generalizing buckets with
  | nil => exact ⟨bounded, rfl⟩
  | cons call later induction =>
    have rest := induction (bounded.admits call.1 call.2)
    refine ⟨rest.1, rest.2.trans ?_⟩
    rcases admits_cases bounded call.1 call.2 with ⟨_, _, _, _, ⟨_, next⟩ | ⟨_, next⟩⟩ <;> rw [next]

theorem Tracks.decisions {cap : Nat} (tracks : Tracks past buckets ideal)
    (limit : buckets.cap = cap) (sparse : Sparse cap past trace) :
    Bolthole.decisions HandshakeBuckets.admits buckets trace =
      Bolthole.decisions IdealBuckets.admits ideal trace := by
  induction trace generalizing past buckets ideal with
  | nil => rfl
  | cons call later induction =>
    rcases tracks.admits (limit.symm ▸ sparse.1) with ⟨same, next⟩
    have kept := (served_bounded tracks.bounded [call]).2
    rw [Bolthole.decisions, Bolthole.decisions, same,
      induction next (kept.trans limit) sparse.2]

/-- The two generations decide as if no source was ever forgotten, whenever at
most a generation of other sources calls between two calls of a source. On
every trace they have no source in common, and are bounded. -/
theorem generations_refine (rate burst : UInt32) (cap : Nat) (trace : List (IpAddr × Instant)) :
    let buckets := withLimits rate burst cap
    let after := served admits buckets trace
    (Sparse buckets.cap [] trace → decisions admits buckets trace =
        decisions IdealBuckets.admits (.withLimits rate burst) trace) ∧
    (∀ source, after.current.get source = none ∨ after.previous.get source = none) ∧
    after.tracked ≤ 2 * buckets.cap := by
  have bounded := withLimits_bounded rate burst cap
  have tracks : Tracks [] (withLimits rate burst cap) (.withLimits rate burst) :=
    { bounded, rate := rfl, burst := rfl
      uncalled := fun _ _ => rfl
      known := fun _ => .inl ⟨rfl, nofun⟩ }
  rcases served_bounded bounded trace with ⟨kept, cap⟩
  refine ⟨tracks.decisions rfl, kept.apart, ?_⟩
  have current := kept.current
  have previous := kept.previous
  rw [tracked]
  omega

end HandshakeBuckets

end WarrenSdk.Bolthole
