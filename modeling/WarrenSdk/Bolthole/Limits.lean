import WarrenSdk.Bolthole.RateLimit

/-! # What a token bucket admits

A bucket is refilled for the whole milliseconds since its mark. The mark stays
where it is while they buy nothing, so what a window of time is granted is
bounded by its length, and at most half of a stretch is lost to rounding. -/

namespace WarrenSdk.Bolthole

open List

theorem refillFor_eq (rate : Nat) (elapsed : Duration) :
    refillFor rate elapsed = min (elapsed / 1000000 * rate) (2 ^ 64 - 1) := by
  rw [refillFor, saturated, saturated]
  rcases Nat.eq_zero_or_pos rate with rfl | positive
  · simp
  rcases Nat.le_total (elapsed / 1000000) (2 ^ 64 - 1) with small | large
  · rw [Nat.min_eq_left small]
  · have product : 2 ^ 64 - 1 ≤ elapsed / 1000000 * rate :=
      Nat.le_trans large (Nat.le_mul_of_pos_right _ positive)
    rw [Nat.min_eq_right large, Nat.min_eq_right product,
      Nat.min_eq_right (Nat.le_mul_of_pos_right _ positive)]

namespace TokenBucket

/-- The bucket once a call has refilled it, before a token is spent. -/
def refilled (bucket : TokenBucket) (now : Instant) : TokenBucket :=
  let last := bucket.last.getD now
  let refill := refillFor bucket.rate (now - last)
  if 0 < refill then
    { bucket with
      tokens := min (saturated (bucket.tokens + refill)) bucket.burst
      last := some now }
  else { bucket with last := some last }

def after (bucket : TokenBucket) (times : List Instant) : TokenBucket :=
  times.foldl (fun bucket now => (bucket.admits now).2) bucket

/-- How many of the calls are admitted. -/
def admitted : TokenBucket → List Instant → Nat
  | _, [] => 0
  | bucket, now :: later => (bucket.admits now).1.toNat + (bucket.admits now).2.admitted later

/-- What the calls are granted, in thousandths. -/
def credit : TokenBucket → List Instant → Nat
  | _, [] => 0
  | bucket, now :: later =>
    (bucket.refilled now).tokens - bucket.tokens + (bucket.admits now).2.credit later

def NeverFull : TokenBucket → List Instant → Prop
  | _, [] => True
  | bucket, now :: later =>
    (bucket.refilled now).tokens < bucket.burst ∧ (bucket.admits now).2.NeverFull later

/-! ## One call -/

theorem admits_eq (bucket : TokenBucket) (now : Instant) : bucket.admits now =
      if (bucket.refilled now).tokens < scale then
        (false, bucket.refilled now)
      else
        (true, { bucket.refilled now with
          tokens := (bucket.refilled now).tokens - scale }) := by
  rw [admits, refilled]

theorem refilled_kept (bucket : TokenBucket) (now : Instant) :
    (bucket.refilled now).rate = bucket.rate ∧ (bucket.refilled now).burst = bucket.burst := by
  rw [refilled]
  split <;> exact ⟨rfl, rfl⟩

/-- A call spends at most one token of the refilled bucket. -/
theorem admits_spec (bucket : TokenBucket) (now : Instant) :
    (bucket.admits now).2.tokens + (bucket.admits now).1.toNat * 1000 =
      (bucket.refilled now).tokens ∧
    (bucket.admits now).2.last = (bucket.refilled now).last ∧
    (bucket.admits now).2.rate = bucket.rate ∧ (bucket.admits now).2.burst = bucket.burst := by
  rw [admits_eq]
  split
  · exact ⟨by simp, rfl, bucket.refilled_kept now⟩
  · rename_i enough
    rw [scale] at enough
    refine ⟨?_, rfl, bucket.refilled_kept now⟩
    simp only [scale, Bool.toNat_true]
    omega

variable {bucket : TokenBucket} {mark : Nat}

/-- Saturation never shows: the bucket is full before. -/
theorem refilled_cases (bounded : bucket.burst < 2 ^ 64) (marked : bucket.last.getD now = mark) :
    (now - mark) / 1000000 * bucket.rate = 0 ∧
      bucket.refilled now = { bucket with last := some mark } ∨
    0 < (now - mark) / 1000000 * bucket.rate ∧ bucket.refilled now =
        { bucket with
          tokens := min (bucket.tokens + (now - mark) / 1000000 * bucket.rate) bucket.burst
          last := some now } := by
  rw [refilled, marked, refillFor_eq]
  generalize (now - mark) / 1000000 * bucket.rate = product
  rcases Nat.eq_zero_or_pos product with rfl | positive
  · exact .inl ⟨rfl, rfl⟩
  · rw [if_pos (by omega), saturated]
    refine .inr ⟨positive, ?_⟩
    congr 1
    omega

theorem refilled_le (now : Nat) (bounded : bucket.burst < 2 ^ 64)
    (filled : bucket.tokens ≤ bucket.burst) : (bucket.refilled now).tokens ≤ bucket.burst := by
  rcases refilled_cases bounded (Eq.refl (bucket.last.getD now)) with ⟨_, same⟩ | ⟨_, more⟩
  · rw [same]
    exact filled
  · rw [more]
    exact Nat.min_le_right _ _

theorem refilled_again (bounded : bucket.burst < 2 ^ 64) :
    (bucket.refilled now).refilled now = bucket.refilled now := by
  rcases refilled_cases bounded (Eq.refl (bucket.last.getD now)) with ⟨nothing, same⟩ | ⟨_, more⟩
  · rw [same, refilled]
    simp [refillFor_eq, nothing]
  · rw [more, refilled]
    simp [refillFor_eq]

theorem admits_refilled (bounded : bucket.burst < 2 ^ 64) :
    (bucket.refilled now).admits now = bucket.admits now := by
  rw [admits_eq, admits_eq, refilled_again bounded]

/-! ## Windows -/

theorem admitted_le {times : List Nat} (within : ∀ time ∈ times, time ≤ limit)
    (bounded : bucket.burst < 2 ^ 64) (marked : bucket.last = some mark) :
    1000 * bucket.admitted times ≤ bucket.tokens + (limit - mark) / 1000000 * bucket.rate := by
  induction times generalizing bucket mark with
  | nil => simp [admitted]
  | cons now later induction =>
    have early := within now mem_cons_self
    have rest := fun time member => within time (mem_cons_of_mem now member)
    rcases bucket.admits_spec now with ⟨tokens, last, rate, burst⟩
    rw [admitted]
    rcases refilled_cases bounded (show bucket.last.getD now = mark by
      rw [marked]; rfl) with ⟨_, same⟩ | ⟨positive, more⟩
    · have others := induction rest (burst ▸ bounded) (last.trans (congrArg TokenBucket.last same))
      rw [same] at tokens
      rw [rate] at others
      dsimp only at tokens
      omega
    · have others := induction rest (burst ▸ bounded) (last.trans (congrArg TokenBucket.last more))
      rw [more] at tokens
      rw [rate] at others
      -- The milliseconds on both sides of the call are at most all of them.
      have parts : (now - mark) / 1000000 + (limit - now) / 1000000 ≤ (limit - mark) / 1000000 := by
        have later : mark ≤ now := by
          by_contra before
          rw [Nat.sub_eq_zero_of_le (by omega)] at positive
          simp at positive
        omega
      have scaled := Nat.mul_le_mul_right bucket.rate parts
      rw [Nat.add_mul] at scaled
      dsimp only at tokens
      omega

/-- A window is admitted a full bucket and what its milliseconds buy. -/
theorem admitted_window (bounded : bucket.burst < 2 ^ 64)
    (filled : bucket.tokens ≤ bucket.burst) {span : Nat}
    (within : ∀ time ∈ times, start ≤ time ∧ time ≤ start + span * 1000000) :
    1000 * bucket.admitted times ≤ bucket.burst + span * bucket.rate := by
  cases times with
  | nil => simp [admitted]
  | cons now later =>
    have entered := (within now mem_cons_self).1
    have capped := refilled_le now bounded filled
    have early := fun time member => (within time member).2
    have counted : bucket.admitted (now :: later) =
        (bucket.refilled now).admitted (now :: later) := by
      rw [admitted, admitted, admits_refilled bounded]
    -- Only the first call can find a mark from before the window.
    obtain ⟨mark, marked, short⟩ : ∃ mark : Nat, (bucket.refilled now).last = some mark ∧
        (start + span * 1000000 - mark) / 1000000 * bucket.rate ≤ span * bucket.rate := by
      obtain ⟨old, found⟩ : ∃ old : Nat, bucket.last.getD now = old := ⟨_, rfl⟩
      rcases refilled_cases bounded found with ⟨nothing, same⟩ | ⟨_, more⟩
      · refine ⟨old, congrArg TokenBucket.last same, ?_⟩
        rcases Nat.mul_eq_zero.mp nothing with recent | never
        · apply Nat.mul_le_mul_right
          omega
        · simp [never]
      · refine ⟨now, congrArg TokenBucket.last more, ?_⟩
        apply Nat.mul_le_mul_right
        omega
    rcases bucket.refilled_kept now with ⟨rate, burst⟩
    have covered := admitted_le early (burst ▸ bounded) marked
    rw [rate, ← counted] at covered
    omega

/-- While the bucket is not full, a stretch between two marks is granted half
of what it is worth. -/
theorem credit_ge {times : List Nat} {last : Nat}
    (bounded : bucket.burst < 2 ^ 64) (marked : bucket.last = some mark)
    (ended : (bucket.after times).last = some last) (room : bucket.NeverFull times) :
    (last - mark) * bucket.rate ≤ 2000000 * bucket.credit times := by
  induction times generalizing bucket mark with
  | nil =>
    cases marked.symm.trans ended
    simp
  | cons now later induction =>
    rcases bucket.admits_spec now with ⟨_, moved, rate, burst⟩
    have unfilled := room.1
    rw [credit]
    rcases refilled_cases bounded (show bucket.last.getD now = mark by
      rw [marked]; rfl) with ⟨_, same⟩ | ⟨positive, more⟩
    · have rest := induction (burst ▸ bounded)
        (moved.trans (congrArg TokenBucket.last same)) ended room.2
      rw [rate] at rest
      omega
    · have rest := induction (burst ▸ bounded)
        (moved.trans (congrArg TokenBucket.last more)) ended room.2
      rw [more] at unfilled ⊢
      rw [rate] at rest
      -- A refill pays for whole milliseconds, at least one of them.
      have whole : 0 < (now - mark) / 1000000 :=
        Nat.pos_of_ne_zero fun none => by simp [none] at positive
      have halved : last - mark ≤ last - now + 2000000 * ((now - mark) / 1000000) := by omega
      have scaled := Nat.mul_le_mul_right bucket.rate halved
      rw [Nat.add_mul, Nat.mul_assoc] at scaled
      dsimp only at unfilled ⊢
      omega

/-! ## Every sequence of calls -/

/-- What a bucket is, whatever calls it has served. -/
structure Serves (rate burst : UInt32) (bucket : TokenBucket) : Prop where
  rate : bucket.rate = rate.toNat
  burst : bucket.burst = burst.toNat * 1000
  filled : bucket.tokens ≤ bucket.burst

theorem Serves.bounded {rate burst : UInt32} (serves : Serves rate burst bucket) :
    bucket.burst < 2 ^ 64 := by
  have bound := burst.toNat_lt
  have full := serves.burst
  omega

theorem Serves.admits {rate burst : UInt32} (serves : Serves rate burst bucket)
    (now : Instant) : Serves rate burst (bucket.admits now).2 := by
  rcases bucket.admits_spec now with ⟨tokens, _, rate, burst⟩
  have capped := refilled_le now serves.bounded serves.filled
  refine ⟨rate.trans serves.rate, burst.trans serves.burst, ?_⟩
  omega

theorem after_serves (rate burst : UInt32) (times : List Instant) :
    Serves rate burst ((new rate burst).after times) := by
  induction times using List.reverseRecOn with
  | nil => exact ⟨rfl, rfl, Nat.le_refl _⟩
  | append_singleton earlier now induction =>
    rw [after, foldl_concat]
    exact induction.admits now

/-- A call adds what the milliseconds since the mark buy, as far as the bucket
has room, and moves the mark if they buy anything. It is admitted exactly if a
token is there, and takes it. -/
theorem Serves.admits_exact {rate burst : UInt32}
    (serves : Serves rate burst bucket) (now : Instant) :
    let mark := bucket.last.getD now
    let bought := (now - mark) / 1000000 * rate.toNat
    let filled := min (bucket.tokens + bought) (burst.toNat * 1000)
    bucket.refilled now =
        { bucket with
          tokens := filled
          last := some (if bought = 0 then mark else now) } ∧
      bucket.admits now = (decide (1000 ≤ filled),
          { bucket.refilled now with
            tokens := if 1000 ≤ filled then filled - 1000 else filled }) := by
  intro mark bought filled
  have capped := serves.filled
  have full := serves.burst
  have refilled : bucket.refilled now =
      { bucket with
        tokens := filled
        last := some (if bought = 0 then mark else now) } := by
    have buys : (now - mark) / 1000000 * bucket.rate = bought := by rw [serves.rate]
    rcases refilled_cases serves.bounded (Eq.refl mark) with ⟨nothing, same⟩ | ⟨positive, more⟩
    · rw [buys] at nothing
      have kept : filled = bucket.tokens := by
        simp only [filled, nothing]
        omega
      rw [same, if_pos nothing, kept]
    · rw [buys] at positive more
      rw [more, if_neg (Nat.ne_of_gt positive), full]
  refine ⟨refilled, ?_⟩
  rw [admits_eq, refilled, scale]
  by_cases enough : 1000 ≤ filled
  · simp [enough, Nat.not_lt.mpr enough]
  · simp [enough, Nat.lt_of_not_le enough]

/-- The calls of a window are bounded by its length from above, the credit of a
stretch by half of its length from below. Every call gives and takes exactly
what the time since the mark buys, computed without a bound: no number needs
more than 64 bits. -/
theorem rate_bounded (rate burst : UInt32) (earlier calls : List Instant) :
    let bucket := (new rate burst).after earlier
    (∀ start span, (∀ time ∈ calls, start ≤ time ∧ time ≤ start + span * 1000000) →
      bucket.admitted calls ≤ burst.toNat + rate.toNat * span / 1000) ∧
    (∀ first last, bucket.last = some first →
      (bucket.after calls).last = some last → bucket.NeverFull calls →
      rate.toNat * (last - first) ≤ 2 * 1000000 * bucket.credit calls) ∧
    burst.toNat * scale < 2 ^ 64 ∧
    ∀ now,
      let mark := bucket.last.getD now
      let bought := (now - mark) / 1000000 * rate.toNat
      let filled := min (bucket.tokens + bought) (burst.toNat * 1000)
      bucket.refilled now =
          { bucket with
            tokens := filled
            last := some (if bought = 0 then mark else now) } ∧
        bucket.admits now = (decide (1000 ≤ filled),
            { bucket.refilled now with
              tokens := if 1000 ≤ filled then filled - 1000 else filled }) ∧
        refillFor bucket.rate (now - mark) < 2 ^ 64 ∧
        (bucket.refilled now).tokens < 2 ^ 64 := by
  dsimp only
  have serves := after_serves rate burst earlier
  generalize (new rate burst).after earlier = bucket at serves
  refine ⟨?_, ?_, ?_, ?_⟩
  · intro start span within
    have bound := admitted_window serves.bounded serves.filled within
    rw [serves.rate, serves.burst, Nat.mul_comm span] at bound
    omega
  · intro first last marked ended room
    have bound := credit_ge serves.bounded marked ended room
    rwa [serves.rate, Nat.mul_comm] at bound
  · have bound := burst.toNat_lt
    rw [scale]
    omega
  · intro now
    have bounded := serves.bounded
    have capped := refilled_le now bounded serves.filled
    rw [refillFor_eq]
    rcases serves.admits_exact now with ⟨refilled, admits⟩
    exact ⟨refilled, admits, by omega, by omega⟩

end TokenBucket

end WarrenSdk.Bolthole
