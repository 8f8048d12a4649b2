import WarrenSdk.Net.Http.Relay
import WarrenSdk.Net.Http.Rewrite

/-! # Delivering a request

What an origin is sent for a request that was accepted, whatever the client
sends behind it and in whatever pieces. -/

namespace WarrenSdk.Net

open Http List Option
open Bolthole (Ipv6Addr)

namespace Upload

/-! ## The body that a stream begins with

From here on the client's bytes, those that it still has to send included, begin
with a framed body. -/

def Awaits (point : Point) (ahead : List UInt8) : Prop :=
  match point with
  | .sizeLine read => ∃ size text line more, SizeLine size text line ∧ read ++ ahead = line ++ more
  | .trailerLine total read => ∃ text line more, Line text line ∧ read ++ ahead = line ++ more ∧
    (text ≠ [] → total + line.length ≤ maxChunkLine)
  | .chunkEnd read => ∃ more, read ++ ahead = crlf ++ more
  | _ => True

/-- How an upload stands to the body that it relays. -/
structure Fits (point : Point) (taken ahead sent input output : List UInt8) : Prop where
  sent : sent <+: output
  awaits : Awaits point ahead
  within : ∀ buffer ahead', Tidy point buffer ahead' → taken.length ≤ input.length
  short : ∀ buffer ahead', Tidy point buffer ahead' → point.reads = true →
    point ≠ .delivered → taken.length < input.length

section Fitting

variable {body : BodyLength}

theorem Copies.remains (copies : Copies body chunked left taken sent)
    (framed : Framed body input output) (stream : taken ++ ahead = input ++ rest) :
    ∃ data behind sends, data.length = left ∧ input = taken ++ (data ++ behind) ∧
      output = sent ++ (data ++ sends) ∧ ahead = data ++ (behind ++ rest) ∧
      (chunked → ∃ input', behind = crlf ++ input') := by
  rcases copies with ⟨rfl, place⟩
  cases chunked with
  | false =>
    subst place
    cases framed with
    | exactly whole =>
      rcases append_eq_append_of_length stream whole with ⟨data, length, rfl, behind⟩
      exact ⟨data, [], [], length, by simp, by simp, by simpa using behind,
        fun chunked => by cases chunked⟩
  | true =>
    rcases place with ⟨rfl, chunks, text, line, read, complete, sized, positive, rfl⟩
    simp only [append_assoc] at stream
    rcases framed.drop_chunks complete stream with ⟨input', output', framed', rfl, rfl, behind⟩
    rcases framed'.first_line with ⟨size, text', line', after, sends, sized', rfl, rfl, next⟩
    rw [append_assoc] at behind
    rcases sized.unique sized' behind with ⟨rfl, rfl, content⟩
    rcases next with ⟨zero, _⟩ | ⟨_, data, input'', output'', length, _, rfl, rfl⟩
    · omega
    · rw [append_assoc] at content
      rcases append_eq_append_of_length content length with ⟨more, size, rfl, left⟩
      exact ⟨more, crlf ++ input'', crlf ++ output'', size, by simp, by simp,
        by simpa using left, fun _ => ⟨input'', rfl⟩⟩

theorem fits_sizeLine {read : List UInt8} (place : At body (.sizeLine read) taken sent)
    (framed : Framed body input output) (stream : taken ++ ahead = input ++ rest) :
    Fits (.sizeLine read) taken ahead sent input output := by
  rcases place with ⟨rfl, complete, rfl⟩
  rw [append_assoc] at stream
  rcases framed.drop_chunks complete stream with ⟨input', output', framed', rfl, rfl, behind⟩
  rcases framed'.first_line with ⟨size, text, line, after, sends, sized, rfl, rfl, _⟩
  rw [append_assoc] at behind
  have short : lf ∉ read → read.length < line.length := fun noFeed => sized.longer noFeed behind
  exact {
    sent := prefix_append _ _
    awaits := ⟨size, text, line, _, sized, behind⟩
    within := fun _ _ tidy => by
      have := short tidy.1
      simp only [length_append]
      omega
    short := fun _ _ tidy _ _ => by
      have := short tidy.1
      simp only [length_append]
      omega }

theorem fits_sizing (place : At body (.sizing size left) taken sent)
    (framed : Framed body input output) (stream : taken ++ ahead = input ++ rest) :
    Fits (.sizing size left) taken ahead sent input output := by
  rcases place with ⟨rfl, rfl, chunks, text, line, complete, sized, rfl⟩
  rw [append_assoc] at stream
  rcases framed.drop_chunks complete stream with ⟨input', output', framed', rfl, rfl, behind⟩
  rcases framed'.first_line with ⟨size', text', line', after, sends, sized', rfl, rfl, _⟩
  rw [append_assoc] at behind
  rcases sized.unique sized' behind with ⟨rfl, rfl, _⟩
  exact {
    sent := ⟨sends, by simp⟩
    awaits := trivial
    within := fun _ _ _ => by
      simp only [length_append]
      omega
    short := fun _ _ _ reads => by cases reads }

theorem fits_chunkEnd {read : List UInt8} (place : At body (.chunkEnd read) taken sent)
    (framed : Framed body input output) (stream : taken ++ ahead = input ++ rest) :
    Fits (.chunkEnd read) taken ahead sent input output := by
  rcases place with ⟨copied, copies, rfl⟩
  rw [append_assoc] at stream
  rcases copies.remains framed stream with ⟨data, behind, sends, length, rfl, rfl, ahead, ends⟩
  rcases ends rfl with ⟨input', rfl⟩
  rw [length_eq_zero_iff.mp length, nil_append] at ahead
  exact {
    sent := prefix_append _ _
    awaits := ⟨input' ++ rest, by rw [ahead, append_assoc]⟩
    within := fun _ _ tidy => by
      have := tidy.1
      simp only [length_append, crlf, length_cons, length_nil]
      omega
    short := fun _ _ tidy _ _ => by
      have := tidy.1
      simp only [length_append, crlf, length_cons, length_nil]
      omega }

theorem fits_trailerLine {read : List UInt8} (place : At body (.trailerLine total read) taken sent)
    (framed : Framed body input output) (stream : taken ++ ahead = input ++ rest) :
    Fits (.trailerLine total read) taken ahead sent input output := by
  rcases place with ⟨rfl, chunks, text, line, trailers, complete, sized,
    fields, length, _, rfl, rfl⟩
  simp only [append_assoc] at stream
  rcases framed.drop_chunks complete stream with ⟨input', output', framed', rfl, rfl, behind⟩
  rcases framed'.first_line with ⟨size, text', line', after, sends, sized', rfl, rfl, next⟩
  rw [append_assoc] at behind
  rcases sized.unique sized' behind with ⟨rfl, rfl, trailing⟩
  rcases next with ⟨_, rfl, trailers', fields', few, rfl⟩ | ⟨positive, _⟩
  · rw [append_assoc] at trailing
    rcases fields.within fields' trailing with ⟨more, others, rfl, ends⟩
    -- The next line is the empty one or another field.
    have awaited : ∃ text line behind, Line text line ∧ read ++ ahead = line ++ (behind ++ rest) ∧
        more ++ crlf = line ++ behind ∧ (text ≠ [] → total + line.length ≤ maxChunkLine) := by
      rcases others.eq_nil_or_line with rfl | ⟨text, line, later, ended, _, rfl, _⟩
      · exact ⟨[], crlf, [], .empty, by simpa using ends, by simp,
          fun nonempty => absurd rfl nonempty⟩
      · refine ⟨text, line, later ++ crlf, ended, by simpa using ends, by simp, fun _ => ?_⟩
        simp only [length_append] at few
        omega
    rcases awaited with ⟨text, line, behind, ended, awaits, shape, fits⟩
    have length := congrArg List.length shape
    simp only [length_append] at length
    exact {
      sent := ⟨crlf, by simp⟩
      awaits := ⟨text, line, behind ++ rest, ended, awaits, fits⟩
      within := fun _ _ tidy => by
        have := ended.longer tidy.1 awaits
        simp only [length_append]
        omega
      short := fun _ _ tidy _ _ => by
        have := ended.longer tidy.1 awaits
        simp only [length_append]
        omega }
  · exact absurd positive (by decide)

/-- An upload is at a place of the body that its stream begins with. -/
theorem fits_of_at {point : Point} (place : At body point taken sent)
    (framed : Framed body input output) (stream : taken ++ ahead = input ++ rest) :
    Fits point taken ahead sent input output := by
  cases point with
  | head left =>
    rcases place with ⟨rfl, rfl⟩
    exact ⟨ nil_prefix, trivial, fun _ _ _ => Nat.zero_le _, fun _ _ _ reads => by cases reads⟩
  | copy chunked left =>
    rcases Copies.remains place framed stream with ⟨data, behind, sends, length, rfl, rfl, _, _⟩
    refine ⟨prefix_append _ _, trivial, fun _ _ _ => ?_, fun _ _ _ reads _ => ?_⟩
    · simp only [length_append]
      omega
    · rw [Point.reads, decide_eq_true_eq] at reads
      simp only [length_append]
      omega
  | copying chunked left count more =>
    rcases Copies.remains place framed stream with ⟨data, behind, sends, length, rfl, rfl, _, _⟩
    refine ⟨prefix_append _ _, trivial, fun _ _ _ => ?_, fun _ _ _ reads => by cases reads⟩
    simp only [length_append]
    omega
  | sizeLine read => exact fits_sizeLine place framed stream
  | sizing size left => exact fits_sizing place framed stream
  | chunkEnd read => exact fits_chunkEnd place framed stream
  | ending left =>
    rcases place with ⟨rfl, complete, rfl⟩
    rcases framed.drop_chunks complete stream with ⟨input', output', _, rfl, rfl, _⟩
    refine ⟨prefix_append _ _, trivial, fun _ _ _ => ?_, fun _ _ _ reads => by cases reads⟩
    simp only [length_append]
    omega
  | trailerLine total read => exact fits_trailerLine place framed stream
  | closing left =>
    rcases place.2.unique framed stream with ⟨rfl, rfl⟩
    exact ⟨prefix_rfl, trivial, fun _ _ _ => Nat.le_refl _, fun _ _ _ reads => by cases reads⟩
  | delivered =>
    rcases Framed.unique place framed stream with ⟨rfl, rfl⟩
    exact ⟨prefix_rfl, trivial, fun _ _ _ => Nat.le_refl _, fun _ _ _ _ here => absurd rfl here⟩

/-- Data that is copied is the beginning of a framed body, whatever follows. -/
theorem Copies.begins (copies : Copies body chunked left taken sent) :
    ∃ input output, Framed body input output ∧ sent <+: output := by
  rcases copies with ⟨rfl, place⟩
  cases chunked with
  | false =>
    subst place
    have whole : (sent ++ List.replicate left 0).length = sent.length + left := by
      rw [length_append, length_replicate]
    exact ⟨_, _, .exactly whole, prefix_append _ _⟩
  | true =>
    rcases place with ⟨rfl, chunks, text, line, data, complete, sized, positive, rfl⟩
    have length : (data ++ List.replicate left 0).length = data.length + left := by
      rw [length_append, length_replicate]
    have grown := complete.append (.mk sized positive length)
    exact ⟨_, _, grown.framed, List.replicate left 0 ++
      (crlf ++ (ascii "0" ++ (crlf ++ crlf))), by simp⟩

/-- What has to be sent is the beginning of a framed body, whatever the client
sends. -/
theorem begins_of_at {point : Point} (place : At body point taken sent)
    (ends : body ≠ .untilClose) : ∃ input output, Framed body input output ∧ sent <+: output := by
  cases point with
  | head left =>
    rcases Framed.exists ends with ⟨input, output, framed⟩
    rcases place with ⟨rfl, rfl⟩
    exact ⟨input, output, framed, nil_prefix⟩
  | copy | copying => exact Copies.begins place
  | sizeLine | ending =>
    rcases place with ⟨rfl, complete, rfl⟩
    exact ⟨_, _, complete.framed, by
      simp only [append_assoc]
      exact prefix_append _ _⟩
  | sizing size left =>
    rcases place with ⟨rfl, rfl, chunks, text, line, complete, sized, rfl⟩
    cases size with
    | zero => exact ⟨_, _, .chunked complete sized .nil (by decide), prefix_append _ _⟩
    | succ size =>
      have copies : Copies .chunked true (size + 1) (chunks ++ line) (chunks ++ line) :=
        ⟨rfl, rfl, chunks, text, line, [], complete, by rwa [length_nil, Nat.zero_add],
          by simp, by simp⟩
      exact copies.begins
  | chunkEnd read =>
    rcases place with ⟨copied, copies, _⟩
    exact copies.begins
  | trailerLine total read =>
    rcases place with ⟨rfl, chunks, text, line, trailers, complete, sized, _, _, _, _, rfl⟩
    exact ⟨_, _, .chunked complete sized .nil (by decide), prefix_append _ _⟩
  | closing left => exact ⟨_, _, place.2, prefix_rfl⟩
  | delivered => exact ⟨_, _, place, prefix_rfl⟩

end Fitting

/-! ## Uploads that nothing interrupts -/

section Uninterrupted

variable {upload next : Upload}

theorem readLine_awaited {read : List UInt8} {point : List UInt8 → Point}
    (stepped : upload.readLine read point finish = some next)
    (noFeed : lf ∉ read) (short : read.length < maxChunkLine) (ended : Line text line)
    (awaits : read ++ (upload.buffer ++ unread) = line ++ more) :
    ∃ taken, next = (upload.consume taken.length).goto (point (read ++ taken)) ∨
      next = finish ((upload.consume taken.length).goto (point (read ++ taken))) text := by
  rcases readLine_cases stepped noFeed short with ⟨taken, nonempty, split, inner, next⟩
  rw [← split, append_assoc, ← append_assoc] at awaits
  rcases next with ⟨rfl, _⟩ | ⟨rfl, complete, refused⟩ | ⟨text', line', rfl⟩
  · exact ⟨taken, .inl rfl⟩
  · have whole := ended.reached (append_ne_nil_of_right_ne_nil _ nonempty) inner complete awaits
    rw [whole, lineText_eq_some.mpr ⟨ended.ended, ended.noReturn⟩] at refused
    cases refused
  · rcases line'.unique ended awaits with ⟨rfl, _⟩
    exact ⟨taken, .inr rfl⟩

theorem readEnd_live {read : List UInt8} (live : upload.ended = none) (short : read.length < 2)
    (awaits : ∃ more, read ++ (upload.buffer ++ unread) = crlf ++ more)
    (stepped : upload.readEnd read = some next) : next.ended = none := by
  rcases awaits with ⟨more, awaits⟩
  rw [readEnd] at stepped
  split_ifs at stepped
  dsimp only at stepped
  split_ifs at stepped with part whole
  · cases stepped
    exact live
  · cases stepped
    exact live
  · -- Two bytes were read, and they are the ones that the stream holds.
    exfalso
    apply whole
    rw [← take_append_drop (2 - read.length) upload.buffer,
      append_assoc, ← append_assoc] at awaits
    apply append_inj_left awaits
    have length : crlf.length = 2 := rfl
    rw [length_append, length_take] at part ⊢
    omega

/-- Going on in a stream that holds the body does not end the upload. -/
theorem advance_live (stands : Stands request upload taken ahead sent) (live : upload.ended = none)
    (framed : Framed request.body input output)
    (stream : taken ++ (ahead ++ unread) = input ++ rest)
    (stepped : upload.advance = some next) : next.ended = none := by
  have awaits := (fits_of_at stands.place framed stream).awaits
  have tidy := stands.tidy live
  rw [advance] at stepped
  split at stepped
  · rw [beginBody] at stepped
    split at stepped <;> cases stepped <;> exact live
  · cases stepped
    exact live
  · split_ifs at stepped
    cases stepped
    exact live
  · cases stepped
    exact live
  · rename_i read here
    rw [here] at awaits tidy
    rcases tidy with ⟨noFeed, short, rfl⟩
    rcases awaits with ⟨size, text, line, more, sized, awaits⟩
    rcases readLine_awaited stepped noFeed short sized.toLine awaits with ⟨bytes, rfl | rfl⟩
    · exact live
    · rw [sizeRead, sized.size]
      exact live
  · cases stepped
    exact live
  · rename_i read here
    rw [here] at awaits tidy
    exact readEnd_live live tidy.1 (tidy.2 ▸ awaits) stepped
  · cases stepped
    exact live
  · rename_i total read here
    rw [here] at awaits tidy
    rcases tidy with ⟨noFeed, short, rfl⟩
    rcases awaits with ⟨text, line, more, ended, awaits, few⟩
    rcases readLine_awaited stepped noFeed short ended awaits with ⟨bytes, rfl | rfl⟩
    · exact live
    · rw [trailerRead]
      split_ifs with last many
      · exact live
      · have few := few last
        rw [ended.ended] at few
        omega
      · exact live
  · cases stepped
    exact live
  · split_ifs at stepped
    cases stepped
    exact live
  · cases stepped

/-- An event can happen, and does not interrupt the upload. -/
def Undisturbed (upload : Upload) (event : Event) : Prop :=
  event.live = true ∧ (upload.next event).isSome = true

instance (upload : Upload) (event : Event) : Decidable (Undisturbed upload event) :=
  inferInstanceAs (Decidable (_ ∧ _))

/-- Nothing but an interruption ends an upload whose stream holds the body. -/
theorem next_live (stands : Stands request upload taken ahead sent)
    (framed : Framed request.body input output)
    (stream : upload.received ++ unread = input ++ rest) (going : event.live)
    (stepped : upload.next event = some next) :
    next.ended = none := by
  rw [Upload.next] at stepped
  split_ifs at stepped with ended
  have live : upload.ended = none := by simpa using ended
  cases event with
  | advance =>
    rw [stands.received, append_assoc] at stream
    exact advance_live stands live framed stream stepped
  | read bytes =>
    rw [handle] at stepped
    split_ifs at stepped with _ closed
    · simp [Event.live, closed] at going
    · cases stepped
      exact live
  | wrote count =>
    rw [handle] at stepped
    split_ifs at stepped
    cases stepped
    exact live
  | readError | writeError | answered => cases going

theorem next_delivered (here : upload.point = .delivered) (going : event.live)
    (stepped : upload.next event = some next) :
    next.point = .delivered := by
  rw [Upload.next] at stepped
  split_ifs at stepped
  cases event with
  | advance =>
    rw [handle, advance, here] at stepped
    split_ifs at stepped
    cases stepped
    exact here
  | read bytes =>
    rw [handle] at stepped
    split_ifs at stepped with _ closed
    · simp [Event.live, closed] at going
    · cases stepped
      exact here
  | wrote count =>
    have nothing : upload.point.rest.length = 0 := by rw [here]; rfl
    rw [handle] at stepped
    split_ifs at stepped with within
    simp only [Bool.and_eq_true, decide_eq_true_eq] at within
    omega
  | readError | writeError | answered => cases going

/-- Every event of an upload that nothing interrupts brings it further. -/
theorem undisturbed_run (framed : Framed request.body input output)
    (guarded : Execution.Guarded step Undisturbed (start request early) events) :
    ∃ taken ahead sent, Stands request (run request early events) taken ahead sent ∧
      ∀ unread, (run request early events).received ++ unread = input ++ rest →
        (run request early events).ended = none ∧ ((run request early events).point = .delivered ∨
          events.length ≤ gauge (run request early events) taken ahead) := by
  apply Execution.run_history step (fun past upload =>
    ∃ taken ahead sent, Stands request upload taken ahead sent ∧
      ∀ unread, upload.received ++ unread = input ++ rest →
        upload.ended = none ∧ (upload.point = .delivered ∨
          past.length ≤ gauge upload taken ahead)) _ _ events guarded
  · exact ⟨_, _, _, stands_start request early, fun _ _ => ⟨rfl, .inr (Nat.zero_le _)⟩⟩
  · intro past event before allowed
    generalize Execution.run step (start request early) past = upload at before allowed ⊢
    rcases before with ⟨taken, ahead, sent, stands, before⟩
    rcases isSome_iff_exists.mp allowed.2 with ⟨next, stepped⟩
    rw [step, stepped, getD_some]
    rcases stands_next stands stepped with ⟨⟨more, grown⟩, taken', ahead', sent', stands', further⟩
    refine ⟨taken', ahead', sent', stands', fun unread stream => ?_⟩
    -- What this event reads was still to be read before it.
    rw [← grown, append_assoc] at stream
    have live := next_live stands framed stream allowed.1 stepped
    refine ⟨live, ?_⟩
    by_cases here : upload.point = .delivered
    · exact .inl (next_delivered here allowed.1 stepped)
    · have counted := (before _ stream).2.resolve_left here
      have further := further allowed.1 live here
      rw [length_append, length_singleton]
      exact .inr (by omega)

/-- An upload is never further than the end of its request. -/
theorem gauge_le (stands : Stands request upload taken ahead sent) (live : upload.ended = none)
    (framed : Framed request.body input output)
    (stream : upload.received ++ unread = input ++ rest) :
    gauge upload taken ahead ≤ 5 * (input.length + (request.head ++ output).length) + 4 := by
  rw [stands.received, append_assoc] at stream
  have fits := fits_of_at stands.place framed stream
  have inside := fits.within _ _ (stands.tidy live)
  have sends := fits.sent.length_le
  have written := congrArg List.length stands.written
  have late : stage upload.point ≤ 3 := by cases upload.point <;> simp [stage]
  simp only [length_append] at written ⊢
  rw [gauge]
  split_ifs <;> omega

theorem readLine_isSome (filled : upload.buffer ≠ []) (read : List UInt8)
    (point : List UInt8 → Point) (finish : Upload → List UInt8 → Upload) :
    (upload.readLine read point finish).isSome := by
  rw [readLine, if_neg filled]
  dsimp only
  split_ifs
  · split <;> rfl
  · rfl

theorem readEnd_isSome (filled : upload.buffer ≠ []) (read : List UInt8) :
    (upload.readEnd read).isSome := by
  rw [readEnd, if_neg filled]
  dsimp only
  split_ifs <;> rfl

theorem beginBody_isSome (ends : upload.body ≠ .untilClose) :
    upload.beginBody.isSome := by
  rw [beginBody]
  split
  · rfl
  · rfl
  · rfl
  · exact absurd (by assumption) ends

/-- An upload that has nothing to write and nothing to wait for goes on. -/
theorem advance_isSome (ends : upload.body ≠ .untilClose)
    (going : upload.point ≠ .delivered) (done : upload.point.rest = [])
    (awake : upload.point.reads → upload.buffer ≠ []) :
    upload.advance.isSome := by
  rw [advance]
  cases here : upload.point with
  | head rest =>
    rw [here] at done
    cases done
    exact beginBody_isSome ends
  | copy chunked left =>
    rw [here] at awake
    cases left with
    | zero => rfl
    | succ left =>
      dsimp only
      rw [if_neg (awake rfl)]
      rfl
  | copying | sizing | ending | closing =>
    rw [here] at done
    cases done
    rfl
  | sizeLine read =>
    rw [here] at awake
    exact readLine_isSome (awake rfl) read .sizeLine sizeRead
  | chunkEnd read =>
    rw [here] at awake
    exact readEnd_isSome (awake rfl) read
  | trailerLine total read =>
    rw [here] at awake
    exact readLine_isSome (awake rfl) read (.trailerLine total) (trailerRead total)
  | delivered => exact absurd here going

/-- The upload goes on without another byte of the client. -/
def GoesOn (upload : Upload) : Prop :=
  ∃ event, Undisturbed upload event ∧ ∀ bytes, event ≠ .read bytes

/-- The upload waits for the client, and takes what a read gives. -/
def Waits (upload : Upload) : Prop :=
  ∀ bytes, bytes ≠ [] → bytes.length ≤ upload.capacity → Undisturbed upload (.read bytes)

/-- An upload that is not delivered goes on, or has nothing to read from. -/
theorem goesOn_or_empty (live : upload.ended = none)
    (ends : upload.body ≠ .untilClose) (going : upload.point ≠ .delivered) :
    GoesOn upload ∨ (upload.buffer = [] ∧ upload.point.reads) := by
  have awake : ¬ upload.ended.isSome = true := by simp [live]
  by_cases done : upload.point.rest = []
  · by_cases waits : upload.buffer = [] ∧ upload.point.reads = true
    · exact .inr waits
    · left
      refine ⟨.advance, ⟨rfl, ?_⟩, fun _ => Event.noConfusion⟩
      rw [Upload.next, if_neg awake]
      apply advance_isSome ends going done
      intro reads empty
      exact waits ⟨empty, reads⟩
  · left
    refine ⟨.wrote upload.point.rest.length, ⟨rfl, ?_⟩, fun _ => Event.noConfusion⟩
    have positive := length_pos_iff.mpr done
    rw [Upload.next, if_neg awake, handle, if_pos (by simpa using positive)]
    rfl

theorem next_read (live : upload.ended = none) (empty : upload.buffer = [])
    (reads : upload.point.reads) (small : bytes.length ≤ upload.capacity) :
    (upload.next (.read bytes)).isSome := by
  rw [Upload.next, if_neg (by simp [live]), handle, if_pos (by simp [empty, reads, small])]
  split_ifs <;> rfl

/-- An upload that is not delivered goes on, or waits for a part of the body that
it has not received. -/
theorem goesOn_or_waits (stands : Stands request upload taken ahead sent)
    (live : upload.ended = none) (ends : request.body ≠ .untilClose)
    (framed : Framed request.body input output) (stream : upload.received ++ unread = input ++ rest)
    (going : upload.point ≠ .delivered) :
    GoesOn upload ∨ (upload.received.length < input.length ∧ Waits upload) := by
  rcases goesOn_or_empty live (stands.body ▸ ends) going with goesOn | ⟨empty, reads⟩
  · exact .inl goesOn
  · right
    have tidy := stands.tidy live
    have fits : taken.length < input.length := by
      rw [stands.received, append_assoc] at stream
      exact (fits_of_at stands.place framed stream).short _ _ tidy reads going
    rw [empty] at tidy
    have nothing := (tidy_read reads tidy []).1 going
    refine ⟨by rwa [stands.received, nothing, append_nil], ?_⟩
    intro bytes nonempty small
    exact ⟨by simpa [Event.live] using nonempty,
      next_read live empty reads small⟩

end Uninterrupted

/-! ## Accepted requests -/

/-- The client's bytes, with those that it still has to send, begin with a
body. -/
def Sends (upload : Upload) (input : List UInt8) : Prop :=
  ∃ unread rest, upload.received ++ unread = input ++ rest

/-- What an upload is for a client whose stream begins with a body. -/
structure Carries (request : ForwardRequest) (early : List UInt8)
    (events : List Event) (input output : List UInt8) : Prop where
  beginning : (run request early events).written <+: request.head ++ output
  whole : (run request early events).point = .delivered →
    (run request early events).written = request.head ++ output
  /-- Nothing but an interruption keeps the request from being delivered. -/
  uninterrupted : Execution.Guarded step Undisturbed (start request early) events →
    (run request early events).ended = none ∧
    (5 * (input.length + (request.head ++ output).length) + 4 <
      events.length → (run request early events).point = .delivered) ∧
    ((run request early events).point ≠ .delivered → GoesOn (run request early events) ∨
      ((run request early events).received.length < input.length ∧
        Waits (run request early events)))

theorem written_beginning {request : ForwardRequest}
    (stands : Stands request upload taken ahead sent)
    (framed : Framed request.body input output) (sends : Sends upload input) :
    upload.written <+: request.head ++ output := by
  rcases sends with ⟨unread, rest, stream⟩
  rw [stands.received, append_assoc] at stream
  have begins := (fits_of_at stands.place framed stream).sent
  have written : upload.written <+: request.head ++ sent := ⟨upload.point.rest, stands.written⟩
  exact written.trans ((prefix_append_right_inj _).mpr begins)

theorem written_whole (stands : Stands request upload taken ahead sent)
    (framed : Framed request.body input output) (sends : Sends upload input)
    (here : upload.point = .delivered) : upload.written = request.head ++ output := by
  rcases sends with ⟨unread, rest, stream⟩
  rw [stands.received, append_assoc] at stream
  have place := stands.place
  have written := stands.written
  rw [here] at place written
  rcases Framed.unique place framed stream with ⟨rfl, rfl⟩
  exact (append_nil _).symm.trans written

theorem carries (request : ForwardRequest) (ends : request.body ≠ .untilClose)
    (early : List UInt8) (events : List Event) (framed : Framed request.body input output)
    (sends : Sends (run request early events) input) :
    Carries request early events input output := by
  rcases stands_run request early events with ⟨taken, ahead, sent, stands⟩
  refine ⟨written_beginning stands framed sends,
    written_whole stands framed sends, fun guarded => ?_⟩
  rcases sends with ⟨unread, rest, stream⟩
  rcases undisturbed_run framed guarded with ⟨taken, ahead, sent, stands, counted⟩
  rcases counted unread stream with ⟨live, further⟩
  refine ⟨live, fun long => further.resolve_right fun counted => ?_,
    goesOn_or_waits stands live ends framed stream⟩
  have bound := gauge_le stands live framed stream
  omega

/-- The framing of a request never is the end of its connection. -/
theorem requestBodyLength_ends {body : BodyLength}
    (declared : requestBodyLength fields = some body) : body ≠ .untilClose := by
  rcases bind_eq_some_iff.mp declared with ⟨read, _, framing⟩
  split at framing <;> cases framing <;> exact BodyLength.noConfusion

/-- Nothing beyond an accepted request reaches its origin. Whatever comes in, the
origin is sent a beginning of the head and a framed body; and from a client
whose bytes begin with a body it is sent a beginning of the head and that body,
all of it once the request is delivered, so that two such clients cannot be told
apart by what follows. -/
theorem upload_carries_request {parseIpv6 : List UInt8 → Option Ipv6Addr}
    {text : List UInt8} {request : ForwardRequest}
    (accepted : rewriteRequest parseIpv6 text = some request)
    (early : List UInt8) (events : List Event) :
    (∃ input output, Framed request.body input output ∧
      (run request early events).written <+: request.head ++ output) ∧
    ∀ input output, Framed request.body input output → Sends (run request early events) input →
      Carries request early events input output ∧
      ∀ early' events', Sends (run request early' events') input →
        (run request early events).point = .delivered →
        (run request early' events').point = .delivered → (run request early' events').written =
          (run request early events).written := by
  rcases rewriteRequest_accepts accepted with ⟨client, authority, origin, _, _, accepts⟩
  have ends := requestBodyLength_ends accepts.body
  constructor
  · rcases stands_run request early events with ⟨taken, ahead, sent, stands⟩
    rcases begins_of_at stands.place ends with ⟨input, output, framed, begins⟩
    have written : (run request early events).written <+: _ := ⟨_, stands.written⟩
    exact ⟨input, output, framed, written.trans ((prefix_append_right_inj _).mpr begins)⟩
  · intro input output framed sends
    have here := carries request ends early events framed sends
    refine ⟨here, fun early' events' sends' delivered delivered' => ?_⟩
    have there := carries request ends early' events' framed sends'
    rw [here.whole delivered, there.whole delivered']

end Upload

namespace Upload.Sample

def head : List UInt8 := ascii "POST http://ab/ HTTP/1.1\r\nTransfer-Encoding: chunked"

def request : ForwardRequest where
  target := .domain (ascii "ab") 80
  head := ascii "POST / HTTP/1.1\r\nHost: ab\r\n" ++
    ascii "Transfer-Encoding: chunked\r\nConnection: close\r\n\r\n"
  body := .chunked
  headOnly := false

def input : List UInt8 := ascii "2\r\nab\r\n0\r\nA: 1\r\n\r\n"

def output : List UInt8 := ascii "2\r\nab\r\n0\r\n\r\n"

def early : List UInt8 := ascii "2\r"

def events : List Event :=
  [.wrote 40, .wrote 36, .advance, .advance,
    .read (ascii "\nab\r\n0\r\nA: 1\r\n\r\nGET"), .advance, .wrote 3,
    .advance, .advance, .wrote 1, .wrote 1, .advance, .advance, .advance,
    .wrote 2, .advance, .advance, .wrote 3, .advance, .advance, .advance, .wrote 2, .advance]

theorem framed : Framed request.body input output := by
  have line : SizeLine 2 (ascii "2") (ascii "2\r\n") :=
    ⟨⟨by decide, by decide, by decide, by decide⟩, by decide⟩
  have field : Line (ascii "A: 1") (ascii "A: 1\r\n") :=
    ⟨by decide, by decide, by decide, by decide⟩
  exact .chunked (Chunks.nil.append (.mk line (by decide)
    (by decide : (ascii "ab").length = 2))) .zero
    (TrailerLines.nil.append field (by decide)) (by decide)

end Upload.Sample

open Upload.Sample

theorem upload_carries_request_chunked : Execution.Guarded Upload.step Upload.Undisturbed
        (Upload.start request early) events ∧
      Upload.Carries request early events input output ∧
      (Upload.run request early events).point = .delivered := by
  have accepted : rewriteRequest Rewrite.Sample.parseIpv6 Upload.Sample.head = some request := by
    decide +kernel
  have sends : Upload.Sends (Upload.run request early events) input :=
    ⟨[], ascii "GET", by decide +kernel⟩
  have carries := (Upload.upload_carries_request accepted early events).2 _ _ framed sends
  exact ⟨by decide +kernel, carries.1, by decide +kernel⟩

/-- An origin that answers before it has the body is not sent the rest of it. -/
theorem answered_upload_cut : rewriteRequest Rewrite.Sample.parseIpv6 Upload.Sample.head =
        some request ∧
      Framed request.body input output ∧
      let upload := Upload.run request input [.wrote 76, .advance, .answered]
      upload.received = input ∧ upload.ended = some .answered ∧
        upload.written = request.head ∧ upload.written ≠ request.head ++ output :=
  ⟨by decide +kernel, framed, by decide +kernel⟩

end WarrenSdk.Net
