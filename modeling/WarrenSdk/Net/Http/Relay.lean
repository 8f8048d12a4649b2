import WarrenSdk.Net.Http.Upload

/-! # Where an upload stands

At every point of an upload, which bytes of the client it has taken and what it
has to send for them. Each event that does not interrupt it brings it further. -/

namespace WarrenSdk.Net

open Http List

namespace Upload

/-! ## Lines of the buffer -/

theorem upToLine_isPrefix (limit : Nat) (buffer : List UInt8) :
    upToLine limit buffer <+: buffer := by
  fun_induction upToLine limit buffer with
  | case1 | case2 => exact nil_prefix
  | case3 => simp
  | case4 limit byte rest other induction => exact (prefix_cons_inj byte).mpr induction

theorem length_upToLine (limit : Nat) (buffer : List UInt8) :
    (upToLine limit buffer).length ≤ limit := by
  fun_induction upToLine limit buffer with
  | case1 | case2 | case3 => simp
  | case4 limit byte rest other induction => simpa using induction

theorem upToLine_ne_nil {buffer : List UInt8} (positive : 0 < limit) (nonempty : buffer ≠ []) :
    upToLine limit buffer ≠ [] := by
  fun_cases upToLine limit buffer with
  | case1 => exact absurd positive (by decide)
  | case2 => exact absurd rfl nonempty
  | case3 | case4 => simp

/-- Only the last of the bytes may end the line. -/
theorem lf_not_mem_dropLast_upToLine (limit : Nat) (buffer : List UInt8) :
    lf ∉ (upToLine limit buffer).dropLast := by
  fun_induction upToLine limit buffer with
  | case1 | case2 | case3 => simp
  | case4 limit byte rest other induction =>
    cases line : upToLine limit rest with
    | nil => simp
    | cons next more =>
      rw [line] at induction
      rw [dropLast_cons_of_ne_nil (cons_ne_nil _ _)]
      exact not_mem_cons_of_ne_of_not_mem (Ne.symm other) induction

/-- What reading on in a line comes to: bytes are taken from the buffer, and the
line goes on, is refused or is complete. -/
theorem readLine_cases {upload next : Upload} {read : List UInt8}
    {point : List UInt8 → Point}
    (stepped : upload.readLine read point finish = some next)
    (noFeed : lf ∉ read) (short : read.length < maxChunkLine) :
    ∃ taken, taken ≠ [] ∧ taken ++ (upload.consume taken.length).buffer = upload.buffer ∧
      lf ∉ (read ++ taken).dropLast ∧
      ((next = (upload.consume taken.length).goto (point (read ++ taken)) ∧
          lf ∉ read ++ taken ∧ (read ++ taken).length < maxChunkLine) ∨
        (next = ((upload.consume taken.length).goto (point (read ++ taken))).stop .client ∧
          ((read ++ taken).getLast? = some lf ∨ maxChunkLine ≤ (read ++ taken).length) ∧
          lineText (read ++ taken) = none) ∨
        ∃ text, Line text (read ++ taken) ∧ next = finish
          ((upload.consume taken.length).goto (point (read ++ taken))) text) := by
  rw [readLine] at stepped
  split_ifs at stepped with empty
  dsimp only at stepped
  generalize known : upToLine (maxChunkLine - read.length) upload.buffer = taken at stepped
  have nonempty : taken ≠ [] := known ▸ upToLine_ne_nil (by omega) empty
  have begins : taken <+: upload.buffer := known ▸ upToLine_isPrefix _ _
  have fits : taken.length ≤ maxChunkLine - read.length := known ▸ length_upToLine _ _
  have last : lf ∉ (read ++ taken).dropLast := by
    have within := lf_not_mem_dropLast_upToLine (maxChunkLine - read.length) upload.buffer
    rw [known] at within
    rw [dropLast_append_of_ne_nil nonempty, mem_append, not_or]
    exact ⟨noFeed, within⟩
  have rest : taken ++ (upload.consume taken.length).buffer =
      upload.buffer := by
    rcases begins with ⟨rest, shape⟩
    simp [consume, ← shape]
  have length : (read ++ taken).length ≤ maxChunkLine := by
    rw [length_append]
    omega
  refine ⟨taken, nonempty, rest, last, ?_⟩
  split_ifs at stepped with complete
  · cases found : lineText (read ++ taken) with
    | none =>
      rw [found] at stepped
      cases stepped
      exact .inr (.inl ⟨rfl, by simpa using complete, rfl⟩)
    | some text =>
      rw [found] at stepped
      cases stepped
      rcases lineText_eq_some.mp found with ⟨shape, absent⟩
      refine .inr (.inr ⟨text, ⟨shape, absent, ?_, length⟩, rfl⟩)
      rw [shape] at last
      intro member
      apply last
      simp [crlf, dropLast_append_of_ne_nil, member]
  · cases stepped
    simp only [Bool.or_eq_true, decide_eq_true_eq, not_or, not_le] at complete
    refine .inl ⟨rfl, ?_, complete.2⟩
    generalize read ++ taken = line at last complete
    rcases eq_nil_or_concat' line with rfl | ⟨front, byte, rfl⟩
    · simp
    · simp only [dropLast_concat] at last
      simp only [List.getLast?_concat, Option.some.injEq] at complete
      simp [last, Ne.symm complete.1]

/-! ## Where an upload stands

What was taken of the client's bytes, and what has to be sent for them. -/

def Copies (body : BodyLength) (chunked : Bool) (left : Nat) (taken sent : List UInt8) : Prop :=
  sent = taken ∧
    if chunked then
      body = .chunked ∧ ∃ chunks text line data, Chunks chunks ∧
        SizeLine (data.length + left) text line ∧ 0 < data.length + left ∧
        taken = chunks ++ line ++ data
    else body = .exactly (taken.length + left)

def At (body : BodyLength) : Point → List UInt8 → List UInt8 → Prop
  | .head _, taken, sent => taken = [] ∧ sent = []
  | .copy chunked left, taken, sent => Copies body chunked left taken sent
  | .copying chunked left count _, taken, sent => Copies body chunked (left - count) taken sent
  | .sizeLine read, taken, sent => body = .chunked ∧ Chunks sent ∧ taken = sent ++ read
  | .sizing size _, taken, sent =>
    body = .chunked ∧ sent = taken ∧ ∃ chunks text line, Chunks chunks ∧
      SizeLine size text line ∧ taken = chunks ++ line
  | .chunkEnd read, taken, sent => ∃ copied, Copies body true 0 copied sent ∧ taken = copied ++ read
  | .ending _, taken, sent => body = .chunked ∧ Chunks taken ∧ sent = taken
  | .trailerLine total read, taken, sent =>
    body = .chunked ∧ ∃ chunks text line trailers, Chunks chunks ∧
      SizeLine 0 text line ∧ TrailerLines trailers ∧
      trailers.length = total ∧ total ≤ maxChunkLine ∧
      taken = chunks ++ line ++ trailers ++ read ∧ sent = chunks ++ line
  | .closing _, taken, sent => body = .chunked ∧ Framed body taken sent
  | .delivered, taken, sent => Framed body taken sent

def Tidy (point : Point) (buffer ahead : List UInt8) : Prop :=
  match point with
  | .sizeLine read | .trailerLine _ read => lf ∉ read ∧ read.length < maxChunkLine ∧ ahead = buffer
  | .chunkEnd read => read.length < 2 ∧ ahead = buffer
  | .copying _ left count _ =>
    0 < count ∧ count ≤ left ∧ count ≤ buffer.length ∧ ahead = buffer.drop count
  | .delivered => True
  | _ => ahead = buffer

theorem at_withRest (body : BodyLength) (point : Point)
    (rest : List UInt8) : At body (point.withRest rest) = At body point := by
  cases point <;> rfl

theorem tidy_withRest (point : Point) (rest : List UInt8) :
    Tidy (point.withRest rest) = Tidy point := by
  cases point <;> rfl

theorem rest_withRest {point : Point} (writes : point.rest ≠ [])
    (rest : List UInt8) : (point.withRest rest).rest = rest := by
  cases point <;> first | rfl | exact absurd rfl writes

/-- The bytes that an upload has taken and has ahead, and what it has to send
for them. -/
structure Stands (request : ForwardRequest) (upload : Upload)
    (taken ahead sent : List UInt8) : Prop where
  body : upload.body = request.body
  received : upload.received = taken ++ ahead
  written : upload.written ++ upload.point.rest = request.head ++ sent
  place : At request.body upload.point taken sent
  tidy : upload.ended = none → Tidy upload.point upload.buffer ahead

theorem stands_start (request : ForwardRequest) (early : List UInt8) :
    Stands request (start request early) [] early [] where
  body := rfl
  received := rfl
  written := by simp [start, Point.rest]
  place := ⟨rfl, rfl⟩
  tidy := fun _ => rfl

theorem Stands.stop (stands : Stands request upload taken ahead sent) (ending : Ending) :
    Stands request (upload.stop ending) taken ahead sent where
  body := stands.body
  received := stands.received
  written := stands.written
  place := stands.place
  tidy := fun live => by cases live

theorem Stands.move (stands : Stands request upload taken ahead sent)
    (done : upload.point.rest = []) {buffer : List UInt8} {point : Point}
    {ended : Option Ending} (shift : taken ++ ahead = taken' ++ ahead')
    (sends : sent ++ point.rest = sent')
    (place : At request.body point taken' sent')
    (tidy : ended = none → Tidy point buffer ahead') :
    Stands request { upload with buffer, point, ended } taken' ahead' sent' where
  body := stands.body
  received := stands.received.trans shift
  written := by
    have written := stands.written
    rw [done, append_nil] at written
    rw [written, append_assoc, sends]
  place := place
  tidy := tidy

/-! ## How far an upload is -/

def stage : Point → Nat
  | .head _ | .sizing _ _ => 0
  | .copying _ _ _ _ => 1
  | .copy _ _ | .ending _ | .closing _ => 2
  | _ => 3

/-- A number that grows with every step that is not in vain. -/
def gauge (upload : Upload) (taken ahead : List UInt8) : Nat :=
  5 * (taken.length + upload.written.length) + (if ahead = [] then 0 else 1) + stage upload.point

def Advances (request : ForwardRequest) (upload next : Upload) (taken ahead : List UInt8) : Prop :=
  next.received = upload.received ∧
  ∃ taken' ahead' sent', Stands request next taken' ahead' sent' ∧
    (next.ended = none → gauge upload taken ahead < gauge next taken' ahead')

section Advancing

variable {next : Upload}

variable {point : Point} {read : List UInt8}

theorem Copies.append {body : BodyLength} (copies : Copies body chunked left taken sent)
    (within : bytes.length ≤ left) :
    Copies body chunked (left - bytes.length) (taken ++ bytes) (sent ++ bytes) := by
  rcases copies with ⟨rfl, framed⟩
  refine ⟨rfl, ?_⟩
  cases chunked with
  | true =>
    rw [if_pos rfl] at framed ⊢
    rcases framed with ⟨body, chunks, text, line, data, complete, sized, positive, rfl⟩
    have size : (data ++ bytes).length + (left - bytes.length) = data.length + left := by
      rw [length_append]
      omega
    exact ⟨body, chunks, text, line, data ++ bytes, complete, by rwa [size], by rwa [size], by simp⟩
  | false =>
    rw [if_neg (by decide)] at framed ⊢
    rw [framed, length_append]
    congr 1
    omega

theorem lost_received (upload : Upload) : upload.lost.received = upload.received := by
  rw [lost]
  split_ifs <;> rfl

theorem tidy_read (reads : point.reads) (tidy : Tidy point [] ahead) (bytes : List UInt8) :
    (point ≠ .delivered → ahead = []) ∧ Tidy point bytes (ahead ++ bytes) := by
  cases point with
  | copy chunked left =>
    cases tidy
    exact ⟨fun _ => rfl, rfl⟩
  | sizeLine | trailerLine =>
    rcases tidy with ⟨noFeed, short, rfl⟩
    exact ⟨fun _ => rfl, noFeed, short, rfl⟩
  | chunkEnd read =>
    rcases tidy with ⟨short, rfl⟩
    exact ⟨fun _ => rfl, short, rfl⟩
  | delivered => exact ⟨fun open_ => absurd rfl open_, trivial⟩
  | head | copying | sizing | ending | closing => cases reads

section

variable (stands : Stands request upload taken ahead sent)

include stands

theorem Stands.stood (here : upload.point = point) (live : upload.ended = none) :
    upload.point.rest = point.rest ∧ At request.body point taken sent ∧
      Tidy point upload.buffer ahead := by
  subst here
  exact ⟨rfl, stands.place, stands.tidy live⟩

theorem Stands.advances (done : upload.point.rest = []) (further : stage upload.point < stage point)
    (sends : sent ++ point.rest = sent') (place : At request.body point taken sent')
    (tidy : Tidy point upload.buffer ahead) :
    Advances request upload (upload.goto point) taken ahead := by
  refine ⟨rfl, taken, ahead, sent', stands.move done rfl sends place fun _ => tidy, fun _ => ?_⟩
  simp only [gauge, goto]
  omega

theorem Stands.takes (done : upload.point.rest = []) (nonempty : bytes ≠ [])
    (shift : ahead = bytes ++ ahead') {buffer : List UInt8}
    {ended : Option Ending} (sends : sent ++ point.rest = sent')
    (place : At request.body point (taken ++ bytes) sent')
    (tidy : ended = none → Tidy point buffer ahead') :
    Advances request upload { upload with buffer, point, ended } taken ahead := by
  have shifted : taken ++ ahead = (taken ++ bytes) ++ ahead' := by rw [shift, append_assoc]
  refine ⟨rfl, taken ++ bytes, ahead', sent',
    stands.move done shifted sends place tidy, fun _ => ?_⟩
  have positive := length_pos_iff.mpr nonempty
  have late : stage upload.point ≤ 3 := by cases upload.point <;> simp [stage]
  simp only [gauge, length_append]
  split_ifs <;> omega

theorem advances_beginBody (here : upload.point = .head [])
    (live : upload.ended = none) (stepped : upload.beginBody = some next) :
    Advances request upload next taken ahead := by
  have early : stage upload.point < 2 := by simp [here, stage]
  rcases stands.stood here live with ⟨done, place, tidy⟩
  rcases place with ⟨rfl, rfl⟩
  rw [beginBody, stands.body] at stepped
  cases body : request.body with
  | none =>
    rw [body] at stepped
    cases stepped
    exact stands.advances done (Nat.lt_succ_of_lt early) rfl (by rw [body]; exact .none) trivial
  | exactly length =>
    rw [body] at stepped
    cases stepped
    exact stands.advances done early rfl (by rw [body]; exact ⟨rfl, by simp⟩) tidy
  | chunked =>
    rw [body] at stepped
    cases stepped
    exact stands.advances done (Nat.lt_succ_of_lt early) rfl (by rw [body]; exact ⟨rfl, .nil, rfl⟩)
      ⟨not_mem_nil, by decide, tidy⟩
  | untilClose =>
    rw [body] at stepped
    cases stepped

theorem advances_copied (here : upload.point = .copy chunked 0) (live : upload.ended = none) :
    Advances request upload (upload.goto (if chunked then .chunkEnd [] else .delivered))
      taken ahead := by
  rcases stands.stood here live with ⟨done, place, tidy⟩
  cases chunked with
  | true =>
    exact stands.advances done (by simp [here, stage]) (append_nil sent)
      ⟨taken, place, (append_nil taken).symm⟩ ⟨by decide, tidy⟩
  | false =>
    rcases place with ⟨rfl, body⟩
    rw [if_neg (by decide), Nat.add_zero] at body
    exact stands.advances done (by simp [here, stage]) (append_nil sent)
      (by rw [body]; exact .exactly rfl) trivial

theorem advances_copy (here : upload.point = .copy chunked (left + 1))
    (live : upload.ended = none) (filled : upload.buffer ≠ []) :
    Advances request upload (upload.goto (.copying chunked (left + 1)
      (min upload.buffer.length (left + 1))
      (upload.buffer.take (min upload.buffer.length (left + 1))))) taken ahead := by
  rcases stands.stood here live with ⟨done, place, (tidy : ahead = upload.buffer)⟩
  have size := length_pos_iff.mpr filled
  generalize known : min upload.buffer.length (left + 1) = count
  have length : (upload.buffer.take count).length = count := by
    rw [length_take]
    omega
  have some : upload.buffer.take count ≠ [] := by
    rw [← length_pos_iff]
    omega
  have copied := place.append (by omega : (upload.buffer.take count).length ≤ left + 1)
  rw [length] at copied
  exact stands.takes done some (by rw [tidy, take_append_drop]) rfl copied
    fun _ => ⟨by omega, by omega, by omega, rfl⟩

theorem advances_copying {count : Nat} (here : upload.point = .copying chunked left count [])
    (live : upload.ended = none) : Advances request upload
      ((upload.consume count).goto (.copy chunked (left - count))) taken ahead := by
  rcases stands.stood here live with ⟨done, place, tidy⟩
  rcases tidy with ⟨positive, within, filled, rfl⟩
  refine ⟨rfl, taken, upload.buffer.drop count, sent,
    stands.move done rfl (append_nil sent) place fun _ => rfl, fun _ => ?_⟩
  simp [gauge, goto, consume, here, stage]

theorem advances_sizing (here : upload.point = .sizing size []) (live : upload.ended = none) :
    Advances request upload (upload.goto (if size = 0 then .trailerLine 0 [] else .copy true size))
      taken ahead := by
  rcases stands.stood here live with ⟨done, place, tidy⟩
  rcases place with ⟨body, rfl, chunks, text, line, complete, sized, rfl⟩
  split_ifs with last
  · subst last
    exact stands.advances done (by simp [here, stage]) (append_nil _)
      ⟨body, chunks, text, line, [], complete, sized, .nil, rfl, by decide,
        by simp, rfl⟩ ⟨not_mem_nil, by decide, tidy⟩
  · have positive : 0 < ([] : List UInt8).length + size := by
      rw [length_nil]
      omega
    exact stands.advances done (by simp [here, stage]) (append_nil _)
      ⟨rfl, body, chunks, text, line, [], complete,
        by rwa [length_nil, Nat.zero_add], positive, by simp⟩ tidy

theorem advances_ending (here : upload.point = .ending []) (live : upload.ended = none) :
    Advances request upload (upload.goto (.sizeLine [])) taken ahead := by
  rcases stands.stood here live with ⟨done, place, tidy⟩
  rcases place with ⟨body, complete, rfl⟩
  exact stands.advances done (by simp [here, stage]) (append_nil _)
    ⟨body, complete, (append_nil _).symm⟩ ⟨not_mem_nil, by decide, tidy⟩

theorem advances_closing (here : upload.point = .closing []) :
    Advances request upload (upload.goto .delivered) taken ahead := by
  have done : upload.point.rest = [] := by rw [here]; rfl
  have place := stands.place
  rw [here] at place
  exact stands.advances done (by simp [here, stage]) (append_nil _) place.2 trivial

theorem advances_sizeLine (here : upload.point = .sizeLine read) (live : upload.ended = none)
    (stepped : upload.readLine read .sizeLine sizeRead = some next) :
    Advances request upload next taken ahead := by
  rcases stands.stood here live with ⟨done, place, tidy⟩
  rcases place with ⟨body, complete, rfl⟩
  rcases tidy with ⟨noFeed, short, rfl⟩
  rcases readLine_cases stepped noFeed short with ⟨bytes, nonempty, rest, _, next⟩
  -- Nothing is sent for a line that is not complete, or refused.
  have unsent : At request.body (.sizeLine (read ++ bytes))
      (sent ++ read ++ bytes) sent := ⟨body, complete, by simp⟩
  rcases next with ⟨rfl, noFeed, short⟩ | ⟨rfl, _⟩ | ⟨text, line, rfl⟩
  · exact stands.takes done nonempty rest.symm (append_nil _) unsent fun _ => ⟨noFeed, short, rfl⟩
  · exact stands.takes done nonempty rest.symm (append_nil _) unsent fun live => by cases live
  · rw [sizeRead]
    cases found : chunkSize text with
    | none =>
      exact stands.takes done nonempty rest.symm (append_nil _) unsent fun live => by cases live
    | some size =>
      exact stands.takes done nonempty rest.symm rfl
        ⟨body, by rw [append_assoc, line.ended]; rfl, sent, text,
          read ++ bytes, complete, ⟨line, found⟩, by simp⟩ fun _ => rfl

theorem advances_trailerLine {total : Nat}
    (here : upload.point = .trailerLine total read) (live : upload.ended = none)
    (stepped : upload.readLine read (.trailerLine total) (trailerRead total) = some next) :
    Advances request upload next taken ahead := by
  rcases stands.stood here live with ⟨done, place, tidy⟩
  rcases place with ⟨body, chunks, text, line, trailers, complete, sized,
    fields, length, few, rfl, rfl⟩
  rcases tidy with ⟨noFeed, short, rfl⟩
  rcases readLine_cases stepped noFeed short with ⟨bytes, nonempty, rest, _, next⟩
  have unsent : At request.body (.trailerLine total (read ++ bytes))
      (chunks ++ line ++ trailers ++ read ++ bytes) (chunks ++ line) :=
    ⟨body, chunks, text, line, trailers, complete, sized, fields, length, few, by simp, rfl⟩
  rcases next with ⟨rfl, noFeed, short⟩ | ⟨rfl, _⟩ | ⟨field, ended, rfl⟩
  · exact stands.takes done nonempty rest.symm (append_nil _) unsent fun _ => ⟨noFeed, short, rfl⟩
  · exact stands.takes done nonempty rest.symm (append_nil _) unsent fun live => by cases live
  · rw [trailerRead]
    split_ifs with last many
    · subst last
      have blank : read ++ bytes = crlf := ended.ended
      have framed : Framed request.body (chunks ++ line ++ trailers ++ read ++ bytes)
          (chunks ++ line ++ crlf) := by
        rw [body, append_assoc _ read, blank]
        exact .chunked complete sized fields (length ▸ few)
      exact stands.takes done nonempty rest.symm rfl ⟨body, framed⟩ fun _ => rfl
    · exact stands.takes done nonempty rest.symm (append_nil _) unsent fun live => by cases live
    · have grown := fields.append ended last
      have counted : (trailers ++ (read ++ bytes)).length = total + (field ++ crlf).length := by
        rw [length_append, length, ended.ended]
      exact stands.takes done nonempty rest.symm (append_nil _)
        ⟨body, chunks, text, line, trailers ++ (read ++ bytes), complete, sized,
          grown, counted, by omega, by simp, rfl⟩
        fun _ => ⟨not_mem_nil, by decide, rfl⟩

theorem advances_chunkEnd (here : upload.point = .chunkEnd read)
    (live : upload.ended = none) (stepped : upload.readEnd read = some next) :
    Advances request upload next taken ahead := by
  rcases stands.stood here live with ⟨done, place, tidy⟩
  rcases place with ⟨copied, copies, rfl⟩
  rcases tidy with ⟨short, rfl⟩
  rw [readEnd] at stepped
  split_ifs at stepped with empty
  dsimp only at stepped
  have size := length_pos_iff.mpr empty
  generalize known : upload.buffer.take (2 - read.length) = bytes at stepped
  have length : bytes.length = min (2 - read.length) upload.buffer.length := by
    rw [← known, length_take]
  have nonempty : bytes ≠ [] := by
    rw [← length_pos_iff]
    omega
  have rest : upload.buffer = bytes ++ upload.buffer.drop bytes.length := by
    rcases take_prefix (2 - read.length) upload.buffer with ⟨more, shape⟩
    rw [known] at shape
    rw [← shape, drop_left]
  have unsent : At request.body (.chunkEnd (read ++ bytes))
      (copied ++ read ++ bytes) sent := ⟨copied, copies, by simp⟩
  split_ifs at stepped with more ends
  · cases stepped
    exact stands.takes done nonempty rest (append_nil _) unsent fun _ => ⟨more, rfl⟩
  · cases stepped
    rcases copies with ⟨rfl, body, chunks, text, line, data, complete, sized, positive, rfl⟩
    have whole := complete.append (.mk sized positive rfl)
    have shape : chunks ++ (line ++ data ++ crlf) = chunks ++ line ++ data ++ read ++ bytes := by
      rw [append_assoc _ read, ends]
      simp
    rw [shape] at whole
    exact stands.takes done nonempty rest rfl
      ⟨body, whole, by rw [append_assoc _ read, ends]; rfl⟩ fun _ => rfl
  · cases stepped
    exact stands.takes done nonempty rest (append_nil _) unsent fun live => by cases live

/-- Going on without waiting brings the upload further. -/
theorem advances_of_advance (live : upload.ended = none)
    (open_ : upload.point ≠ .delivered) (stepped : upload.advance = some next) :
    Advances request upload next taken ahead := by
  rw [advance] at stepped
  split at stepped
  · exact advances_beginBody stands (by assumption) live stepped
  · cases stepped
    exact advances_copied stands (by assumption) live
  · split_ifs at stepped with empty
    cases stepped
    exact advances_copy stands (by assumption) live empty
  · cases stepped
    exact advances_copying stands (by assumption) live
  · exact advances_sizeLine stands (by assumption) live stepped
  · cases stepped
    exact advances_sizing stands (by assumption) live
  · exact advances_chunkEnd stands (by assumption) live stepped
  · cases stepped
    exact advances_ending stands (by assumption) live
  · exact advances_trailerLine stands (by assumption) live stepped
  · cases stepped
    exact advances_closing stands (by assumption)
  · exact absurd (by assumption) open_
  · cases stepped

theorem Stands.lost : Stands request upload.lost taken ahead sent := by
  rw [Upload.lost]
  split_ifs
  · exact stands
  · exact stands.stop .client

theorem Stands.discards (here : upload.point = .delivered) (stepped : upload.advance = some next) :
    next.received = upload.received ∧ Stands request next taken ahead sent := by
  rw [advance, here] at stepped
  dsimp only at stepped
  split_ifs at stepped
  cases stepped
  refine ⟨rfl, stands.body, stands.received, stands.written, stands.place, ?_⟩
  intro _
  rw [consume, here]
  trivial

theorem Stands.fills (tidy : Tidy upload.point bytes (ahead ++ bytes)) : Stands request
      { upload with buffer := bytes, received := upload.received ++ bytes }
      taken (ahead ++ bytes) sent where
  body := stands.body
  received := by rw [stands.received, append_assoc]
  written := stands.written
  place := stands.place
  tidy := fun _ => tidy

theorem Stands.wrote {count : Nat} (writes : upload.point.rest ≠ []) : Stands request { upload with
      point := upload.point.withRest (upload.point.rest.drop count)
      written := upload.written ++ upload.point.rest.take count }
      taken ahead sent where
  body := stands.body
  received := stands.received
  written := by rw [rest_withRest writes, append_assoc, take_append_drop, stands.written]
  place := by
    rw [at_withRest]
    exact stands.place
  tidy := by
    intro live
    rw [tidy_withRest]
    exact stands.tidy live

/-- What an upload is after an event. A live one brings it further, until the
request is delivered. -/
theorem stands_next {event : Event} (stepped : upload.next event = some next) :
    upload.received <+: next.received ∧
    ∃ taken' ahead' sent', Stands request next taken' ahead' sent' ∧
      (event.live → next.ended = none → upload.point ≠ .delivered →
        gauge upload taken ahead < gauge next taken' ahead') := by
  rw [Upload.next] at stepped
  split_ifs at stepped with ended
  have live : upload.ended = none := by simpa using ended
  cases event with
  | advance =>
    by_cases here : upload.point = .delivered
    · rcases stands.discards here stepped with ⟨received, discards⟩
      exact ⟨received ▸ prefix_rfl, taken, ahead, sent, discards,
        fun _ _ going => absurd here going⟩
    · rcases advances_of_advance stands live here stepped with
        ⟨received, taken', ahead', sent', stands', further⟩
      exact ⟨received ▸ prefix_rfl, taken', ahead', sent', stands', fun _ going _ => further going⟩
  | read bytes =>
    rw [handle] at stepped
    split_ifs at stepped with waits closed
    · cases stepped
      exact ⟨lost_received upload ▸ prefix_rfl, taken, ahead, sent,
        stands.lost, fun live => by simp [Event.live, closed] at live⟩
    · cases stepped
      simp only [Bool.and_eq_true, decide_eq_true_eq] at waits
      have tidy := stands.tidy live
      rw [waits.1.1] at tidy
      rcases tidy_read waits.1.2 tidy bytes with ⟨empty, tidy⟩
      refine ⟨prefix_append _ _, taken, ahead ++ bytes, sent,
        stands.fills tidy, fun _ _ going => ?_⟩
      rw [empty going]
      simp [gauge, closed]
  | readError =>
    rw [handle] at stepped
    split_ifs at stepped
    cases stepped
    exact ⟨lost_received upload ▸ prefix_rfl, taken, ahead, sent,
      stands.lost, fun live => by cases live⟩
  | wrote count =>
    rw [handle] at stepped
    split_ifs at stepped with within
    cases stepped
    simp only [Bool.and_eq_true, decide_eq_true_eq] at within
    have writes : upload.point.rest ≠ [] := by
      rw [← length_pos_iff]
      omega
    refine ⟨prefix_rfl, taken, ahead, sent, stands.wrote writes, fun _ _ _ => ?_⟩
    have same : stage (upload.point.withRest (upload.point.rest.drop count)) =
        stage upload.point := by
      cases upload.point <;> rfl
    simp only [gauge, same, length_append, length_take]
    omega
  | writeError =>
    rw [handle] at stepped
    split_ifs at stepped
    cases stepped
    exact ⟨prefix_rfl, taken, ahead, sent, stands.stop _, fun live => by cases live⟩
  | answered =>
    rw [handle] at stepped
    split at stepped
    · cases stepped
    · cases stepped
      exact ⟨prefix_rfl, taken, ahead, sent, stands.stop _, fun live => by cases live⟩

theorem Stands.after (events : List Event) : ∃ taken ahead sent,
      Stands request (Execution.run step upload events) taken ahead sent := by
  apply Execution.run_invariant step
    (fun upload => ∃ taken ahead sent, Stands request upload taken ahead sent)
  · exact ⟨_, _, _, stands⟩
  · intro upload event standing
    rcases standing with ⟨taken, ahead, sent, stands⟩
    rw [step]
    cases stepped : upload.next event with
    | none => exact ⟨taken, ahead, sent, stands⟩
    | some next =>
      rcases stands_next stands stepped with ⟨_, taken', ahead', sent', stands', _⟩
      exact ⟨taken', ahead', sent', stands'⟩

end

/-- Every run of an upload stands somewhere. -/
theorem stands_run (request : ForwardRequest) (early : List UInt8) (events : List Event) :
    ∃ taken ahead sent, Stands request (run request early events) taken ahead sent :=
  (stands_start request early).after events

end Advancing

end Upload

end WarrenSdk.Net
