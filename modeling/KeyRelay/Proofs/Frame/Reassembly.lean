import KeyRelay.Proofs.Frame.Receive
import Mathlib.Algebra.Ring.Nat

/-! # Frames one after another

Successive reads, each with a limit of its own, give back the payloads of the frames
on a stream, however the bytes were cut up on the way, and take the bytes of these
frames and no others. The first read that fails says why: the frame is beyond the
limit, of which only the header is then taken, or the stream ended or failed within
the frame. -/
set_option autoImplicit false

namespace KeyRelay.Frame

/-- One read for each limit, whatever came of the reads before. -/
def receiveEach (source : Source) : List Nat → List (Except FrameError (List UInt8)) × Source
  | [] => ([], source)
  | max :: rest =>
    let (outcome, next) := receive source max
    let (outcomes, last) := receiveEach next rest
    (outcome :: outcomes, last)

/-- A payload that is sent, and the limit under which it is read. -/
structure Sent where
  payload : List UInt8
  limit : Nat

/-- The payload is within the limit, and its length within the header. -/
structure Sent.Allowed (sent : Sent) : Prop where
  fits : sent.payload.length ≤ sent.limit
  short : sent.payload.length < UInt32.size

/-- The bytes of frames that are sent one after another. -/
def wire (frames : List Sent) : List UInt8 :=
  frames.flatMap fun sent => whole sent.payload

theorem length_wire (frames : List Sent) :
    (wire frames).length = (frames.map fun sent => headerLength + sent.payload.length).sum := by
  induction frames with
  | nil => rfl
  | cons sent rest ih =>
    rw [wire, List.flatMap_cons, List.length_append, length_whole, List.map_cons, List.sum_cons,
      ← ih, wire]

/-- A read that gives a payload has taken its frame. -/
theorem bytes_of_receive {source next : Source} {max : Nat} {payload : List UInt8}
    (success : receive source max = (.ok payload, next)) :
    source.bytes = whole payload ++ next.bytes := by
  unfold receive at success
  split at success
  next => simp at success
  next received middle headerRead =>
    obtain ⟨four, headerBytes⟩ := Source.readExact_bytes headerRead
    split at success
    next => simp at success
    next length announcement =>
      have declared : bigEndian received = length := by
        unfold announced at announcement
        dsimp only at announcement
        split at announcement
        next => exact Except.ok.inj announcement
        next => simp at announcement
      split at success
      next => simp at success
      next body done bodyRead =>
        simp only [Prod.mk.injEq, Except.ok.injEq] at success
        obtain ⟨rfl, rfl⟩ := success
        obtain ⟨size, bodyBytes⟩ := Source.readExact_bytes bodyRead
        rw [headerBytes, bodyBytes, whole, size, ← declared, header_bigEndian four,
          List.append_assoc]

/-- A read that refuses a frame has taken its header. -/
theorem receive_refused {source : Source} {length max : Nat} {rest : List UInt8}
    (front : source.stream = header length ++ rest) (short : length < UInt32.size)
    (beyond : max < length) :
    ∃ next : Source, receive source max = (.error (.oversized length max), next) ∧
      source.bytes = header length ++ next.bytes := by
  have enough : headerLength ≤ source.stream.length := by
    rw [front, List.length_append, length_header]
    omega
  obtain ⟨next, headerRead, _, _⟩ := Source.readExact_of_le enough
  rw [front, List.take_left' (length_header _)] at headerRead
  refine ⟨next, ?_, (Source.readExact_bytes headerRead).2⟩
  have refused : ¬ length ≤ max := Nat.not_le.mpr beyond
  simp only [receive, headerRead, announced, bigEndian_header short, if_neg refused]

/-- Each read takes the frame that was sent for it. -/
theorem receiveEach_wire {frames : List Sent} {source : Source} {rest : List UInt8}
    (front : source.stream = wire frames ++ rest) (allowed : ∀ sent ∈ frames, sent.Allowed) :
    ∃ next : Source, receiveEach source (frames.map Sent.limit) =
        (frames.map fun sent => .ok sent.payload, next) ∧
      next.stream = rest ∧ next.ending = source.ending ∧
      source.bytes = wire frames ++ next.bytes := by
  induction frames generalizing source with
  | nil => exact ⟨source, rfl, front, rfl, rfl⟩
  | cons sent others ih =>
    rw [wire, List.flatMap_cons, List.append_assoc] at front
    obtain ⟨fits, short⟩ := allowed sent List.mem_cons_self
    obtain ⟨middle, received, middleStream, middleEnding⟩ := receive_whole front fits short
    obtain ⟨next, reads, nextStream, nextEnding, middleBytes⟩ :=
      ih middleStream fun other member => allowed other (List.mem_cons_of_mem _ member)
    refine ⟨next, ?_, nextStream, nextEnding.trans middleEnding, ?_⟩
    · simp only [List.map_cons, receiveEach, received, reads]
    · rw [bytes_of_receive received, middleBytes, ← List.append_assoc, wire, wire,
        List.flatMap_cons]

/-- A frame is cut within the header, or within a payload that is allowed. -/
structure Cut (payload : List UInt8) (limit : Nat) (cut : List UInt8) : Prop where
  part : cut <+: whole payload
  shorter : cut.length < (whole payload).length
  allowed : payload.length ≤ limit ∨ cut.length < headerLength

theorem receive_of_cut {source : Source} {payload : List UInt8} {limit : Nat}
    (cut : Cut payload limit source.stream) (short : payload.length < UInt32.size) :
    ∃ next : Source, receive source limit = (.error (.ofFailure source.ending), next) := by
  apply receive_cut
  by_cases within : source.stream.length < headerLength
  · exact .inl within
  · have announced := declared_of_cut cut.part (Nat.not_lt.mp within) short
    have shorter := cut.shorter
    rw [length_whole] at shorter
    rw [announced]
    exact .inr ⟨cut.allowed.resolve_right within, shorter⟩

/-- Frames that arrive in any pieces, with reads interrupted anywhere, are read
back in order, and as many reads as there are take the bytes of as many frames.
Behind them a frame beyond its limit is refused with only its header taken, and a
frame that is cut ends the read as the stream ends: because the peer closed, or
with the failure that was met. -/
theorem frame_reassembly (frames : List Sent) (allowed : ∀ sent ∈ frames, sent.Allowed)
    (arrivals ending : Source) (flows : arrivals.Flows) :
    (∀ (payload : List UInt8) (max : Nat), payload.length ≤ max →
      payload.length < UInt32.size → encode payload max = .ok (whole payload)) ∧
    (∀ suffix, arrivals.bytes = wire frames ++ suffix → ∀ count, count ≤ frames.length →
      ∃ next, receiveEach (arrivals ++ ending) ((frames.take count).map Sent.limit) =
          ((frames.take count).map fun sent => .ok sent.payload, next) ∧
        Source.bytes (arrivals ++ ending) = wire (frames.take count) ++ next.bytes ∧
        (wire (frames.take count)).length =
          ((frames.take count).map fun sent => 4 + sent.payload.length).sum) ∧
    (∀ (payload : List UInt8) (limit : Nat) (suffix : List UInt8), limit < payload.length →
      payload.length < UInt32.size →
      arrivals.bytes = wire frames ++ (header payload.length ++ suffix) →
      ∃ next last, receiveEach (arrivals ++ ending) (frames.map Sent.limit) =
          (frames.map fun sent => .ok sent.payload, next) ∧
        receive next limit = (.error (.oversized payload.length limit), last) ∧
        Source.bytes (arrivals ++ ending) =
          wire frames ++ (header payload.length ++ last.bytes)) ∧
    ∀ (payload : List UInt8) (limit : Nat) (cut : List UInt8), Cut payload limit cut →
      payload.length < UInt32.size →
      arrivals.bytes = wire frames ++ cut →
      ∃ next, receiveEach (arrivals ++ ending) (frames.map Sent.limit) =
          (frames.map fun sent => .ok sent.payload, next) ∧
        (ending = [] ∨ (∃ more, ending = .chunk [] :: more) →
          (receive next limit).1 = .error .peerClosed) ∧
        ∀ cause more, ending = .failure cause :: more → cause.kind ≠ .interrupted →
          (receive next limit).1 = .error (.ofFailure cause) := by
  have content : Source.stream (arrivals ++ ending) = arrivals.bytes ++ ending.stream :=
    Source.stream_append flows ending
  refine ⟨?_, ?_, ?_, ?_⟩
  · intro payload max fits short
    rw [encode, if_pos ⟨fits, short⟩, whole]
  · intro suffix delivered count _
    have parts : wire frames = wire (frames.take count) ++ wire (frames.drop count) := by
      rw [wire, wire, wire, ← List.flatMap_append, List.take_append_drop]
    have front : Source.stream (arrivals ++ ending) =
        wire (frames.take count) ++ (wire (frames.drop count) ++ suffix ++ ending.stream) := by
      rw [content, delivered, parts, List.append_assoc, List.append_assoc, List.append_assoc]
    obtain ⟨next, reads, _, _, taken⟩ :=
      receiveEach_wire front fun sent member => allowed sent (List.mem_of_mem_take member)
    exact ⟨next, reads, taken, length_wire _⟩
  · intro payload limit suffix beyond short delivered
    rw [delivered, List.append_assoc] at content
    obtain ⟨next, reads, nextStream, _, taken⟩ := receiveEach_wire content allowed
    rw [List.append_assoc] at nextStream
    obtain ⟨last, refused, header⟩ := receive_refused nextStream short beyond
    exact ⟨next, last, reads, refused, by rw [taken, header]⟩
  · intro payload limit cut frameCut short delivered
    rw [delivered, List.append_assoc] at content
    obtain ⟨next, reads, nextStream, nextEnding, _⟩ := receiveEach_wire content allowed
    rw [Source.ending_append flows] at nextEnding
    have failed : ending.stream = [] →
        (receive next limit).1 = .error (.ofFailure ending.ending) := by
      intro spent
      rw [spent, List.append_nil] at nextStream
      rw [← nextStream] at frameCut
      obtain ⟨last, received⟩ := receive_of_cut frameCut short
      rw [received, nextEnding]
    refine ⟨next, reads, ?_, ?_⟩
    · rintro (rfl | ⟨more, rfl⟩)
      · exact failed rfl
      · exact failed rfl
    · rintro cause more rfl final
      have spent : Source.stream (.failure cause :: more) = [] := if_neg final
      have reason : Source.ending (.failure cause :: more) = cause := if_neg final
      rw [failed spent, reason]

/-- Two frames and the front of a third, in pieces that respect no boundary. -/
def threeArrivals : Source :=
  [.chunk [0, 0], .failure ⟨.interrupted, none⟩, .chunk [0, 0, 0, 0, 0], .chunk [2, 7],
    .chunk [8, 0, 0, 0, 3, 9]]

/-- The third frame is refused under a limit of two, and cut under a limit of three. -/
theorem frame_reassembly_three :
    (∃ next last, receiveEach threeArrivals [0, 5] = ([.ok [], .ok [7, 8]], next) ∧
      receive next 2 = (.error (.oversized 3 2), last) ∧ last.bytes = [9]) ∧
    ∃ next, receiveEach (threeArrivals ++ [.failure ⟨.timedOut, none⟩]) [0, 5] =
        ([.ok [], .ok [7, 8]], next) ∧
      (receive next 3).1 = .error (.stream ⟨.timedOut, none⟩) := by
  have allowed : ∀ sent ∈ [(⟨[], 0⟩ : Sent), ⟨[7, 8], 5⟩], sent.Allowed := by
    intro sent member
    rcases List.mem_cons.mp member with rfl | member
    · exact ⟨by decide, by decide⟩
    · rw [List.mem_singleton.mp member]
      exact ⟨by decide, by decide⟩
  have flows : threeArrivals.Flows := by
    simp [Source.Flows, threeArrivals]
  constructor
  · obtain ⟨_, _, refused, _⟩ := frame_reassembly _ allowed threeArrivals [] flows
    obtain ⟨next, last, reads, received, taken⟩ :=
      refused [9, 9, 9] 2 [9] (by decide) (by decide) (by decide)
    rw [List.append_nil] at reads taken
    have behind : threeArrivals.bytes = [0, 0, 0, 0, 0, 0, 0, 2, 7, 8, 0, 0, 0, 3] ++ [9] := by
      decide
    have sizes : wire [⟨[], 0⟩, ⟨[7, 8], 5⟩] ++ header 3 =
        [0, 0, 0, 0, 0, 0, 0, 2, 7, 8, 0, 0, 0, 3] := by
      decide
    rw [behind, ← sizes, ← List.append_assoc] at taken
    exact ⟨next, last, reads, received, (List.append_cancel_left taken).symm⟩
  · obtain ⟨_, _, _, ended⟩ :=
      frame_reassembly _ allowed threeArrivals [.failure ⟨.timedOut, none⟩] flows
    have cut : Cut [9, 9, 9] 3 [0, 0, 0, 3, 9] := by
      refine ⟨?_, by decide, .inl (by decide)⟩
      exact ⟨[9, 9], by decide⟩
    obtain ⟨next, reads, _, failed⟩ := ended [9, 9, 9] 3 _ cut (by decide) (by decide)
    exact ⟨next, reads, failed _ [] rfl (by decide)⟩

end KeyRelay.Frame
