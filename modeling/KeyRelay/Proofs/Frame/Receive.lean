import KeyRelay.Proofs.Frame.Split

/-! # Reading frames off a stream

A read gives the payload of the frame at the front of the stream and leaves
what is behind it. If the stream does not begin with a whole frame, the read
fails: an announced length beyond the limit is refused with only the header
taken, and otherwise the stream ended before the frame did. -/
set_option autoImplicit false

namespace KeyRelay.Frame

/-- A header is there and announces a frame beyond the limit. -/
def Oversized (max : Nat) (bytes : List UInt8) : Prop :=
  headerLength ≤ bytes.length ∧ max < declared bytes

instance (max : Nat) (bytes : List UInt8) : Decidable (Oversized max bytes) :=
  inferInstanceAs (Decidable (_ ∧ _))

/-- The error that ends the reading of a stream, from what is left of it and
the failure at its end. -/
def endError (max : Nat) (rest : List UInt8) (ending : StreamFailure) : FrameError :=
  if Oversized max rest then .oversized (declared rest) max else .ofFailure ending

/-- A stream that ends within a frame that was allowed ends as it would anywhere. -/
theorem endError_of_cut {max : Nat} {cut payload : List UInt8} (ending : StreamFailure)
    (part : cut <+: whole payload) (fits : payload.length ≤ max) (bounded : max < UInt32.size) :
    endError max cut ending = .ofFailure ending := by
  have allowed : ¬ Oversized max cut := by
    rintro ⟨enough, beyond⟩
    rw [declared_of_cut part enough (by omega)] at beyond
    omega
  rw [endError, if_neg allowed]

theorem receive_whole {source : Source} {payload rest : List UInt8} {max : Nat}
    (front : source.stream = whole payload ++ rest) (fits : payload.length ≤ max)
    (short : payload.length < UInt32.size) :
    ∃ next : Source, receive source max = (.ok payload, next) ∧
      next.stream = rest ∧ next.ending = source.ending := by
  have content : whole payload ++ rest = header payload.length ++ (payload ++ rest) := by
    rw [whole, List.append_assoc]
  rw [content] at front
  have headerEnough : headerLength ≤ source.stream.length := by
    rw [front, List.length_append, length_header]
    omega
  obtain ⟨middle, headerRead, middleStream, middleEnding⟩ :=
    Source.readExact_of_le headerEnough
  rw [front, List.take_left' (length_header _)] at headerRead
  rw [front, List.drop_left' (length_header _)] at middleStream
  have bodyEnough : payload.length ≤ middle.stream.length := by
    rw [middleStream, List.length_append]
    omega
  obtain ⟨next, bodyRead, nextStream, nextEnding⟩ := Source.readExact_of_le bodyEnough
  rw [middleStream, List.take_left] at bodyRead
  rw [middleStream, List.drop_left] at nextStream
  have length : bigEndian (header payload.length) = payload.length :=
    bigEndian_header short
  refine ⟨next, ?_, nextStream, nextEnding.trans middleEnding⟩
  simp only [receive, headerRead, announced, length, if_pos fits, bodyRead]

/-- Only the header of a frame beyond the limit is taken. -/
theorem receive_oversized {source : Source} {max : Nat} (oversized : Oversized max source.stream) :
    ∃ next : Source,
      receive source max = (.error (.oversized (declared source.stream) max), next) ∧
      next.stream = source.stream.drop headerLength := by
  obtain ⟨enough, beyond⟩ := oversized
  obtain ⟨next, headerRead, nextStream, _⟩ := Source.readExact_of_le enough
  refine ⟨next, ?_, nextStream⟩
  have refused : ¬ bigEndian (source.stream.take headerLength) ≤ max := Nat.not_le.mpr beyond
  simp only [receive, headerRead, announced, if_neg refused]
  rfl

/-- The stream ends within the header, or within a body that was announced. -/
theorem receive_cut {source : Source} {max : Nat}
    (cut : source.stream.length < headerLength ∨
      declared source.stream ≤ max ∧ source.stream.length < headerLength + declared source.stream) :
    ∃ next : Source, receive source max = (.error (.ofFailure source.ending), next) := by
  by_cases enough : headerLength ≤ source.stream.length
  · obtain ⟨middle, headerRead, middleStream, middleEnding⟩ := Source.readExact_of_le enough
    have announcedLength : bigEndian (source.stream.take headerLength) = declared source.stream :=
      rfl
    obtain ⟨fits, missing⟩ : declared source.stream ≤ max ∧
        source.stream.length < headerLength + declared source.stream := by
      rcases cut with short | rest
      · exact absurd enough (Nat.not_le.mpr short)
      · exact rest
    have short : middle.stream.length < declared source.stream := by
      rw [middleStream, List.length_drop]
      omega
    obtain ⟨next, bodyRead⟩ := Source.readExact_of_lt short
    refine ⟨next, ?_⟩
    simp only [receive, headerRead, announced, announcedLength, if_pos fits, bodyRead,
      middleEnding]
  · obtain ⟨next, headerRead⟩ := Source.readExact_of_lt (Nat.not_le.mp enough)
    refine ⟨next, ?_⟩
    simp only [receive, headerRead]

theorem receive_of_not_starts {source : Source} {max : Nat}
    (stuck : ¬ Starts max source.stream) :
    ∃ next : Source,
      receive source max = (.error (endError max source.stream source.ending), next) ∧
      (Oversized max source.stream → next.stream = source.stream.drop headerLength) := by
  by_cases oversized : Oversized max source.stream
  · obtain ⟨next, received, behind⟩ := receive_oversized oversized
    rw [endError, if_pos oversized]
    exact ⟨next, received, fun _ => behind⟩
  · have cut : source.stream.length < headerLength ∨ declared source.stream ≤ max ∧
        source.stream.length < headerLength + declared source.stream := by
      rw [Starts] at stuck
      rw [Oversized] at oversized
      omega
    obtain ⟨next, received⟩ := receive_cut cut
    rw [endError, if_neg oversized]
    exact ⟨next, received, fun beyond => absurd beyond oversized⟩

/-- One read of a stream, told by how the stream splits: it takes the first frame
and leaves the others, or there is none and the read fails. -/
theorem receive_cases {max : Nat} (bounded : max < UInt32.size) (source : Source) :
    (∃ (payload : List UInt8) (next : Source), receive source max = (.ok payload, next) ∧
      split max source.stream = (payload :: (split max next.stream).1, (split max next.stream).2) ∧
      next.ending = source.ending ∧ next.stream.length < source.stream.length) ∨
    ∃ next : Source,
      receive source max = (.error (endError max source.stream source.ending), next) ∧
      split max source.stream = ([], source.stream) ∧
      (Oversized max source.stream → next.stream = source.stream.drop headerLength) := by
  by_cases starts : Starts max source.stream
  · obtain ⟨payload, rest, front, fits⟩ := exists_whole_of_starts starts
    obtain ⟨next, received, nextStream, nextEnding⟩ := receive_whole front fits (by omega)
    refine .inl ⟨payload, next, received, ?_, nextEnding, ?_⟩
    · rw [front, split_whole rest fits bounded, nextStream]
    · have length : headerLength = 4 := rfl
      rw [front, nextStream, List.length_append, length_whole]
      omega
  · obtain ⟨next, received, oversized⟩ := receive_of_not_starts starts
    exact .inr ⟨next, received, split_of_not_starts starts, oversized⟩

end KeyRelay.Frame
