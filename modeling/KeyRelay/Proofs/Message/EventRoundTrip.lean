import KeyRelay.Proofs.Message.Report

/-! # Events survive the wire

Every event has an encoding within the frame limit of its socket, no buffer on
the way is too small for its part, and the encoding decodes to the event. The
limit is not generous: one event needs all of it. -/
set_option autoImplicit false

namespace KeyRelay

open Wire

/-- A buffer with enough room takes puts at its front and keeps the rest. -/
theorem writeInto_of_fits (message : String) {buffer : List UInt8} {items : List Put}
    (fits : (Put.encodingAll items).length ≤ buffer.length) :
    writeInto message buffer items =
      (.ok (Put.encodingAll items).length,
        Put.encodingAll items ++ buffer.drop (Put.encodingAll items).length) := by
  rw [writeInto, Writer.putAll_of_fits _ _ fits]
  simp [Writer.start, Writer.advance, Writer.length, Writer.buffer, Except.map]

namespace Event

def body : Event → List UInt8
  | .kscan event => event.bytes
  | .keyboard report => report.bytes
  | .consumer report => report.bytes
  | .mouse report => report.bytes

def puts (event : Event) : List Put :=
  [.lengthDelimited event.field event.body]

def bytes (event : Event) : List UInt8 :=
  Put.encodingAll event.puts

theorem encodeBody_eq (event : Event) : event.encodeBody = .ok event.body := by
  cases event with
  | kscan event => exact event.encode_eq
  | keyboard report => exact report.encode_eq
  | consumer report => exact report.encode_eq
  | mouse report => exact report.encode_eq

theorem length_body_le (event : Event) :
    event.body.length ≤ max (max Size.kscanEvent Size.keyboardReport)
      (max Size.consumerReport Size.mouseReport) := by
  cases event with
  | kscan event =>
    have bound := event.length_bytes_le
    rw [body]
    omega
  | keyboard report =>
    have bound := report.length_bytes_le
    rw [body]
    omega
  | consumer report =>
    have bound := report.length_bytes_le
    rw [body]
    omega
  | mouse report =>
    have bound := report.length_bytes_le
    rw [body]
    omega

theorem smallNumber_field (event : Event) : Size.SmallNumber event.field := by
  cases event <;> (rw [field]; decide)

theorem length_bytes (event : Event) :
    event.bytes.length = Size.embedded event.body.length := by
  have written : (Put.lengthDelimited event.field event.body).encoding.length = _ :=
    Size.length_lengthDelimited event.smallNumber_field
  simpa [bytes, puts, Put.encodingAll] using written

theorem length_bytes_le (event : Event) : event.bytes.length ≤ Size.event := by
  rw [length_bytes]
  exact Size.embedded_mono event.length_body_le (by decide)

theorem stores (event : Event) : schema.StoresAll event.puts none (some event) := by
  refine .cons (some event) ?_ (.nil _)
  cases event with
  | kscan event =>
    refine Schema.stores_lengthDelimited rfl ?_
    simp only [body, KscanEvent.decode_bytes]
    rfl
  | keyboard report =>
    refine Schema.stores_lengthDelimited rfl ?_
    simp only [body, KeyboardReport.decode_bytes]
    rfl
  | consumer report =>
    refine Schema.stores_lengthDelimited rfl ?_
    simp only [body, ConsumerReport.decode_bytes]
    rfl
  | mouse report =>
    refine Schema.stores_lengthDelimited rfl ?_
    simp only [body, MouseReport.decode_bytes]
    rfl

theorem written (event : Event) :
    schema.Written none Size.event event.puts (some event) where
  valid := by
    have bound := event.length_body_le
    have room : max (max Size.kscanEvent Size.keyboardReport)
      (max Size.consumerReport Size.mouseReport) < UInt64.size := by decide
    have number : ValidNumber event.field := by
      cases event <;> (rw [field]; decide)
    simp only [puts, List.forall_mem_cons]
    exact ⟨⟨number, by omega⟩, by simp⟩
  fits := event.length_bytes_le
  stores := event.stores

theorem decode_bytes (event : Event) : decode event.bytes = .ok event := by
  have decoded : schema.decode none event.bytes = .ok (some event) := event.written.decode
  rw [decode, decoded]

/-- A buffer with enough room takes the whole encoding and keeps the rest. -/
theorem encodeInto_of_fits (event : Event) {buffer : List UInt8}
    (fits : event.bytes.length ≤ buffer.length) :
    event.encodeInto buffer =
      (.ok event.bytes.length, event.bytes ++ buffer.drop event.bytes.length) := by
  rw [encodeInto, encodeBody_eq]
  exact writeInto_of_fits "Event" fits

theorem encode_eq (event : Event) : event.encode = .ok event.bytes := by
  have fits : event.bytes.length ≤ (List.replicate Size.event (0 : UInt8)).length := by
    rw [List.length_replicate]
    exact event.length_bytes_le
  rw [encode, encodeInto_of_fits event fits]
  simp [Except.map]

/-- A mouse report with every field at full length. -/
def longest : Event :=
  .mouse ⟨⟨.ble, 0xFFFFFFFF⟩, 0xFFFFFFFF, -1, -1, -1, -1⟩

theorem length_longest : longest.bytes.length = Size.event := by
  decide

/-- Encoding succeeds in all its buffers, stays within the frame limit, which
some event needs, and decoding gives the event back. -/
theorem roundTrip_within_limit :
    (∀ event : Event, ∃ body encoding,
      event.encodeBody = .ok body ∧ event.encode = .ok encoding ∧
      encoding.length ≤ Size.event ∧ decode encoding = .ok event) ∧
    (∀ endpoint : Endpoint, ∃ encoding, endpoint.encode = .ok encoding) ∧
    Size.event = 62 ∧
    ∃ event encoding, encode event = .ok encoding ∧ encoding.length = 62 := by
  refine ⟨?_, ?_, by decide, ?_⟩
  · intro event
    exact ⟨event.body, event.bytes, event.encodeBody_eq, event.encode_eq,
      event.length_bytes_le, event.decode_bytes⟩
  · intro endpoint
    exact ⟨endpoint.bytes, endpoint.encode_eq⟩
  · exact ⟨longest, longest.bytes, longest.encode_eq, length_longest⟩

end Event

end KeyRelay
