import KeyRelay.Message.Decode
import KeyRelay.Message.Encode
import KeyRelay.Proofs.Message.Size
import KeyRelay.Proofs.Wire.Schema

/-! # What events are made of

Each part of an event has its bytes as a plain list, and one lemma that says
that its puts fit its buffer and build it up from the default. The default is
what an omitted put leaves, so each put is stored in front of later defaults. -/
set_option autoImplicit false

namespace KeyRelay

open Wire

namespace Endpoint

def bytes (endpoint : Endpoint) : List UInt8 :=
  Put.encodingAll endpoint.puts

/-- A known transport has a small code. -/
theorem length_transport_le (transport : Transport) :
    (Put.int32 1 transport.code).encoding.length ≤ Size.enumField := by
  cases transport <;> decide

theorem length_bytes_le (endpoint : Endpoint) : endpoint.bytes.length ≤ Size.endpoint := by
  have transport := length_transport_le endpoint.transport
  have profile : (Put.uint 2 endpoint.profile.toUInt64).encoding.length ≤ Size.uint32Field :=
    Size.length_uint32_le _ (by decide)
  simp only [bytes, Put.encodingAll, puts, List.flatMap_cons, List.flatMap_nil,
    List.length_append, List.length_nil, Size.endpoint]
  omega

theorem stores (endpoint : Endpoint) : schema.StoresAll endpoint.puts {} endpoint := by
  refine .cons { transport := endpoint.transport } (Schema.stores_int32 rfl ?_ ?_)
    (.cons endpoint (Schema.stores_uint32 rfl ?_ ?_) (.nil _))
  · simp only [int32_extended, Transport.ofCode?_code]
  · intro zero
    cases transport : endpoint.transport with
    | none => rfl
    | usb => simp [transport, Transport.code] at zero
    | ble => simp [transport, Transport.code] at zero
  · simp only [uint32_toUInt64]
    rfl
  · intro zero
    rw [← zero]

theorem written (endpoint : Endpoint) :
    schema.Written {} Size.endpoint endpoint.puts endpoint where
  valid := by
    simp only [puts, List.forall_mem_cons, Put.Valid]
    exact ⟨by decide, by decide, by simp⟩
  fits := endpoint.length_bytes_le
  stores := endpoint.stores

theorem encode_eq (endpoint : Endpoint) : endpoint.encode = .ok endpoint.bytes :=
  endpoint.written.render "Endpoint"

theorem decode_bytes (endpoint : Endpoint) : decode endpoint.bytes = .ok endpoint :=
  endpoint.written.decode

theorem length_embedded_le (endpoint : Endpoint) :
    (Put.lengthDelimited 1 endpoint.bytes).encoding.length ≤ Size.embedded Size.endpoint :=
  Size.length_lengthDelimited_le (by decide) endpoint.length_bytes_le (by decide)

theorem valid_embedded (endpoint : Endpoint) : (Put.lengthDelimited 1 endpoint.bytes).Valid := by
  have bound := endpoint.length_bytes_le
  have room : Size.endpoint < UInt64.size := by decide
  exact ⟨by decide, by omega⟩

end Endpoint

namespace KscanEvent

def bytes (event : KscanEvent) : List UInt8 :=
  Put.encodingAll event.puts

theorem length_bytes_le (event : KscanEvent) : event.bytes.length ≤ Size.kscanEvent := by
  have source : (Put.uint 1 event.source.toUInt64).encoding.length ≤ Size.uint32Field :=
    Size.length_uint32_le _ (by decide)
  have position : (Put.uint 2 event.position.toUInt64).encoding.length ≤ Size.uint32Field :=
    Size.length_uint32_le _ (by decide)
  have pressed : (Put.bool 3 event.pressed).encoding.length ≤ Size.boolField :=
    Size.length_bool_le _ (by decide)
  have timestamp : (Put.uint 4 event.timestamp).encoding.length ≤ Size.uint64Field :=
    Size.length_uint64_le _ (by decide)
  simp only [bytes, Put.encodingAll, puts, List.flatMap_cons, List.flatMap_nil,
    List.length_append, List.length_nil, Size.kscanEvent]
  omega

theorem stores (event : KscanEvent) : schema.StoresAll event.puts {} event := by
  refine .cons { source := event.source } (Schema.stores_uint32 rfl ?_ ?_)
    (.cons { source := event.source, position := event.position } (Schema.stores_uint32 rfl ?_ ?_)
    (.cons { event with timestamp := 0 } (Schema.stores_bool rfl ?_ ?_)
    (.cons event (Schema.stores_uint rfl ?_ ?_) (.nil _))))
  · simp only [uint32_toUInt64]
    rfl
  · intro zero
    rw [zero]
  · simp only [uint32_toUInt64]
    rfl
  · intro zero
    rw [zero]
  · intro pressed
    rw [pressed]
    rfl
  · intro released
    rw [released]
  · rfl
  · intro zero
    rw [← zero]

theorem written (event : KscanEvent) :
    schema.Written {} Size.kscanEvent event.puts event where
  valid := by
    simp only [puts, List.forall_mem_cons, Put.Valid]
    exact ⟨by decide, by decide, by decide, by decide, by simp⟩
  fits := event.length_bytes_le
  stores := event.stores

theorem encode_eq (event : KscanEvent) : event.encode = .ok event.bytes :=
  event.written.render "KscanEvent"

theorem decode_bytes (event : KscanEvent) : decode event.bytes = .ok event :=
  event.written.decode

end KscanEvent

theorem boundedKeys_toList {capacity : Nat} (message : String) (field : UInt32)
    (keys : KeyArray capacity) : boundedKeys message field keys.toList = .ok keys := by
  rw [boundedKeys, dif_pos keys.length_le]

theorem KeyArray.eq_empty {capacity : Nat} {keys : KeyArray capacity} (none : keys.toList = []) :
    keys = .empty := by
  cases keys with
  | mk toList length_le =>
    subst none
    rfl

theorem uint8_toUInt64 (message : String) (field : UInt32) (value : UInt8) :
    uint8 message field value.toUInt64 = .ok value := by
  have fits : value.toUInt64.toNat < UInt8.size := by
    rw [UInt8.toNat_toUInt64]
    exact value.toNat_lt
  rw [uint8, if_pos fits, UInt8.toUInt8_toUInt64]

namespace KeyboardReport

def bytes (report : KeyboardReport) : List UInt8 :=
  Put.encodingAll (report.puts report.endpoint.bytes)

theorem length_bytes_le (report : KeyboardReport) :
    report.bytes.length ≤ Size.keyboardReport := by
  have endpoint := report.endpoint.length_embedded_le
  have modifiers : (Put.uint 2 report.modifiers.toUInt64).encoding.length ≤ Size.byteField :=
    Size.length_uint8_le _ (by decide)
  have keys : (Put.bytes 3 report.keys.toList).encoding.length ≤
      Size.embedded keyboardKeyCapacity :=
    Size.length_bytes_le (by decide) report.keys.length_le (by decide)
  simp only [bytes, Put.encodingAll, puts, List.flatMap_cons, List.flatMap_nil,
    List.length_append, List.length_nil, Size.keyboardReport]
  omega

theorem stores (report : KeyboardReport) :
    schema.StoresAll (report.puts report.endpoint.bytes) {} report := by
  refine .cons { endpoint := report.endpoint } (Schema.stores_lengthDelimited rfl ?_)
    (.cons { report with keys := .empty } (Schema.stores_uint rfl ?_ ?_)
    (.cons report (Schema.stores_bytes rfl ?_ ?_) (.nil _)))
  · simp only [Endpoint.decode_bytes]
    rfl
  · simp only [uint8_toUInt64]
    rfl
  · intro zero
    have modifiers : report.modifiers = 0 := UInt8.toUInt64_inj.mp zero
    rw [modifiers]
  · simp only [boundedKeys_toList]
    rfl
  · intro none
    rw [← KeyArray.eq_empty none]

theorem written (report : KeyboardReport) :
    schema.Written {} Size.keyboardReport (report.puts report.endpoint.bytes) report where
  valid := by
    have keys := report.keys.length_le
    have room : keyboardKeyCapacity < UInt64.size := by decide
    simp only [puts, List.forall_mem_cons]
    exact ⟨report.endpoint.valid_embedded, (by decide : ValidNumber 2), ⟨by decide, by omega⟩,
      by simp⟩
  fits := report.length_bytes_le
  stores := report.stores

theorem encode_eq (report : KeyboardReport) : report.encode = .ok report.bytes := by
  simp only [encode, Endpoint.encode_eq, bind, Except.bind]
  exact report.written.render "HidKeyboardReport"

theorem decode_bytes (report : KeyboardReport) : decode report.bytes = .ok report :=
  report.written.decode

end KeyboardReport

namespace ConsumerReport

def bytes (report : ConsumerReport) : List UInt8 :=
  Put.encodingAll (report.puts report.endpoint.bytes)

theorem length_bytes_le (report : ConsumerReport) :
    report.bytes.length ≤ Size.consumerReport := by
  have endpoint := report.endpoint.length_embedded_le
  have keys : (Put.bytes 2 report.keys.toList).encoding.length ≤
      Size.embedded consumerKeyCapacity :=
    Size.length_bytes_le (by decide) report.keys.length_le (by decide)
  simp only [bytes, Put.encodingAll, puts, List.flatMap_cons, List.flatMap_nil,
    List.length_append, List.length_nil, Size.consumerReport]
  omega

theorem stores (report : ConsumerReport) :
    schema.StoresAll (report.puts report.endpoint.bytes) {} report := by
  refine .cons { endpoint := report.endpoint } (Schema.stores_lengthDelimited rfl ?_)
    (.cons report (Schema.stores_bytes rfl ?_ ?_) (.nil _))
  · simp only [Endpoint.decode_bytes]
    rfl
  · simp only [boundedKeys_toList]
    rfl
  · intro none
    rw [← KeyArray.eq_empty none]

theorem written (report : ConsumerReport) :
    schema.Written {} Size.consumerReport (report.puts report.endpoint.bytes) report where
  valid := by
    have keys := report.keys.length_le
    have room : consumerKeyCapacity < UInt64.size := by decide
    simp only [puts, List.forall_mem_cons]
    exact ⟨report.endpoint.valid_embedded, ⟨by decide, by omega⟩, by simp⟩
  fits := report.length_bytes_le
  stores := report.stores

theorem encode_eq (report : ConsumerReport) : report.encode = .ok report.bytes := by
  simp only [encode, Endpoint.encode_eq, bind, Except.bind]
  exact report.written.render "HidConsumerReport"

theorem decode_bytes (report : ConsumerReport) : decode report.bytes = .ok report :=
  report.written.decode

end ConsumerReport

namespace MouseReport

def bytes (report : MouseReport) : List UInt8 :=
  Put.encodingAll (report.puts report.endpoint.bytes)

theorem length_bytes_le (report : MouseReport) : report.bytes.length ≤ Size.mouseReport := by
  have endpoint := report.endpoint.length_embedded_le
  have buttons : (Put.uint 2 report.buttons.toUInt64).encoding.length ≤ Size.uint32Field :=
    Size.length_uint32_le _ (by decide)
  have dx : (Put.int32 3 report.dx).encoding.length ≤ Size.int32Field :=
    Size.length_int32_le _ (by decide)
  have dy : (Put.int32 4 report.dy).encoding.length ≤ Size.int32Field :=
    Size.length_int32_le _ (by decide)
  have scrollX : (Put.int32 5 report.scrollX).encoding.length ≤ Size.int32Field :=
    Size.length_int32_le _ (by decide)
  have scrollY : (Put.int32 6 report.scrollY).encoding.length ≤ Size.int32Field :=
    Size.length_int32_le _ (by decide)
  simp only [bytes, Put.encodingAll, puts, List.flatMap_cons, List.flatMap_nil,
    List.length_append, List.length_nil, Size.mouseReport]
  omega

theorem stores (report : MouseReport) :
    schema.StoresAll (report.puts report.endpoint.bytes) {} report := by
  refine .cons { endpoint := report.endpoint } (Schema.stores_lengthDelimited rfl ?_)
    (.cons { endpoint := report.endpoint, buttons := report.buttons }
      (Schema.stores_uint32 rfl ?_ ?_)
    (.cons { report with dy := 0, scrollX := 0, scrollY := 0 } (Schema.stores_int32 rfl ?_ ?_)
    (.cons { report with scrollX := 0, scrollY := 0 } (Schema.stores_int32 rfl ?_ ?_)
    (.cons { report with scrollY := 0 } (Schema.stores_int32 rfl ?_ ?_)
    (.cons report (Schema.stores_int32 rfl ?_ ?_) (.nil _))))))
  · simp only [Endpoint.decode_bytes]
    rfl
  · simp only [uint32_toUInt64]
    rfl
  · intro zero
    rw [zero]
  · simp only [int32_extended]
  · intro zero
    rw [zero]
  · simp only [int32_extended]
  · intro zero
    rw [zero]
  · simp only [int32_extended]
  · intro zero
    rw [zero]
  · simp only [int32_extended]
  · intro zero
    rw [← zero]

theorem written (report : MouseReport) :
    schema.Written {} Size.mouseReport (report.puts report.endpoint.bytes) report where
  valid := by
    simp only [puts, List.forall_mem_cons]
    exact ⟨report.endpoint.valid_embedded, (by decide : ValidNumber 2),
      (by decide : ValidNumber 3), (by decide : ValidNumber 4), (by decide : ValidNumber 5),
      (by decide : ValidNumber 6), by simp⟩
  fits := report.length_bytes_le
  stores := report.stores

theorem encode_eq (report : MouseReport) : report.encode = .ok report.bytes := by
  simp only [encode, Endpoint.encode_eq, bind, Except.bind]
  exact report.written.render "HidMouseReport"

theorem decode_bytes (report : MouseReport) : decode report.bytes = .ok report :=
  report.written.decode

end MouseReport

end KeyRelay
