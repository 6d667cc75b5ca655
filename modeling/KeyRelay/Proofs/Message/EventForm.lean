import KeyRelay.Proofs.Message.Reading

/-! # Which bytes are an event

The forms of the parts of an event and of the event itself, stated on fields
alone: a part of a message has the value of the last field that speaks of it, and
an embedded message is replaced whole. Each decoder accepts exactly these forms,
so what is not described here is refused. -/
set_option autoImplicit false

namespace KeyRelay

open Wire

theorem Transport.ofCode?_eq_some {code : Int32} {transport : Transport} :
    ofCode? code = some transport ↔ code = transport.code := by
  constructor
  · intro known
    unfold ofCode? at known
    split at known
    · cases known
      assumption
    · split at known
      · cases known
        assumption
      · split at known
        · cases known
          assumption
        · cases known
  · rintro rfl
    exact ofCode?_code transport

namespace Endpoint

/-- A transport by its code. -/
def IsTransport : Field → Transport → Prop :=
  IsNumber fun value found => LowHalf value found.code

/-- What some fields say of an endpoint. -/
@[mk_iff]
structure GivenBy (endpoint : Endpoint) (fields : List Field) : Prop where
  transport : Gives fields [1] IsTransport .none endpoint.transport
  profile : Gives fields [2] IsUInt32 0 endpoint.profile

def Form (endpoint : Endpoint) (bytes : List UInt8) : Prop :=
  ∃ fields, Forms fields bytes ∧ endpoint.GivenBy fields

theorem assigns_transport :
    schema.Assigns 1 IsTransport fun transport endpoint => { endpoint with transport } := by
  apply Schema.assigns_number rfl
  intro value before after
  simp only [← int32_eq_iff, ← Transport.ofCode?_eq_some]
  cases Transport.ofCode? (int32 value) with
  | none => simp
  | some transport => simp

def parts : List schema.Part :=
  [.single 1 IsTransport transport (fun transport endpoint => { endpoint with transport })
      assigns_transport,
    .single 2 IsUInt32 profile (fun profile endpoint => { endpoint with profile })
      (Schema.assigns_uint32 rfl)]

theorem madeOf : schema.MadeOf parts where
  apart := by simp [parts]
  unknown := by
    intro number foreign
    have others : number ≠ 1 ∧ number ≠ 2 := by
      simpa [parts] using foreign
    simp [schema, others]
  ext := by
    intro endpoint other same
    cases endpoint
    cases other
    simpa [parts] using same

theorem decode_eq_ok {bytes : List UInt8} {endpoint : Endpoint} :
    decode bytes = .ok endpoint ↔ endpoint.Form bytes := by
  rw [decode, madeOf.decode_iff]
  simp [parts, Form, givenBy_iff]

end Endpoint

namespace KscanEvent

@[mk_iff]
structure GivenBy (event : KscanEvent) (fields : List Field) : Prop where
  source : Gives fields [1] IsUInt32 0 event.source
  position : Gives fields [2] IsUInt32 0 event.position
  pressed : Gives fields [3] IsBool false event.pressed
  timestamp : Gives fields [4] IsUInt64 0 event.timestamp

def Form (event : KscanEvent) (bytes : List UInt8) : Prop :=
  ∃ fields, Forms fields bytes ∧ event.GivenBy fields

def parts : List schema.Part :=
  [.single 1 IsUInt32 source (fun source event => { event with source })
      (Schema.assigns_uint32 rfl),
    .single 2 IsUInt32 position (fun position event => { event with position })
      (Schema.assigns_uint32 rfl),
    .single 3 IsBool pressed (fun pressed event => { event with pressed })
      (Schema.assigns_bool rfl),
    .single 4 IsUInt64 timestamp (fun timestamp event => { event with timestamp })
      (Schema.assigns_uint64 rfl)]

theorem madeOf : schema.MadeOf parts where
  apart := by simp [parts]
  unknown := by
    intro number foreign
    have others : number ≠ 1 ∧ number ≠ 2 ∧ number ≠ 3 ∧ number ≠ 4 := by
      simpa [parts] using foreign
    simp [schema, others]
  ext := by
    intro event other same
    cases event
    cases other
    simpa [parts] using same

theorem decode_eq_ok {bytes : List UInt8} {event : KscanEvent} :
    decode bytes = .ok event ↔ event.Form bytes := by
  rw [decode, madeOf.decode_iff]
  simp [parts, Form, givenBy_iff]

end KscanEvent

namespace KeyboardReport

@[mk_iff]
structure GivenBy (report : KeyboardReport) (fields : List Field) : Prop where
  endpoint : Gives fields [1] (Embeds Endpoint.Form) {} report.endpoint
  modifiers : Gives fields [2] IsUInt8 0 report.modifiers
  keys : Gives fields [3] IsKeys .empty report.keys

def Form (report : KeyboardReport) (bytes : List UInt8) : Prop :=
  ∃ fields, Forms fields bytes ∧ report.GivenBy fields

def parts : List schema.Part :=
  [.single 1 (Embeds Endpoint.Form) endpoint (fun endpoint report => { report with endpoint })
      (Schema.assigns_embedded Endpoint.decode_eq_ok rfl),
    .single 2 IsUInt8 modifiers (fun modifiers report => { report with modifiers })
      (Schema.assigns_uint8 rfl),
    .single 3 IsKeys keys (fun keys report => { report with keys }) (Schema.assigns_keys rfl)]

theorem madeOf : schema.MadeOf parts where
  apart := by simp [parts]
  unknown := by
    intro number foreign
    have others : number ≠ 1 ∧ number ≠ 2 ∧ number ≠ 3 := by
      simpa [parts] using foreign
    simp [schema, others]
  ext := by
    intro report other same
    cases report
    cases other
    simpa [parts] using same

theorem decode_eq_ok {bytes : List UInt8} {report : KeyboardReport} :
    decode bytes = .ok report ↔ report.Form bytes := by
  rw [decode, madeOf.decode_iff]
  simp [parts, Form, givenBy_iff]

end KeyboardReport

namespace ConsumerReport

@[mk_iff]
structure GivenBy (report : ConsumerReport) (fields : List Field) : Prop where
  endpoint : Gives fields [1] (Embeds Endpoint.Form) {} report.endpoint
  keys : Gives fields [2] IsKeys .empty report.keys

def Form (report : ConsumerReport) (bytes : List UInt8) : Prop :=
  ∃ fields, Forms fields bytes ∧ report.GivenBy fields

def parts : List schema.Part :=
  [.single 1 (Embeds Endpoint.Form) endpoint (fun endpoint report => { report with endpoint })
      (Schema.assigns_embedded Endpoint.decode_eq_ok rfl),
    .single 2 IsKeys keys (fun keys report => { report with keys }) (Schema.assigns_keys rfl)]

theorem madeOf : schema.MadeOf parts where
  apart := by simp [parts]
  unknown := by
    intro number foreign
    have others : number ≠ 1 ∧ number ≠ 2 := by
      simpa [parts] using foreign
    simp [schema, others]
  ext := by
    intro report other same
    cases report
    cases other
    simpa [parts] using same

theorem decode_eq_ok {bytes : List UInt8} {report : ConsumerReport} :
    decode bytes = .ok report ↔ report.Form bytes := by
  rw [decode, madeOf.decode_iff]
  simp [parts, Form, givenBy_iff]

end ConsumerReport

namespace MouseReport

@[mk_iff]
structure GivenBy (report : MouseReport) (fields : List Field) : Prop where
  endpoint : Gives fields [1] (Embeds Endpoint.Form) {} report.endpoint
  buttons : Gives fields [2] IsUInt32 0 report.buttons
  dx : Gives fields [3] IsInt32 0 report.dx
  dy : Gives fields [4] IsInt32 0 report.dy
  scrollX : Gives fields [5] IsInt32 0 report.scrollX
  scrollY : Gives fields [6] IsInt32 0 report.scrollY

def Form (report : MouseReport) (bytes : List UInt8) : Prop :=
  ∃ fields, Forms fields bytes ∧ report.GivenBy fields

def parts : List schema.Part :=
  [.single 1 (Embeds Endpoint.Form) endpoint (fun endpoint report => { report with endpoint })
      (Schema.assigns_embedded Endpoint.decode_eq_ok rfl),
    .single 2 IsUInt32 buttons (fun buttons report => { report with buttons })
      (Schema.assigns_uint32 rfl),
    .single 3 IsInt32 dx (fun dx report => { report with dx }) (Schema.assigns_int32 rfl),
    .single 4 IsInt32 dy (fun dy report => { report with dy }) (Schema.assigns_int32 rfl),
    .single 5 IsInt32 scrollX (fun scrollX report => { report with scrollX })
      (Schema.assigns_int32 rfl),
    .single 6 IsInt32 scrollY (fun scrollY report => { report with scrollY })
      (Schema.assigns_int32 rfl)]

theorem madeOf : schema.MadeOf parts where
  apart := by simp [parts]
  unknown := by
    intro number foreign
    have others : number ≠ 1 ∧ number ≠ 2 ∧ number ≠ 3 ∧ number ≠ 4 ∧ number ≠ 5 ∧
        number ≠ 6 := by
      simpa [parts] using foreign
    simp [schema, others]
  ext := by
    intro report other same
    cases report
    cases other
    simpa [parts] using same

theorem decode_eq_ok {bytes : List UInt8} {report : MouseReport} :
    decode bytes = .ok report ↔ report.Form bytes := by
  rw [decode, madeOf.decode_iff]
  simp [parts, Form, givenBy_iff]

end MouseReport

namespace Event

/-- A field that carries a variant: each has its own number. -/
def IsVariant (field : Field) : Event → Prop
  | .kscan event => field.number = 1 ∧ Embeds KscanEvent.Form field event
  | .keyboard report => field.number = 2 ∧ Embeds KeyboardReport.Form field report
  | .consumer report => field.number = 3 ∧ Embeds ConsumerReport.Form field report
  | .mouse report => field.number = 4 ∧ Embeds MouseReport.Form field report

/-- All fields of variants are readable, and the last of them is the event. -/
@[mk_iff]
structure GivenBy (event : Event) (fields : List Field) : Prop where
  readable : ∀ field ∈ fields, field.number ∈ [1, 2, 3, 4] → ∃ variant, IsVariant field variant
  last : ∃ field, lastOf [1, 2, 3, 4] fields = some field ∧ IsVariant field event

def Form (event : Event) (bytes : List UInt8) : Prop :=
  ∃ fields, Forms fields bytes ∧ event.GivenBy fields

theorem assigns_variant :
    ∀ number ∈ [1, 2, 3, 4], schema.Assigns number (Present IsVariant) fun found _ => found := by
  simp only [List.forall_mem_cons]
  refine ⟨?_, ?_, ?_, ?_, by simp⟩
  · apply Schema.Assigns.oneof kscan (Schema.assigns_embedded KscanEvent.decode_eq_ok rfl)
    intro value variant
    cases variant <;> simp [IsVariant]
  · apply Schema.Assigns.oneof keyboard (Schema.assigns_embedded KeyboardReport.decode_eq_ok rfl)
    intro value variant
    cases variant <;> simp [IsVariant]
  · apply Schema.Assigns.oneof consumer (Schema.assigns_embedded ConsumerReport.decode_eq_ok rfl)
    intro value variant
    cases variant <;> simp [IsVariant]
  · apply Schema.Assigns.oneof mouse (Schema.assigns_embedded MouseReport.decode_eq_ok rfl)
    intro value variant
    cases variant <;> simp [IsVariant]

def parts : List schema.Part :=
  [.several [1, 2, 3, 4] (Present IsVariant) id (fun found _ => found) assigns_variant]

theorem madeOf : schema.MadeOf parts where
  apart := by simp [parts]
  unknown := by
    intro number foreign
    have others : number ≠ 1 ∧ number ≠ 2 ∧ number ≠ 3 ∧ number ≠ 4 := by
      simpa [parts] using foreign
    simp [schema, others]
  ext := by
    intro found other same
    simpa [parts] using same

theorem decode_eq_ok_schema {bytes : List UInt8} {event : Event} :
    decode bytes = .ok event ↔ schema.decode none bytes = .ok (some event) := by
  rw [decode]
  split <;> simp_all

theorem decode_eq_ok {bytes : List UInt8} {event : Event} :
    decode bytes = .ok event ↔ event.Form bytes := by
  rw [decode_eq_ok_schema, madeOf.decode_iff]
  simp [parts, Form, givenBy_iff, gives_present_some]

/-- Decoding gives an event exactly if the bytes are fields, one behind the other,
of which all that carry a variant can be read and the last one carries the event. -/
theorem decode_exactly_last_variant (bytes : List UInt8) (event : Event) :
    decode bytes = .ok event ↔
      ∃ fields, Forms fields bytes ∧
        (∀ field ∈ fields, field.number ∈ [1, 2, 3, 4] → ∃ variant, IsVariant field variant) ∧
        ∃ field, lastOf [1, 2, 3, 4] fields = some field ∧ IsVariant field event := by
  rw [decode_eq_ok, Form]
  simp only [givenBy_iff]

end Event

end KeyRelay
