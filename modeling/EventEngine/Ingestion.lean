import EventEngine.Store

/-! Ingestion and validation. A posted item is projected into an inbox row next
to its text, and the worker later reads the event back from that text. -/
namespace EventEngine
open Relational

/-- `RawEventsFactory.stringOrNull`. -/
def stringOrNull : Option JsonValue → Option String
  | some (.string value) => some value
  | _ => none

/-- `RawEventsFactory.finiteNumberOrNull`. -/
def finiteNumberOrNull : Option JsonValue → Option ℚ
  | some (.number (.finite value)) => some value
  | _ => none

/-- `RawEventsFactory.createRawIncomingEvent`, completed with the identifier
the inbox gives the row. -/
def createRawIncomingEvent (event : JsonValue) (receivedAt : Time) (id : ℕ) : RawIncomingEventEntity :=
  let rawEventJson := stringify event
  match event.asObject? with
  | none =>
    { id, eventId := none, orderId := none, type := none, eventTimestamp := none, rawEventJson,
      receivedAt, processingStatus := .pending, availableAt := receivedAt, attempts := 0,
      lastErrorMessage := none }
  | some fields =>
    { id, eventId := stringOrNull (fields.get "eventId"), orderId := stringOrNull (fields.get "orderId"),
      type := stringOrNull (fields.get "type"), eventTimestamp := finiteNumberOrNull (fields.get "timestamp"),
      rawEventJson, receivedAt, processingStatus := .pending, availableAt := receivedAt, attempts := 0,
      lastErrorMessage := none }

theorem createRawIncomingEvent_id (event : JsonValue) (receivedAt : Time) (id : ℕ) :
    Serial.id (createRawIncomingEvent event receivedAt id) = id := by
  unfold createRawIncomingEvent
  cases event.asObject? <;> rfl

theorem createRawIncomingEvent_lifecycle (event : JsonValue) (receivedAt : Time) (id : ℕ) :
    (createRawIncomingEvent event receivedAt id).processingStatus = .pending ∧
      (createRawIncomingEvent event receivedAt id).attempts = 0 ∧
      (createRawIncomingEvent event receivedAt id).rawEventJson = stringify event := by
  unfold createRawIncomingEvent
  cases event.asObject? <;> exact ⟨rfl, rfl, rfl⟩

/-- `EventEnqueuerService.enqueueBatch`: the items of one request are inserted
in request order. -/
def enqueueBatch (s : Store) (events : List JsonValue) (receivedAt : Time) : Store :=
  { s with
    rawIncomingEvents := events.foldl
      (fun table event => table.insert (createRawIncomingEvent event receivedAt)
        (createRawIncomingEvent_id event receivedAt))
      s.rawIncomingEvents }

/-- `event-validation.service.ts::EventValidation`. -/
inductive EventValidation where
  | invalid (reasonCode : ReasonCode) (reasonMessage : String)
  | valid (event : ValidOrderEvent)
  deriving Repr

/-- `EventValidationService.isNonEmptyString`, with the string it recognises. -/
def nonEmptyString? : Option JsonValue → Option String
  | some (.string value) => if isNonBlank value then some value else none
  | _ => none

/-- `EventValidationService.isFiniteNumber`, with the number it recognises. -/
def finiteNumber? : Option JsonValue → Option ℚ
  | some (.number (.finite value)) => some value
  | _ => none

/-- `EventValidationService.validate`. The text was written by
`JSON.stringify`, so parsing it never throws. -/
def validate (delivery : RawIncomingEventEntity) : EventValidation :=
  match (parseJsonValue delivery.rawEventJson).asObject? with
  | none => .invalid .invalidSchema "Event payload must be a JSON object"
  | some rawEvent =>
    match nonEmptyString? (rawEvent.get "eventId") with
    | none => .invalid .invalidSchema "eventId must be a non-empty string"
    | some eventId =>
      match nonEmptyString? (rawEvent.get "orderId") with
      | none => .invalid .invalidSchema "orderId must be a non-empty string"
      | some orderId =>
        match nonEmptyString? (rawEvent.get "type") with
        | none => .invalid .invalidSchema "type must be a non-empty string"
        | some eventType =>
          match SupportedEventType.ofText? eventType with
          | none => .invalid .unknownEventType ("Event type " ++ eventType ++ " is not supported")
          | some type =>
            match finiteNumber? (rawEvent.get "timestamp") with
            | none => .invalid .invalidSchema "timestamp must be a finite number"
            | some timestamp =>
              match (rawEvent.get "payload").bind JsonValue.asObject? with
              | none => .invalid .invalidSchema "payload must be a JSON object"
              | some payload => .valid ⟨eventId, orderId, type, timestamp, payload⟩

/-- The event a delivery validates with. -/
def validEvent? (delivery : RawIncomingEventEntity) : Option ValidOrderEvent :=
  match validate delivery with
  | .valid event => some event
  | .invalid _ _ => none

@[simp] theorem validEvent?_eq_some {delivery : RawIncomingEventEntity} {event : ValidOrderEvent} :
    validEvent? delivery = some event ↔ validate delivery = .valid event := by
  unfold validEvent?
  cases validate delivery <;> simp

/-- Validation reads nothing of a delivery but its text. -/
theorem validate_congr {first second : RawIncomingEventEntity}
    (same : first.rawEventJson = second.rawEventJson) : validate first = validate second := by
  simp only [validate, same]

/-- Where the parts of a valid event come from. -/
structure ReadsAs (rawEvent : JsonObject) (event : ValidOrderEvent) : Prop where
  eventId : nonEmptyString? (rawEvent.get "eventId") = some event.eventId
  orderId : nonEmptyString? (rawEvent.get "orderId") = some event.orderId
  type : rawEvent.get "type" = some (.string event.type.text)
  timestamp : finiteNumber? (rawEvent.get "timestamp") = some event.timestamp
  payload : (rawEvent.get "payload").bind JsonValue.asObject? = some event.payload

theorem nonEmptyString?_eq_some {field : Option JsonValue} {value : String}
    (read : nonEmptyString? field = some value) : field = some (.string value) := by
  unfold nonEmptyString? at read
  split at read
  · split at read
    · cases read
      rfl
    · cases read
  · cases read

theorem reads_of_valid {delivery : RawIncomingEventEntity} {event : ValidOrderEvent}
    (valid : validate delivery = .valid event) :
    ∃ rawEvent, (parseJsonValue delivery.rawEventJson).asObject? = some rawEvent ∧ ReadsAs rawEvent event := by
  unfold validate at valid
  repeat' split at valid
  all_goals cases valid
  rename_i rawEvent object _ _ eventId _ _ orderId _ _ typed _ _ named _ _ timestamp _ _ payload
  refine ⟨rawEvent, object, eventId, orderId, ?_, timestamp, payload⟩
  rw [nonEmptyString?_eq_some typed, SupportedEventType.ofText?_eq_some.mp named]

/-- A valid event reads as the fields of its item, as they were written. -/
theorem reads_of_item {item : JsonValue} {receivedAt : Time} {id : ℕ} {event : ValidOrderEvent}
    (valid : validate (createRawIncomingEvent item receivedAt id) = .valid event) :
    ∃ fields, item = .object fields ∧ ReadsAs (writtenFields fields) event := by
  obtain ⟨rawEvent, object, reads⟩ := reads_of_valid valid
  rw [(createRawIncomingEvent_lifecycle item receivedAt id).2.2, asObject?_eq_some] at object
  obtain ⟨fields, posted, rfl⟩ := written_eq_object.mp object
  exact ⟨fields, posted, reads⟩

theorem finiteNumber?_eq_some {field : Option JsonValue} {value : ℚ} :
    finiteNumber? field = some value ↔ field = some (.number (.finite value)) := by
  unfold finiteNumber?
  split <;> simp_all

/-- The timestamp an item is projected to is the one its event has. -/
theorem createRawIncomingEvent_timestamp {item : JsonValue} {receivedAt : Time} {id : ℕ} {event : ValidOrderEvent}
    (valid : validate (createRawIncomingEvent item receivedAt id) = .valid event) :
    (createRawIncomingEvent item receivedAt id).eventTimestamp = some event.timestamp := by
  obtain ⟨fields, rfl, reads⟩ := reads_of_item valid
  have found := (get_writtenFields_eq_some fun _ => written_eq_finite).mp (finiteNumber?_eq_some.mp reads.timestamp)
  simp [createRawIncomingEvent, JsonValue.asObject?, finiteNumberOrNull, found]

/-- A validation failure is a schema or an event-type failure. -/
theorem invalid_reason {delivery : RawIncomingEventEntity} {reasonCode : ReasonCode} {reasonMessage : String}
    (invalid : validate delivery = .invalid reasonCode reasonMessage) :
    reasonCode = .invalidSchema ∨ reasonCode = .unknownEventType := by
  unfold validate at invalid
  repeat' split at invalid
  all_goals cases invalid
  all_goals simp

end EventEngine
