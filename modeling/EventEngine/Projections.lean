import EventEngine.Atomicity

/-! What a delivery is queried by. The columns of an inbox row are filled once,
from the posted item; they are those of the event the delivery validates with,
and no call rewrites them. -/
namespace EventEngine.Projections
open EventEngine Relational Atomicity

/-! ## A posted item -/

/-- The projected columns of a row are those of the event. -/
structure Projects (row : RawIncomingEventEntity) (event : ValidOrderEvent) : Prop where
  eventId : row.eventId = some event.eventId
  orderId : row.orderId = some event.orderId
  type : row.type = some event.type.text
  timestamp : row.eventTimestamp = some event.timestamp

/-- A field reads as a string exactly when it was posted as that string. -/
theorem posted_string {fields : List (String × JsonValue)} {name value : String} :
    JsonObject.get (writtenFields fields) name = some (.string value) ↔
      JsonObject.get fields name = some (.string value) :=
  get_writtenFields_eq_some fun _ => written_eq_string

theorem projects_posted {item : JsonValue} {receivedAt : Time} {id : ℕ} {event : ValidOrderEvent}
    (valid : validate (createRawIncomingEvent item receivedAt id) = .valid event) :
    Projects (createRawIncomingEvent item receivedAt id) event := by
  have timestamp := createRawIncomingEvent_timestamp valid
  obtain ⟨fields, rfl, reads⟩ := reads_of_item valid
  have eventId := posted_string.mp (nonEmptyString?_eq_some reads.eventId)
  have orderId := posted_string.mp (nonEmptyString?_eq_some reads.orderId)
  have type := posted_string.mp reads.type
  refine ⟨?_, ?_, ?_, timestamp⟩ <;>
    simp [createRawIncomingEvent, JsonValue.asObject?, stringOrNull, eventId, orderId, type]

/-! ## The inbox -/

/-- Every delivery was made from a posted item, and is still what it was. -/
def Posted (s : Store) : Prop :=
  ∀ id row, s.rawIncomingEvents.find id = some row →
    ∃ item receivedAt, SameDelivery (createRawIncomingEvent item receivedAt id) row

variable {s s' : Store} {delivery : RawIncomingEventEntity} {host : Host}

/-- A call has the row of every delivery it had before, and no other. -/
theorem row_before (outcome : Outcome s delivery host s') {id : ℕ} {row : RawIncomingEventEntity}
    (found : s'.rawIncomingEvents.find id = some row) :
    ∃ old, s.rawIncomingEvents.find id = some old ∧ SameDelivery old row := by
  cases before : s.rawIncomingEvents.find id with
  | some old =>
    obtain ⟨row', found', same⟩ := keepsDeliveries_outcome outcome id old before
    obtain rfl := Option.some.inj (found.symm.trans found')
    exact ⟨old, rfl, same⟩
  | none =>
    cases outcome.disposition with
    | postponed _ _ _ inbox =>
      rw [inbox, findRow_postpone, before] at found
      cases found
    | settled _ _ _ _ inbox =>
      rw [inbox, findRow_settle, before] at found
      cases found

theorem posted_enqueueBatch (posted : Posted s) (events : List JsonValue) (receivedAt : Time) :
    Posted (enqueueBatch s events receivedAt) := by
  intro id row found
  rcases findRow_enqueueBatch_cases found with before | ⟨-, item, -, rfl⟩
  · exact posted id row before
  · exact ⟨item, receivedAt, .refl _⟩

theorem posted_reachable {sys : System} (reachable : Reachable sys) : Posted sys.store := by
  apply reachable_invariant Posted reachable
  · intro now id row found
    cases found
  · exact fun s events receivedAt _ posted => posted_enqueueBatch posted events receivedAt
  · intro s delivery host s' call posted id row found
    obtain ⟨old, held, same⟩ := row_before call.outcome found
    obtain ⟨item, receivedAt, made⟩ := posted id old held
    exact ⟨item, receivedAt, made.trans same⟩

variable {id : ℕ} {row : RawIncomingEventEntity} {event : ValidOrderEvent}

/-- The columns a delivery is queried by are those of its event. -/
theorem projects_of_valid (posted : Posted s) (found : s.rawIncomingEvents.find id = some row)
    (valid : validate row = .valid event) : Projects row event := by
  obtain ⟨item, receivedAt, same⟩ := posted id row found
  rw [validate_congr same.rawEventJson] at valid
  obtain ⟨eventId, orderId, type, timestamp⟩ := projects_posted valid
  exact ⟨same.eventId.trans eventId, same.orderId.trans orderId, same.type.trans type,
    same.eventTimestamp.trans timestamp⟩

theorem projects_of_posted (posted : Posted s) (found : s.rawIncomingEvents.find id = some row)
    (known : s.eventOf id = some event) : Projects row event := by
  rw [Store.eventOf, found, Option.bind_some, validEvent?_eq_some] at known
  exact projects_of_valid posted found known

end EventEngine.Projections
