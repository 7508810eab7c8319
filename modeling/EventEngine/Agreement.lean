import EventEngine.EventInspector
import EventEngine.OrderViews
import Mathlib.Data.List.TakeWhile

/-! One event, read twice. Ingestion reads a posted item into the columns of its
row, validation reads the row's text, and neither knows of the other. They read
the same event: what the queue is sorted by and the views select by is what the
worker applies. -/
namespace EventEngine.Agreement
open EventEngine Relational Projections

/-! ## What validation accepts -/

/-- A string with a character that is not white space. -/
def HasText (value : String) : Prop := ∃ c ∈ value.toList, isTrimmed c = false

theorem isNonBlank_iff {value : String} : isNonBlank value = true ↔ HasText value := by
  have blank : (trim value).isEmpty = true ↔ ∀ c ∈ value.toList, isTrimmed c = true := by
    rw [trim, String.isEmpty_iff, String.ofList_eq_empty_iff, List.reverse_eq_nil_iff, List.dropWhile_eq_nil_iff]
    constructor
    · intro trimmed c member
      rw [← @List.takeWhile_append_dropWhile Char isTrimmed value.toList, List.mem_append] at member
      rcases member with leading | rest
      · exact List.mem_takeWhile_imp leading
      · exact trimmed c (List.mem_reverse.mpr rest)
    · intro blank c member
      exact blank c ((List.dropWhile_sublist _).subset (List.mem_reverse.mp member))
  rw [isNonBlank, Bool.not_eq_true', ← Bool.not_eq_true, blank, HasText]
  push Not
  simp only [Bool.not_eq_true]

theorem nonEmptyString?_iff {field : Option JsonValue} {value : String} :
    nonEmptyString? field = some value ↔ field = some (.string value) ∧ HasText value := by
  constructor
  · intro read
    obtain rfl := nonEmptyString?_eq_some read
    have nonBlank : isNonBlank value = true := by
      by_contra blank
      simp [nonEmptyString?, blank] at read
    exact ⟨rfl, isNonBlank_iff.mp nonBlank⟩
  · rintro ⟨rfl, text⟩
    simp only [nonEmptyString?, isNonBlank_iff.mpr text, ↓reduceIte]

/-- What the properties of a posted object must be for its event to be accepted. -/
structure WellFormed (fields : JsonObject) : Prop where
  eventId : ∃ eventId, fields.get "eventId" = some (.string eventId) ∧ HasText eventId
  orderId : ∃ orderId, fields.get "orderId" = some (.string orderId) ∧ HasText orderId
  type : ∃ type : SupportedEventType, fields.get "type" = some (.string type.text)
  timestamp : ∃ timestamp : ℚ, fields.get "timestamp" = some (.number (.finite timestamp))
  payload : ∃ payload, fields.get "payload" = some (.object payload)

theorem hasText_type (type : SupportedEventType) : HasText type.text := by
  rw [← isNonBlank_iff]
  cases type <;> decide +kernel

/-- What reads as an event validates as that event. -/
theorem valid_of_reads {delivery : RawIncomingEventEntity} {rawEvent : JsonObject} {event : ValidOrderEvent}
    (object : (parseJsonValue delivery.rawEventJson).asObject? = some rawEvent) (reads : ReadsAs rawEvent event) :
    validate delivery = .valid event := by
  have type : nonEmptyString? (rawEvent.get "type") = some event.type.text :=
    nonEmptyString?_iff.mpr ⟨reads.type, hasText_type _⟩
  have supported : SupportedEventType.ofText? event.type.text = some event.type :=
    SupportedEventType.ofText?_eq_some.mpr rfl
  simp only [validate, object, reads.eventId, reads.orderId, type, supported, reads.timestamp, reads.payload]

/-- A property reads as an object exactly when it was posted as one. -/
theorem posted_object {fields : JsonObject} {name : String} :
    (∃ payload, (JsonObject.get (writtenFields fields) name).bind JsonValue.asObject? = some payload) ↔
      ∃ payload, fields.get name = some (.object payload) := by
  rw [get_writtenFields]
  constructor
  · rintro ⟨payload, read⟩
    obtain ⟨value, written, object⟩ := Option.bind_eq_some_iff.mp read
    obtain ⟨held, found, rfl⟩ := Option.map_eq_some_iff.mp written
    obtain ⟨before, rfl, -⟩ := written_eq_object.mp (asObject?_eq_some.mp object)
    exact ⟨before, found⟩
  · rintro ⟨payload, found⟩
    rw [found]
    exact ⟨_, rfl⟩

/-- A posted number is read back exactly when it is finite. -/
theorem posted_number {fields : JsonObject} {name : String} {value : ℚ} :
    finiteNumber? (JsonObject.get (writtenFields fields) name) = some value ↔
      fields.get name = some (.number (.finite value)) :=
  finiteNumber?_eq_some.trans (get_writtenFields_eq_some fun _ => written_eq_finite)

/-- A property reads as a non-empty string exactly when it was posted as one. -/
theorem posted_text {fields : JsonObject} {name value : String} :
    nonEmptyString? (JsonObject.get (writtenFields fields) name) = some value ↔
      fields.get name = some (.string value) ∧ HasText value :=
  nonEmptyString?_iff.trans (and_congr_left fun _ => posted_string)

/-- An object reads as an event once it is written exactly when it is well formed. -/
theorem reads_iff_wellFormed {fields : JsonObject} :
    (∃ event, ReadsAs (writtenFields fields) event) ↔ WellFormed fields := by
  constructor
  · rintro ⟨event, reads⟩
    exact ⟨⟨_, posted_text.mp reads.eventId⟩, ⟨_, posted_text.mp reads.orderId⟩, ⟨_, posted_string.mp reads.type⟩,
      ⟨_, posted_number.mp reads.timestamp⟩, posted_object.mp ⟨_, reads.payload⟩⟩
  · intro wellFormed
    obtain ⟨eventId, eventRead⟩ := wellFormed.eventId
    obtain ⟨orderId, orderRead⟩ := wellFormed.orderId
    obtain ⟨type, typeRead⟩ := wellFormed.type
    obtain ⟨timestamp, timestampRead⟩ := wellFormed.timestamp
    obtain ⟨payload, payloadRead⟩ := posted_object.mpr wellFormed.payload
    exact ⟨⟨eventId, orderId, type, timestamp, payload⟩, posted_text.mpr eventRead, posted_text.mpr orderRead,
      posted_string.mpr typeRead, posted_number.mpr timestampRead, payloadRead⟩

/-- **Validation accepts the items that are well formed.** -/
theorem accepts_iff_wellFormed {item : JsonValue} {receivedAt : Time} {id : ℕ} :
    (∃ event, validate (createRawIncomingEvent item receivedAt id) = .valid event) ↔
      ∃ fields, item = .object fields ∧ WellFormed fields := by
  constructor
  · rintro ⟨event, valid⟩
    obtain ⟨fields, posted, reads⟩ := reads_of_item valid
    exact ⟨fields, posted, reads_iff_wellFormed.mp ⟨event, reads⟩⟩
  · rintro ⟨fields, rfl, wellFormed⟩
    obtain ⟨event, reads⟩ := reads_iff_wellFormed.mpr wellFormed
    refine ⟨event, valid_of_reads ?_ reads⟩
    rw [(createRawIncomingEvent_lifecycle _ receivedAt id).2.2]
    rfl

/-! ## The two readings of an item -/

/-- Ingestion and validation read a posted item alike. -/
structure ReadsAlike (item : JsonValue) (row : RawIncomingEventEntity) : Prop where
  accepts : (∃ event, validate row = .valid event) ↔ ∃ fields, item = .object fields ∧ WellFormed fields
  projects : ∀ event, validate row = .valid event → Projects row event
  /-- What is queued without a timestamp is refused. -/
  untimed : row.eventTimestamp = none → ∃ reasonCode reasonMessage, validate row = .invalid reasonCode reasonMessage

theorem readsAlike_posted (item : JsonValue) (receivedAt : Time) (id : ℕ) :
    ReadsAlike item (createRawIncomingEvent item receivedAt id) where
  accepts := accepts_iff_wellFormed
  projects _ valid := projects_posted valid
  untimed := by
    intro untimed
    cases valid : validate (createRawIncomingEvent item receivedAt id) with
    | invalid reasonCode reasonMessage => exact ⟨reasonCode, reasonMessage, rfl⟩
    | valid event =>
      rw [createRawIncomingEvent_timestamp valid] at untimed
      cases untimed

/-! ## The scheduler, the views and the worker -/

/-- A step applies to an order a delivery that is found under it, and stamps the
fields it writes with what that delivery was queued and is found under. -/
def AppliesDelivery (sys : System) (action : Action) (sys' : System) (orderId : String) : Prop :=
  ∃ row ∈ rawEventsOf sys.store orderId, calledDelivery sys action = some row.id ∧
    ∀ field version, sys'.store.orderFieldVersions.find (orderId, field) = some version →
      sys.store.orderFieldVersions.find (orderId, field) = some version ∨
        row.eventTimestamp = some version.lastEventTimestamp ∧ row.eventId = some version.lastEventId

/-- What the scheduler, the views and the worker take a delivery's event to be. -/
structure OneEvent (sys : System) : Prop where
  /-- Events are queued by their timestamps, and then as they arrived. -/
  queue : ∀ first ∈ sys.store.rawIncomingEvents.rows, ∀ second ∈ sys.store.rawIncomingEvents.rows,
    ∀ event later, validate first = .valid event → validate second = .valid later →
      (queuedBefore first second ↔
        event.timestamp < later.timestamp ∨ event.timestamp = later.timestamp ∧ first.id ≤ second.id)
  /-- The views find a delivery under the identifiers of its event. -/
  orderView : ∀ row ∈ sys.store.rawIncomingEvents.rows, ∀ event, validate row = .valid event →
    ∀ orderId, row ∈ rawEventsOf sys.store orderId ↔ event.orderId = orderId
  eventView : ∀ row ∈ sys.store.rawIncomingEvents.rows, ∀ event, validate row = .valid event →
    ∀ eventId, row ∈ EventInspector.deliveriesOf sys.store eventId ↔ event.eventId = eventId
  worker : ∀ action sys', step sys action = some sys' →
    ∀ orderId, sys'.store.view orderId ≠ sys.store.view orderId → AppliesDelivery sys action sys' orderId

variable {sys sys' : System}

theorem worker_applies_projected (reachable : Reachable sys) {action : Action} (taken : step sys action = some sys')
    {orderId : String} (moved : sys'.store.view orderId ≠ sys.store.view orderId) :
    AppliesDelivery sys action sys' orderId := by
  rcases store_of_step reachable.consistent taken with
    same | ⟨events, receivedAt, rfl, same⟩ | ⟨delivery, host, called, call⟩
  · exact absurd (congrArg (·.view orderId) same) moved
  · exact absurd ((congrArg (·.view orderId) same).trans (view_enqueueBatch orderId)) moved
  · rcases view_outcome call.outcome orderId with same | ⟨event, application, valid, own, -, applied⟩
    · exact absurd same moved
    · have projects := projects_of_valid (posted_reachable reachable) call.stored valid
      have member := (sys.store.rawIncomingEvents.find_eq_some.mp call.stored).1
      refine ⟨delivery, OrderViews.mem_rawEventsOf.mpr ⟨member, by rw [projects.orderId, own]⟩, called, ?_⟩
      intro field version found
      have after : ((sys.store.view orderId).apply event application).version field = some version := by
        rw [← applied]
        exact found
      simp only [OrderView.apply] at after
      split at after
      · obtain rfl := Option.some.inj after
        exact Or.inr ⟨projects.timestamp, projects.eventId⟩
      · exact Or.inl after

theorem oneEvent_reachable (reachable : Reachable sys) : OneEvent sys := by
  have projects : ∀ row ∈ sys.store.rawIncomingEvents.rows, ∀ event, validate row = .valid event → Projects row event :=
    fun row member event valid =>
      projects_of_valid (posted_reachable reachable) (sys.store.rawIncomingEvents.find_self member) valid
  refine ⟨?_, ?_, ?_, fun action sys' taken orderId moved => worker_applies_projected reachable taken moved⟩
  · intro first member second member' event later valid valid'
    simp [queuedBefore, (projects first member event valid).timestamp, (projects second member' later valid').timestamp]
  · intro row member event valid orderId
    simp [OrderViews.mem_rawEventsOf, member, (projects row member event valid).orderId]
  · intro row member event valid eventId
    simp [EventInspector.mem_deliveriesOf, member, (projects row member event valid).eventId]

/-! ## The guarantee -/

/-- **Ingestion and validation read the same event**: of every posted item, and so
in every inbox. -/
theorem ingestion_and_validation_agree (reachable : Reachable sys) :
    (∀ item receivedAt id, ReadsAlike item (createRawIncomingEvent item receivedAt id)) ∧ OneEvent sys :=
  ⟨readsAlike_posted, oneEvent_reachable reachable⟩

theorem ingestion_and_validation_agree_out_of_order :
    (∀ item receivedAt id, ReadsAlike item (createRawIncomingEvent item receivedAt id)) ∧ OneEvent outOfOrderSystem :=
  ingestion_and_validation_agree (reachable_of_run outOfOrder_run)

end EventEngine.Agreement
