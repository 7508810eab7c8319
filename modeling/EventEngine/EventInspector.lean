import EventEngine.OrderDetails

/-! The read side of an event: what `GET /api/events/:id` answers from one state
of the database. Its decisions and its history are put together as an order's
are, but the history shows the fields of a decision as the decision does. -/
namespace EventEngine.EventInspector
open EventEngine Relational

/-! ## Responses -/

/-- `event.types.ts::EventDecisionDetails`. -/
structure EventDecisionDetails where
  id : ℕ
  rawIncomingEventId : ℕ
  eventId : Option String
  orderId : Option String
  type : Option String
  timestamp : Option ℚ
  decision : EngineDecision
  reasonCode : ReasonCode
  reasonMessage : String
  fromStatus : Option OrderStatus
  toStatus : Option OrderStatus
  changedFields : JsonObject
  skippedFields : JsonObject
  processingTimeMs : ℤ
  createdAt : Time
  deriving Repr

/-- The `processing` part of `event.types.ts::EventDeliveryDetails`. -/
structure DeliveryProcessing where
  status : ProcessingStatus
  availableAt : Time
  attempts : ℕ
  lastErrorMessage : Option String
  deriving Repr

/-- `event.types.ts::EventDeliveryDetails`. -/
structure EventDeliveryDetails where
  rawIncomingEventId : ℕ
  eventId : Option String
  orderId : Option String
  type : Option String
  timestamp : Option ℚ
  receivedAt : Time
  payload : Option JsonObject
  rawEvent : JsonValue
  processing : DeliveryProcessing
  deriving Repr

/-- `event.types.ts::EventHistoryDetails`. -/
structure EventHistoryDetails where
  id : ℕ
  orderId : String
  eventId : String
  type : String
  timestamp : ℚ
  processedAt : Time
  fromStatus : Option OrderStatus
  toStatus : OrderStatus
  changedFields : JsonObject
  skippedFields : JsonObject
  decision : EngineDecision
  reasonCode : ReasonCode
  createdAt : Time
  deriving Repr

/-- `event.types.ts::EventDetailsResponse`. -/
structure EventDetailsResponse where
  eventId : String
  orderIds : List String
  deliveries : List EventDeliveryDetails
  decisions : List EventDecisionDetails
  history : List EventHistoryDetails
  deriving Repr

/-! ## Queries -/

/-- `EventInspectorService.mapDelivery`. -/
def mapDelivery (delivery : RawIncomingEventEntity) : EventDeliveryDetails :=
  let rawEvent := parseJsonValue delivery.rawEventJson
  { rawIncomingEventId := delivery.id
    eventId := delivery.eventId
    orderId := delivery.orderId
    type := delivery.type
    timestamp := delivery.eventTimestamp
    receivedAt := delivery.receivedAt
    payload := (rawEvent.asObject?.bind (·.get "payload")).bind JsonValue.asObject?
    rawEvent
    processing :=
      { status := delivery.processingStatus
        availableAt := delivery.availableAt
        attempts := delivery.attempts
        lastErrorMessage := delivery.lastErrorMessage } }

/-- `EventInspectorService.mapDecision`. -/
def mapDecision (decision : EventDecisionEntity) (delivery : RawIncomingEventEntity) : EventDecisionDetails where
  id := decision.id
  rawIncomingEventId := decision.rawIncomingEventId
  eventId := delivery.eventId
  orderId := delivery.orderId
  type := delivery.type
  timestamp := delivery.eventTimestamp
  decision := decision.decision
  reasonCode := decision.reasonCode
  reasonMessage := decision.reasonMessage
  fromStatus := decision.fromStatus
  toStatus := decision.toStatus
  changedFields := mapMoneyFieldsForResponse (parseJsonObject decision.changedFieldsJson)
  skippedFields := mapMoneyFieldsForResponse (parseJsonObject decision.skippedFieldsJson)
  processingTimeMs := decision.processingTimeMs
  createdAt := decision.createdAt

/-- A decision that `EventInspectorService.readHistory` keeps, as it reports it. -/
def EventDecisionDetails.toHistory? (decision : EventDecisionDetails) : Option EventHistoryDetails :=
  if decision.decision = .accepted ∨ decision.decision = .partiallyApplied then
    match decision.orderId, decision.eventId, decision.type, decision.timestamp, decision.toStatus with
    | some orderId, some eventId, some type, some timestamp, some toStatus =>
      some
        { id := decision.id, orderId, eventId, type, timestamp, processedAt := decision.createdAt
          fromStatus := decision.fromStatus, toStatus
          changedFields := decision.changedFields, skippedFields := decision.skippedFields
          decision := decision.decision, reasonCode := decision.reasonCode, createdAt := decision.createdAt }
    | _, _, _, _, _ => none
  else none

/-- `EventInspectorService.readHistory`. -/
def readHistory (decisions : List EventDecisionDetails) : List EventHistoryDetails :=
  decisions.filterMap (·.toHistory?)

/-- `rawEvents.find({ where: { eventId } })`, by id. -/
def deliveriesOf (s : Store) (eventId : String) : List RawIncomingEventEntity :=
  s.rawIncomingEvents.rows.filter (·.eventId == some eventId)

/-- The decisions `EventInspectorService.getEventDetails` reports. They are those
of the deliveries found, so the lookup in `rawById` always succeeds. -/
def readDecisions (s : Store) (eventId : String) : List EventDecisionDetails :=
  let deliveries := deliveriesOf s eventId
  let decisions := s.eventDecisions.rows.filter fun decision =>
    (deliveries.map (·.id)).contains decision.rawIncomingEventId
  decisions.filterMap fun decision =>
    (deliveries.find? (·.id == decision.rawIncomingEventId)).map (mapDecision decision)

/-- `EventInspectorService.getEventDetails`, on one state of the database. -/
def getEventDetails (s : Store) (eventId : String) : Except String EventDetailsResponse :=
  let deliveries := deliveriesOf s eventId
  if deliveries.isEmpty then .error ("Event " ++ eventId ++ " was not found")
  else
    let decisions := readDecisions s eventId
    .ok
      { eventId
        orderIds := (deliveries.filterMap (·.orderId)).eraseDups
        deliveries := deliveries.map mapDelivery
        decisions
        history := readHistory decisions }

/-! ## What is reported -/

variable {s : Store} {eventId : String}

theorem mem_deliveriesOf {raw : RawIncomingEventEntity} :
    raw ∈ deliveriesOf s eventId ↔ raw ∈ s.rawIncomingEvents.rows ∧ raw.eventId = some eventId := by
  simp [deliveriesOf]

/-- The decisions of an event are those on its deliveries, in their order. -/
theorem readDecisions_eq : readDecisions s eventId = s.eventDecisions.rows.filterMap fun decision =>
    ((s.rawIncomingEvents.find decision.rawIncomingEventId).filter (·.eventId == some eventId)).map
      (mapDecision decision) :=
  s.rawIncomingEvents.join_selected (·.eventId == some eventId) EventDecisionEntity.rawIncomingEventId
    mapDecision s.eventDecisions.rows

theorem mem_readDecisions {entry : EventDecisionDetails} :
    entry ∈ readDecisions s eventId ↔ ∃ decision ∈ s.eventDecisions.rows, ∃ raw,
      s.rawIncomingEvents.find decision.rawIncomingEventId = some raw ∧ raw.eventId = some eventId ∧
        mapDecision decision raw = entry := by
  rw [readDecisions_eq]
  simp only [List.mem_filterMap, Option.map_eq_some_iff, Option.filter_eq_some_iff, beq_iff_eq, and_assoc]

theorem readDecisions_ids_nodup : ((readDecisions s eventId).map (·.id)).Nodup := by
  refine s.eventDecisions.ids_nodup.sublist ?_
  rw [readDecisions_eq]
  apply filterMap_keys
  intro decision entry mapped
  obtain ⟨raw, -, rfl⟩ := Option.map_eq_some_iff.mp mapped
  rfl

/-- A history entry keeps the identifier of its decision. -/
theorem toHistory?_id {entry : EventDecisionDetails} {report : EventHistoryDetails}
    (shown : entry.toHistory? = some report) : report.id = entry.id := by
  unfold EventDecisionDetails.toHistory? at shown
  split at shown
  · split at shown
    · cases shown
      rfl
    · cases shown
  · cases shown

/-- An event with a delivery is found. -/
theorem getEventDetails_of_delivered {raw : RawIncomingEventEntity} (delivered : raw ∈ deliveriesOf s eventId) :
    ∃ details, getEventDetails s eventId = .ok details ∧ details.decisions = readDecisions s eventId ∧
      details.history = readHistory (readDecisions s eventId) := by
  unfold getEventDetails
  simp only
  split
  · rename_i nothing
    rw [List.isEmpty_iff.mp nothing] at delivered
    cases delivered
  · exact ⟨_, rfl, rfl, rfl⟩

end EventEngine.EventInspector
