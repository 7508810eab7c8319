import EventEngine.Store

/-! The read side of an order: what `GET /api/orders/:id` answers from one
state of the database. -/
namespace EventEngine
open Relational

/-! ## Money in responses -/

/-- `money-response.mapper.ts::minorUnitsToAmount`; the quotient is the rational
the double stands for. -/
def minorUnitsToAmount (value : ℚ) : ℚ := value / 100

/-- `money-response.mapper.ts::minorMoneyFieldResponseNames`. -/
def minorMoneyFieldResponseNames : List (String × String) :=
  [("amountMinor", "amount"), ("paidAmountMinor", "paidAmount"), ("refundedAmountMinor", "refundedAmount")]

/-- `money-response.mapper.ts::mapMoneyFieldValue`. -/
def mapMoneyFieldValue : JsonValue → JsonValue
  | .number (.finite value) => .number (.finite (minorUnitsToAmount value))
  | value => value

/-- A built-in function as a property key: the text `Function.prototype.toString`
gives it. -/
def nativeFunctionText (name : String) : String := "function " ++ name ++ "() \x7b [native code] \x7d"

/-- What every object literal inherits from `Object.prototype`, each value by
its text as a property key. -/
def inheritedProperties : List (String × String) :=
  [("constructor", nativeFunctionText "Object"), ("__proto__", "[object Object]")] ++
    ["__defineGetter__", "__defineSetter__", "hasOwnProperty", "__lookupGetter__", "__lookupSetter__",
      "isPrototypeOf", "propertyIsEnumerable", "toString", "valueOf", "toLocaleString"].map fun name =>
        (name, nativeFunctionText name)

/-- `minorMoneyFieldResponseNames[fieldName]`, by the text of the property key it
is then used as. The lookup also finds what the table inherits. -/
def responseFieldName? (fieldName : String) : Option String :=
  (minorMoneyFieldResponseNames.lookup fieldName).or (inheritedProperties.lookup fieldName)

/-- `money-response.mapper.ts::mapMoneyFieldsForResponse`. -/
def mapMoneyFieldsForResponse (fields : JsonObject) : JsonObject :=
  fields.foldl (fun mappedFields field =>
    match responseFieldName? field.1 with
    | some responseFieldName => mappedFields.set responseFieldName (mapMoneyFieldValue field.2)
    | none => mappedFields.set field.1 field.2) []

/-! ## Responses -/

/-- `orders.types.ts::OrderCurrentState`. -/
structure OrderCurrentState where
  orderId : String
  status : OrderStatus
  amount : Option ℚ
  currency : Option String
  paidAmount : ℚ
  refundedAmount : ℚ
  createdAt : Time
  updatedAt : Time
  deriving DecidableEq, Repr

/-- `orders.types.ts::OrderDecisionEntry`. -/
structure OrderDecisionEntry where
  id : ℕ
  rawIncomingEventId : ℕ
  eventId : Option String
  orderId : Option String
  type : Option String
  timestamp : Option ℚ
  decision : EngineDecision
  reasonCode : ReasonCode
  reasonMessage : String
  fromStatus : Option OrderStatus
  toStatus : Option OrderStatus
  changedFields : JsonObject
  skippedFields : JsonObject
  processingTimeMs : ℤ
  createdAt : Time
  deriving Repr

/-- `orders.types.ts::OrderHistoryEntry`. -/
structure OrderHistoryEntry where
  id : ℕ
  eventId : String
  type : String
  timestamp : ℚ
  processedAt : Time
  fromStatus : Option OrderStatus
  toStatus : OrderStatus
  changedFields : JsonObject
  skippedFields : JsonObject
  decision : EngineDecision
  reasonCode : ReasonCode
  createdAt : Time
  deriving Repr

/-- `orders.types.ts::OrderPendingJob`. -/
structure OrderPendingJob where
  id : ℕ
  rawIncomingEventId : ℕ
  status : ProcessingStatus
  availableAt : Time
  attempts : ℕ
  lastErrorMessage : Option String
  eventId : Option String
  orderId : Option String
  type : Option String
  timestamp : Option ℚ
  receivedAt : Time
  deriving Repr

/-- `orders.types.ts::OrderDetailsResponse`. The fields of the current state are
present together or not at all. -/
structure OrderDetailsResponse where
  orderId : String
  currentState : Option OrderCurrentState
  history : List OrderHistoryEntry
  rejectedEvents : List OrderDecisionEntry
  pendingJobs : List OrderPendingJob
  auditLog : List OrderDecisionEntry
  deriving Repr

/-! ## Queries -/

/-- The state `OrdersService.findCurrentState` reports for a row. -/
def OrderEntity.currentState (order : OrderEntity) : OrderCurrentState where
  orderId := order.orderId
  status := order.status
  amount := order.amountMinor.map fun amountMinor => minorUnitsToAmount amountMinor
  currency := order.currency
  paidAmount := minorUnitsToAmount order.paidAmountMinor
  refundedAmount := minorUnitsToAmount order.refundedAmountMinor
  createdAt := order.createdAt
  updatedAt := order.updatedAt

/-- `OrdersService.findCurrentState`. -/
def findCurrentState (s : Store) (orderId : String) : Option OrderCurrentState :=
  (s.orders.find orderId).map (·.currentState)

/-- `OrdersService.mapDecision`. -/
def mapDecision (decision : EventDecisionEntity) (raw : RawIncomingEventEntity) : OrderDecisionEntry where
  id := decision.id
  rawIncomingEventId := decision.rawIncomingEventId
  eventId := raw.eventId
  orderId := raw.orderId
  type := raw.type
  timestamp := raw.eventTimestamp
  decision := decision.decision
  reasonCode := decision.reasonCode
  reasonMessage := decision.reasonMessage
  fromStatus := decision.fromStatus
  toStatus := decision.toStatus
  changedFields := mapMoneyFieldsForResponse (parseJsonObject decision.changedFieldsJson)
  skippedFields := mapMoneyFieldsForResponse (parseJsonObject decision.skippedFieldsJson)
  processingTimeMs := decision.processingTimeMs
  createdAt := decision.createdAt

/-- `rawEvents.find({ where: { orderId } })`, by id. -/
def rawEventsOf (s : Store) (orderId : String) : List RawIncomingEventEntity :=
  s.rawIncomingEvents.rows.filter (·.orderId == some orderId)

/-- `OrdersService.readAuditLog`. The decisions are those of the raw events
found, so the lookup in `rawById` always succeeds. -/
def readAuditLog (s : Store) (orderId : String) : List OrderDecisionEntry :=
  let rawEvents := rawEventsOf s orderId
  if rawEvents.isEmpty then []
  else
    let decisions := s.eventDecisions.rows.filter fun decision =>
      (rawEvents.map (·.id)).contains decision.rawIncomingEventId
    decisions.filterMap fun decision =>
      (rawEvents.find? (·.id == decision.rawIncomingEventId)).map (mapDecision decision)

/-- The job `OrdersService.readPendingJobs` reports for a raw event. -/
def RawIncomingEventEntity.pendingJob (raw : RawIncomingEventEntity) : OrderPendingJob where
  id := raw.id
  rawIncomingEventId := raw.id
  status := raw.processingStatus
  availableAt := raw.availableAt
  attempts := raw.attempts
  lastErrorMessage := raw.lastErrorMessage
  eventId := raw.eventId
  orderId := raw.orderId
  type := raw.type
  timestamp := raw.eventTimestamp
  receivedAt := raw.receivedAt

/-- `OrdersService.readPendingJobs`. -/
def readPendingJobs (s : Store) (orderId : String) : List OrderPendingJob :=
  ((rawEventsOf s orderId).filter fun raw =>
    raw.processingStatus = .pending ∨ raw.processingStatus = .retry).map (·.pendingJob)

/-- An entry that `OrdersService.readHistory` keeps, as it reports it. -/
def OrderDecisionEntry.toHistory? (entry : OrderDecisionEntry) : Option OrderHistoryEntry :=
  if entry.decision = .accepted ∨ entry.decision = .partiallyApplied then
    match entry.eventId, entry.type, entry.timestamp, entry.toStatus with
    | some eventId, some type, some timestamp, some toStatus =>
      some
        { id := entry.id, eventId, type, timestamp, processedAt := entry.createdAt
          fromStatus := entry.fromStatus, toStatus
          changedFields := mapMoneyFieldsForResponse entry.changedFields
          skippedFields := mapMoneyFieldsForResponse entry.skippedFields
          decision := entry.decision, reasonCode := entry.reasonCode, createdAt := entry.createdAt }
    | _, _, _, _ => none
  else none

/-- `OrdersService.readHistory`. -/
def readHistory (auditLog : List OrderDecisionEntry) : List OrderHistoryEntry :=
  auditLog.filterMap (·.toHistory?)

/-- `OrdersService.getOrderDetails`, on one state of the database. -/
def getOrderDetails (s : Store) (orderId : String) : Except String OrderDetailsResponse :=
  let currentState := findCurrentState s orderId
  let auditLog := readAuditLog s orderId
  let pendingJobs := readPendingJobs s orderId
  if currentState.isNone ∧ auditLog.isEmpty ∧ pendingJobs.isEmpty then
    .error ("Order " ++ orderId ++ " was not found")
  else .ok
    { orderId := (currentState.map (·.orderId)).getD orderId
      currentState
      history := readHistory auditLog
      rejectedEvents := auditLog.filter fun entry => [.rejected, .duplicate, .failed].contains entry.decision
      pendingJobs
      auditLog }

end EventEngine
