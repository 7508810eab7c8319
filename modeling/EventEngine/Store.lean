import EventEngine.Types
import EventEngine.Relational.Tables
import EventEngine.Relational.Transactions

/-! The database: the six tables of the schema, and the statements the services
issue against them. Tables reached only through their primary key are keyed
tables; the inbox and the audit log, which are also scanned, are serial. -/
namespace EventEngine
open Relational

/-! ## Entities -/

/-- `raw-incoming-event.entity.ts`. -/
structure RawIncomingEventEntity where
  id : ℕ
  eventId : Option String
  orderId : Option String
  type : Option String
  eventTimestamp : Option ℚ
  rawEventJson : JsonText
  receivedAt : Time
  processingStatus : ProcessingStatus
  availableAt : Time
  attempts : ℕ
  lastErrorMessage : Option String
  deriving Repr

instance : Serial RawIncomingEventEntity := ⟨RawIncomingEventEntity.id⟩

/-- `processed-event-key.entity.ts`. -/
structure ProcessedEventKeyEntity where
  eventId : String
  firstRawIncomingEventId : ℕ
  deriving DecidableEq, Repr

instance : Keyed ProcessedEventKeyEntity String := ⟨ProcessedEventKeyEntity.eventId⟩

/-- `order.entity.ts`. -/
structure OrderEntity where
  orderId : String
  status : OrderStatus
  amountMinor : Option ℤ
  currency : Option String
  paidAmountMinor : ℤ
  refundedAmountMinor : ℤ
  createdAt : Time
  updatedAt : Time
  deriving DecidableEq, Repr

instance : Keyed OrderEntity String := ⟨OrderEntity.orderId⟩

/-- `order-field-version.entity.ts`. -/
structure OrderFieldVersionEntity where
  orderId : String
  fieldName : OrderVersionedField
  lastEventTimestamp : ℚ
  lastEventId : String
  deriving DecidableEq, Repr

instance : Keyed OrderFieldVersionEntity (String × OrderVersionedField) :=
  ⟨fun version => (version.orderId, version.fieldName)⟩

/-- `event-decision.entity.ts`. -/
structure EventDecisionEntity where
  id : ℕ
  rawIncomingEventId : ℕ
  decision : EngineDecision
  reasonCode : ReasonCode
  reasonMessage : String
  fromStatus : Option OrderStatus
  toStatus : Option OrderStatus
  changedFieldsJson : JsonText
  skippedFieldsJson : JsonText
  processingTimeMs : ℤ
  createdAt : Time
  deriving Repr

instance : Serial EventDecisionEntity := ⟨EventDecisionEntity.id⟩

/-- `engine-stats.entity.ts`. -/
structure EngineStatsEntity where
  id : ℕ
  validEventsCount : ℕ
  rejectedEventsCount : ℕ
  duplicateEventsCount : ℕ
  processedEventsCount : ℕ
  totalProcessingTimeMs : ℤ
  updatedAt : Time
  deriving DecidableEq, Repr

/-- The whole database. The schema admits at most the one `stats` row. -/
structure Store where
  rawIncomingEvents : SerialTable RawIncomingEventEntity
  processedEventKeys : KeyedTable ProcessedEventKeyEntity String
  orders : KeyedTable OrderEntity String
  orderFieldVersions : KeyedTable OrderFieldVersionEntity (String × OrderVersionedField)
  eventDecisions : SerialTable EventDecisionEntity
  stats : Option EngineStatsEntity

/-- What the migrations leave: empty tables and one zeroed `stats` row. -/
def Store.migrated (now : Time) : Store where
  rawIncomingEvents := .empty
  processedEventKeys := .empty
  orders := .empty
  orderFieldVersions := .empty
  eventDecisions := .empty
  stats := some ⟨1, 0, 0, 0, 0, 0, now⟩

/-- The decision recorded for a delivery. -/
def Store.decisionOf (s : Store) (rawIncomingEventId : ℕ) : Option EventDecisionEntity :=
  s.eventDecisions.rows.find? (·.rawIncomingEventId == rawIncomingEventId)

/-! ## Assigning a partial entity -/

/-- The amount a JSON value puts into a money column. -/
def minorOf : JsonValue → Option ℤ
  | .number (.finite value) => some ⌊value⌋
  | _ => none

def statusOf : JsonValue → Option OrderStatus
  | .string value => OrderStatus.ofText? value
  | _ => none

def stringOf : JsonValue → Option String
  | .string value => some value
  | _ => none

/-- The value of a column after an assignment that may name it: a property
that is absent, or not of the column's type, leaves the column as it is. -/
def assigned {α : Type} (fields : JsonObject) (name : String) (read : JsonValue → Option α) (current : α) : α :=
  ((fields.get name).bind read).getD current

/-- `update({ orderId }, { ...fields, updatedAt })` on the row it selects. -/
def OrderEntity.assign (order : OrderEntity) (fields : JsonObject) (updatedAt : Time) : OrderEntity :=
  { order with
    status := assigned fields "status" statusOf order.status
    amountMinor := assigned fields "amountMinor" (fun value => (minorOf value).map some) order.amountMinor
    currency := assigned fields "currency" (fun value => (stringOf value).map some) order.currency
    paidAmountMinor := assigned fields "paidAmountMinor" minorOf order.paidAmountMinor
    refundedAmountMinor := assigned fields "refundedAmountMinor" minorOf order.refundedAmountMinor
    updatedAt }

@[simp] theorem minorOf_minor (amount : ℤ) : minorOf (.minor amount) = some amount := by
  simp [minorOf, JsonValue.minor]

@[simp] theorem statusOf_status (status : OrderStatus) : statusOf (.status status) = some status := by
  simp [statusOf, JsonValue.status]

@[simp] theorem stringOf_string (value : String) : stringOf (.string value) = some value := rfl

/-! ## Statements -/

namespace Statement

def findDecision (rawIncomingEventId : ℕ) : Tx Store (Option EventDecisionEntity) :=
  .read fun s => s.decisionOf rawIncomingEventId

def findRawIncomingEvent (id : ℕ) : Tx Store (Option RawIncomingEventEntity) :=
  .read fun s => s.rawIncomingEvents.find id

def findEventKey (eventId : String) : Tx Store (Option ProcessedEventKeyEntity) :=
  .read fun s => s.processedEventKeys.find eventId

def findOrder (orderId : String) : Tx Store (Option OrderEntity) :=
  .read fun s => s.orders.find orderId

def findFieldVersion (orderId : String) (fieldName : OrderVersionedField) :
    Tx Store (Option OrderFieldVersionEntity) :=
  .read fun s => s.orderFieldVersions.find (orderId, fieldName)

def findStats : Tx Store (Option EngineStatsEntity) := .read (·.stats)

/-- An insert into the audit log, refused when the delivery already has a
decision: `raw_incoming_event_id` is unique. -/
def saveDecision (make : ℕ → EventDecisionEntity)
    (names : ∀ n, Serial.id (make n) = n := by intro; rfl) : Tx Store Unit :=
  .tryWrite fun s =>
    if (s.decisionOf (make s.eventDecisions.next).rawIncomingEventId).isSome then
      .error "UNIQUE constraint failed: event_decisions.raw_incoming_event_id"
    else .ok { s with eventDecisions := s.eventDecisions.insert make names }

def updateRawIncomingEvent (id : ℕ) (change : RawIncomingEventEntity → RawIncomingEventEntity)
    (keeps : ∀ row, Serial.id (change row) = Serial.id row := by intro; rfl) : Tx Store Unit :=
  .write fun s => { s with rawIncomingEvents := s.rawIncomingEvents.modify id change keeps }

def saveEventKey (row : ProcessedEventKeyEntity) : Tx Store Unit :=
  .write fun s => { s with processedEventKeys := s.processedEventKeys.save row }

def saveOrder (row : OrderEntity) : Tx Store Unit :=
  .write fun s => { s with orders := s.orders.save row }

def updateOrder (orderId : String) (fields : JsonObject) (updatedAt : Time) : Tx Store Unit :=
  .write fun s => { s with orders := s.orders.update orderId (·.assign fields updatedAt) }

def saveFieldVersion (row : OrderFieldVersionEntity) : Tx Store Unit :=
  .write fun s => { s with orderFieldVersions := s.orderFieldVersions.save row }

def saveStats (row : EngineStatsEntity) : Tx Store Unit :=
  .write fun s => { s with stats := some row }

end Statement
end EventEngine
