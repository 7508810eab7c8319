import EventEngine.Json

/-! The engine's enumerations, with the texts they are stored under, and the
event a delivery denotes once it has been validated. -/
namespace EventEngine

/-- Milliseconds since the epoch, as `Date.now()` counts them; an ISO text in a
time column is represented by the instant it names. -/
abbrev Time := ℤ

inductive SupportedEventType where
  | orderCreated
  | orderUpdated
  | paymentCaptured
  | orderCancelled
  | refundIssued
  deriving DecidableEq, Repr

def SupportedEventType.text : SupportedEventType → String
  | .orderCreated => "ORDER_CREATED"
  | .orderUpdated => "ORDER_UPDATED"
  | .paymentCaptured => "PAYMENT_CAPTURED"
  | .orderCancelled => "ORDER_CANCELLED"
  | .refundIssued => "REFUND_ISSUED"

/-- `event.types.ts::supportedEventTypes`. -/
def supportedEventTypes : List SupportedEventType :=
  [.orderCreated, .orderUpdated, .paymentCaptured, .orderCancelled, .refundIssued]

/-- The supported type a text names, `supportedEventTypes.includes(value)`. -/
def SupportedEventType.ofText? (value : String) : Option SupportedEventType :=
  supportedEventTypes.find? (·.text == value)

theorem SupportedEventType.ofText?_eq_some {value : String} {type : SupportedEventType} :
    SupportedEventType.ofText? value = some type ↔ type.text = value := by
  constructor
  · intro found
    simpa using List.find?_some found
  · rintro rfl
    cases type <;> decide

inductive OrderStatus where
  | created
  | paid
  | cancelled
  | partiallyRefunded
  | refunded
  | doesNotExist
  deriving DecidableEq, Repr

def OrderStatus.text : OrderStatus → String
  | .created => "CREATED"
  | .paid => "PAID"
  | .cancelled => "CANCELLED"
  | .partiallyRefunded => "PARTIALLY_REFUNDED"
  | .refunded => "REFUNDED"
  | .doesNotExist => "DOES_NOT_EXIST"

/-- `event.types.ts::orderStatuses`. -/
def orderStatuses : List OrderStatus :=
  [.created, .paid, .cancelled, .partiallyRefunded, .refunded, .doesNotExist]

def OrderStatus.ofText? (value : String) : Option OrderStatus :=
  orderStatuses.find? (·.text == value)

@[simp] theorem OrderStatus.ofText?_text (status : OrderStatus) :
    OrderStatus.ofText? status.text = some status := by
  cases status <;> decide

inductive ProcessingStatus where
  | pending
  | retry
  | done
  deriving DecidableEq, Repr

inductive EngineDecision where
  | accepted
  | partiallyApplied
  | rejected
  | duplicate
  | failed
  deriving DecidableEq, Repr

inductive ReasonCode where
  | applied
  | partialMerge
  | duplicateEvent
  | invalidSchema
  | unknownEventType
  | orderNotReady
  | orderAlreadyExists
  | forbiddenTransition
  | obsoleteEvent
  | obsoleteField
  | noApplicableChanges
  | paymentAmountRequired
  | paymentAlreadyCaptured
  | refundAmountRequired
  | refundExceedsCaptured
  | processingError
  deriving DecidableEq, Repr

def ReasonCode.text : ReasonCode → String
  | .applied => "APPLIED"
  | .partialMerge => "PARTIAL_MERGE"
  | .duplicateEvent => "DUPLICATE_EVENT"
  | .invalidSchema => "INVALID_SCHEMA"
  | .unknownEventType => "UNKNOWN_EVENT_TYPE"
  | .orderNotReady => "ORDER_NOT_READY"
  | .orderAlreadyExists => "ORDER_ALREADY_EXISTS"
  | .forbiddenTransition => "FORBIDDEN_TRANSITION"
  | .obsoleteEvent => "OBSOLETE_EVENT"
  | .obsoleteField => "OBSOLETE_FIELD"
  | .noApplicableChanges => "NO_APPLICABLE_CHANGES"
  | .paymentAmountRequired => "PAYMENT_AMOUNT_REQUIRED"
  | .paymentAlreadyCaptured => "PAYMENT_ALREADY_CAPTURED"
  | .refundAmountRequired => "REFUND_AMOUNT_REQUIRED"
  | .refundExceedsCaptured => "REFUND_EXCEEDS_CAPTURED"
  | .processingError => "PROCESSING_ERROR"

inductive OrderVersionedField where
  | status
  | amountMinor
  | currency
  deriving DecidableEq, Repr

/-- The field's name in `order_field_versions` and in decision records. -/
def OrderVersionedField.text : OrderVersionedField → String
  | .status => "status"
  | .amountMinor => "amountMinor"
  | .currency => "currency"

/-- `event.types.ts::ValidOrderEvent`. -/
structure ValidOrderEvent where
  eventId : String
  orderId : String
  type : SupportedEventType
  timestamp : ℚ
  payload : JsonObject
  deriving Repr

/-- A JSON number holding a money amount in minor units. -/
def JsonValue.minor (amount : ℤ) : JsonValue := .number (.finite amount)

/-- A JSON string holding an order status. -/
def JsonValue.status (status : OrderStatus) : JsonValue := .string status.text

/-- A JSON string holding a reason code. -/
def JsonValue.reason (reasonCode : ReasonCode) : JsonValue := .string reasonCode.text

end EventEngine
