import EventEngine.Decisions
import EventEngine.Payload

/-! The application services: creating an order, merging an update, capturing,
cancelling and refunding, and the handlers that select among them by status. -/
namespace EventEngine
open Relational

namespace OrderFieldVersion

/-- `OrderFieldVersionService.canApplyField`. -/
def canApplyField (orderId : String) (fieldName : OrderVersionedField) (timestamp : ℚ) : Tx Store Bool := do
  match ← Statement.findFieldVersion orderId fieldName with
  | none => pure true
  | some version => pure (version.lastEventTimestamp < timestamp)

/-- `OrderFieldVersionService.canApplyStatus`. -/
def canApplyStatus (context : OrderEventHandlingContext) : Tx Store Bool :=
  canApplyField context.event.orderId .status context.event.timestamp

/-- `OrderFieldVersionService.upsertFieldVersion`. -/
def upsertFieldVersion (orderId : String) (fieldName : OrderVersionedField) (timestamp : ℚ)
    (eventId : String) : Tx Store Unit :=
  Statement.saveFieldVersion
    { orderId, fieldName, lastEventTimestamp := timestamp, lastEventId := eventId }

end OrderFieldVersion

/-- `upsertFieldVersion` with the context's order, timestamp and event. -/
def upsertFieldVersion (context : OrderEventHandlingContext) (fieldName : OrderVersionedField) : Tx Store Unit :=
  OrderFieldVersion.upsertFieldVersion context.event.orderId fieldName context.event.timestamp
    context.event.eventId

namespace OrderCreationApplication

/-- `OrderCreationApplicationService.buildChangedFields`. -/
def buildChangedFields (amountMinor : Option ℤ) (currency : Option String) : JsonObject :=
  let changedFields : JsonObject := [("status", .status .created)]
  let changedFields := match amountMinor with
    | none => changedFields
    | some amountMinor => changedFields.set "amountMinor" (.minor amountMinor)
  match currency with
  | none => changedFields
  | some currency => changedFields.set "currency" (.string currency)

/-- `OrderCreationApplicationService.writeFieldVersions`. -/
def writeFieldVersions (context : OrderEventHandlingContext) (amountMinor : Option ℤ)
    (currency : Option String) : Tx Store Unit := do
  upsertFieldVersion context .status
  if amountMinor.isSome then upsertFieldVersion context .amountMinor
  if currency.isSome then upsertFieldVersion context .currency

/-- The row `createOrder` saves. -/
def createdOrder (event : ValidOrderEvent) (now : Time) : OrderEntity where
  orderId := event.orderId
  status := .created
  amountMinor := readNonNegativeAmountMinor event.payload "amount"
  currency := readCurrency event.payload
  paidAmountMinor := 0
  refundedAmountMinor := 0
  createdAt := now
  updatedAt := now

/-- `OrderCreationApplicationService.createOrder`. -/
def createOrder (context : OrderEventHandlingContext) : Tx Store Unit := do
  let amountMinor := readNonNegativeAmountMinor context.event.payload "amount"
  let currency := readCurrency context.event.payload
  let changedFields := buildChangedFields amountMinor currency
  Statement.saveOrder (createdOrder context.event context.host.now)
  writeFieldVersions context amountMinor currency
  OrderApplicationDecision.accept context none .created changedFields

end OrderCreationApplication

namespace OrderUpdateApplication

/-- The three records the update loop builds. -/
structure Merge where
  changedFields : JsonObject := []
  skippedFields : JsonObject := []
  orderPatch : JsonObject := []

def Merge.apply (merge : Merge) (change : VersionedFieldChange) : Merge :=
  { merge with
    changedFields := merge.changedFields.set change.field.text change.value
    orderPatch := merge.orderPatch.set change.column change.value }

def Merge.skip (merge : Merge) (change : VersionedFieldChange) : Merge :=
  { merge with skippedFields := merge.skippedFields.set change.field.text (.reason .obsoleteField) }

/-- The loop of `updateOrderFields` over the requested changes. -/
def mergeChanges (context : OrderEventHandlingContext) : List VersionedFieldChange → Merge → Tx Store Merge
  | [], merge => pure merge
  | change :: rest, merge => do
    if ← OrderFieldVersion.canApplyField context.event.orderId change.field context.event.timestamp then
      upsertFieldVersion context change.field
      mergeChanges context rest (merge.apply change)
    else
      mergeChanges context rest (merge.skip change)

/-- `OrderUpdateApplicationService.writeDecision`. -/
def writeDecision (context : OrderEventHandlingContext) (order : OrderEntity)
    (changedFields skippedFields : JsonObject) : Tx Store Unit :=
  let hasSkippedFields := !skippedFields.isEmpty
  EventDecisionWriter.writeFinalDecision
    { delivery := context.delivery
      decision := if hasSkippedFields then .partiallyApplied else .accepted
      reasonCode := if hasSkippedFields then .partialMerge else .applied
      reasonMessage :=
        if hasSkippedFields then "Order fields were partially merged" else "Order fields were updated"
      fromStatus := some order.status, toStatus := some order.status, changedFields, skippedFields
      processingTimeMs := context.host.processingTimeMs }
    context.host.now

/-- `OrderUpdateApplicationService.updateOrderFields`. -/
def updateOrderFields (context : OrderEventHandlingContext) : Tx Store Unit :=
  match context.order with
  | none =>
    OrderApplicationDecision.retryOrReject context .orderNotReady "Event requires an existing order"
  | some order => do
    let merge ← mergeChanges context (readOrderUpdateChanges context.event.payload) {}
    let skippedFields :=
      if context.event.payload.hasOwn "status" then
        merge.skippedFields.set "status" (.reason .forbiddenTransition)
      else merge.skippedFields
    if merge.changedFields.isEmpty then
      OrderApplicationDecision.reject context .noApplicableChanges
        "ORDER_UPDATED did not contain any applicable field changes" skippedFields
    else
      Statement.updateOrder order.orderId merge.orderPatch context.host.now
      writeDecision context order merge.changedFields skippedFields

end OrderUpdateApplication

namespace OrderLifecycleApplication

/-- `OrderLifecycleApplicationService.rejectOrderNotReady`. -/
def rejectOrderNotReady (context : OrderEventHandlingContext) : Tx Store Unit :=
  OrderApplicationDecision.retryOrReject context .orderNotReady "Event requires an existing order"

/-- `OrderLifecycleApplicationService.applyStatusWhenCurrent`. -/
def applyStatusWhenCurrent (context : OrderEventHandlingContext) (toStatus : OrderStatus)
    (changedFields : JsonObject) : Tx Store Unit := do
  if ← OrderFieldVersion.canApplyStatus context then
    Statement.updateOrder context.event.orderId changedFields context.host.now
    upsertFieldVersion context .status
    OrderApplicationDecision.accept context (context.order.map (·.status)) toStatus changedFields
  else
    OrderApplicationDecision.rejectObsoleteStatus context

/-- `OrderLifecycleApplicationService.applyRefund`. -/
def applyRefund (context : OrderEventHandlingContext) (toStatus : OrderStatus)
    (changedFields : JsonObject) : Tx Store Unit := do
  Statement.updateOrder context.event.orderId changedFields context.host.now
  if ← OrderFieldVersion.canApplyStatus context then
    upsertFieldVersion context .status
  OrderApplicationDecision.accept context (context.order.map (·.status)) toStatus changedFields

/-- `OrderLifecycleApplicationService.capturePayment`. -/
def capturePayment (context : OrderEventHandlingContext) : Tx Store Unit :=
  match context.order with
  | none => rejectOrderNotReady context
  | some order =>
    match readPositiveAmountMinor context.event.payload "amount" with
    | none =>
      OrderApplicationDecision.reject context .paymentAmountRequired
        "PAYMENT_CAPTURED requires a positive amount"
    | some amountMinor =>
      if 0 < order.paidAmountMinor then
        OrderApplicationDecision.reject context .paymentAlreadyCaptured
          "Payment was already captured for this order"
      else
        applyStatusWhenCurrent context .paid
          [("paidAmountMinor", .minor amountMinor), ("status", .status .paid)]

/-- `OrderLifecycleApplicationService.cancelOrder`. -/
def cancelOrder (context : OrderEventHandlingContext) : Tx Store Unit :=
  match context.order with
  | none => rejectOrderNotReady context
  | some _ => applyStatusWhenCurrent context .cancelled [("status", .status .cancelled)]

/-- `OrderLifecycleApplicationService.refundableAmountMinor`. -/
def refundableAmountMinor (order : OrderEntity) : ℤ := order.paidAmountMinor - order.refundedAmountMinor

/-- `OrderLifecycleApplicationService.refundStatus`. -/
def refundStatus (order : OrderEntity) (refundedAmountMinor : ℤ) : OrderStatus :=
  if refundedAmountMinor = order.paidAmountMinor then .refunded else .partiallyRefunded

/-- `OrderLifecycleApplicationService.issueRefund`. -/
def issueRefund (context : OrderEventHandlingContext) : Tx Store Unit :=
  match context.order with
  | none => rejectOrderNotReady context
  | some order =>
    match readRefundAmountMinor context.event.payload with
    | none =>
      OrderApplicationDecision.reject context .refundAmountRequired
        "REFUND_ISSUED requires a positive refundAmount"
    | some refundAmountMinor =>
      if refundableAmountMinor order < refundAmountMinor then
        OrderApplicationDecision.reject context .refundExceedsCaptured
          "Refund amount exceeds captured payment"
      else
        let refundedAmountMinor := order.refundedAmountMinor + refundAmountMinor
        let nextStatus := refundStatus order refundedAmountMinor
        applyRefund context nextStatus
          [("refundedAmountMinor", .minor refundedAmountMinor), ("status", .status nextStatus)]

end OrderLifecycleApplication

namespace OrderStateApplication

/-- `OrderStateApplicationService.rejectOrderAlreadyExists`. -/
def rejectOrderAlreadyExists (context : OrderEventHandlingContext) : Tx Store Unit :=
  OrderApplicationDecision.reject context .orderAlreadyExists
    "ORDER_CREATED cannot be applied because the order already exists"

/-- `OrderStateApplicationService.rejectOrderNotReady`. -/
def rejectOrderNotReady (context : OrderEventHandlingContext) : Tx Store Unit :=
  OrderApplicationDecision.retryOrReject context .orderNotReady "Event requires an existing order"

/-- The message of `rejectForbiddenTransition`. -/
def forbiddenTransitionMessage (type : SupportedEventType) (order : Option OrderEntity) : String :=
  "Event " ++ type.text ++ " cannot be applied while order status is " ++
    OrderStatus.text ((order.map OrderEntity.status).getD .doesNotExist)

/-- `OrderStateApplicationService.rejectForbiddenTransition`. -/
def rejectForbiddenTransition (context : OrderEventHandlingContext) : Tx Store Unit :=
  OrderApplicationDecision.reject context .forbiddenTransition
    (forbiddenTransitionMessage context.event.type context.order)

end OrderStateApplication

/-! ## Handlers -/

/-- `order-event-handler.ts::OrderEventHandler`. -/
structure OrderEventHandler where
  handleOrderCreatedEvent : OrderEventHandlingContext → Tx Store Unit
  handleOrderUpdatedEvent : OrderEventHandlingContext → Tx Store Unit
  handlePaymentCapturedEvent : OrderEventHandlingContext → Tx Store Unit
  handleOrderCancelledEvent : OrderEventHandlingContext → Tx Store Unit
  handleRefundIssuedEvent : OrderEventHandlingContext → Tx Store Unit

open OrderStateApplication OrderCreationApplication OrderUpdateApplication OrderLifecycleApplication

def nonExistentOrderEventHandler : OrderEventHandler where
  handleOrderCreatedEvent := createOrder
  handleOrderUpdatedEvent := OrderStateApplication.rejectOrderNotReady
  handlePaymentCapturedEvent := OrderStateApplication.rejectOrderNotReady
  handleOrderCancelledEvent := OrderStateApplication.rejectOrderNotReady
  handleRefundIssuedEvent := OrderStateApplication.rejectOrderNotReady

def orderCreatedEventHandler : OrderEventHandler where
  handleOrderCreatedEvent := rejectOrderAlreadyExists
  handleOrderUpdatedEvent := updateOrderFields
  handlePaymentCapturedEvent := capturePayment
  handleOrderCancelledEvent := cancelOrder
  handleRefundIssuedEvent := rejectForbiddenTransition

def orderCancelledEventHandler : OrderEventHandler where
  handleOrderCreatedEvent := rejectOrderAlreadyExists
  handleOrderUpdatedEvent := updateOrderFields
  handlePaymentCapturedEvent := rejectForbiddenTransition
  handleOrderCancelledEvent := rejectForbiddenTransition
  handleRefundIssuedEvent := rejectForbiddenTransition

/-- What the three handlers of a captured order share, word for word. -/
def capturedOrderEventHandler : OrderEventHandler where
  handleOrderCreatedEvent := rejectOrderAlreadyExists
  handleOrderUpdatedEvent := updateOrderFields
  handlePaymentCapturedEvent := capturePayment
  handleOrderCancelledEvent := rejectForbiddenTransition
  handleRefundIssuedEvent := issueRefund

def orderPaidEventHandler : OrderEventHandler := capturedOrderEventHandler

def orderPartiallyRefundedEventHandler : OrderEventHandler := capturedOrderEventHandler

def orderRefundedEventHandler : OrderEventHandler := capturedOrderEventHandler

/-- The providers decorated with `@HandlesOrderStatus`. -/
def orderEventHandlers : List (OrderStatus × OrderEventHandler) :=
  [(.doesNotExist, nonExistentOrderEventHandler), (.created, orderCreatedEventHandler),
    (.cancelled, orderCancelledEventHandler), (.paid, orderPaidEventHandler),
    (.partiallyRefunded, orderPartiallyRefundedEventHandler), (.refunded, orderRefundedEventHandler)]

/-- `OrderEventHandlerFactory.createOrderEventHandler`. -/
def createOrderEventHandler (orderStatus : OrderStatus) : Except String OrderEventHandler :=
  match orderEventHandlers.lookup orderStatus with
  | some handler => .ok handler
  | none => .error ("Order event handler not found for status " ++ orderStatus.text)

/-- The `switch` of `processEvent` on the event type. -/
def OrderEventHandler.handle (handler : OrderEventHandler) (context : OrderEventHandlingContext) : Tx Store Unit :=
  match context.event.type with
  | .orderCreated => handler.handleOrderCreatedEvent context
  | .orderUpdated => handler.handleOrderUpdatedEvent context
  | .paymentCaptured => handler.handlePaymentCapturedEvent context
  | .orderCancelled => handler.handleOrderCancelledEvent context
  | .refundIssued => handler.handleRefundIssuedEvent context

end EventEngine
