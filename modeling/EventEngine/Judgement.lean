import EventEngine.Application

/-! What the engine is for, one order at a time: the verdict on an event as a
function of the order's own row and field versions. Nothing here reads or
writes a database; `JudgementProofs` shows that the services carry out exactly
these verdicts. -/
namespace EventEngine
open OrderCreationApplication OrderUpdateApplication OrderLifecycleApplication OrderStateApplication

/-- All that the verdict on an event of one order may depend on. -/
@[ext]
structure OrderView where
  order : Option OrderEntity
  version : OrderVersionedField → Option OrderFieldVersionEntity

/-- An order nobody has created, and no field of which has been stamped. -/
def OrderView.absent : OrderView := ⟨none, fun _ => none⟩

/-- A timestamp is fresh for a field when it is strictly newer than the one the
field was last written at. -/
def isFresh (version : Option OrderFieldVersionEntity) (timestamp : ℚ) : Bool :=
  version.all (·.lastEventTimestamp < timestamp)

/-- What an accepted event does: the order's next row, the fields stamped with
the event, and the record of it. -/
structure Application where
  decision : EngineDecision
  reasonCode : ReasonCode
  reasonMessage : String
  order : OrderEntity
  stamped : List OrderVersionedField
  fromStatus : Option OrderStatus
  toStatus : OrderStatus
  changedFields : JsonObject
  skippedFields : JsonObject

inductive Verdict where
  | notReady
  | rejected (reasonCode : ReasonCode) (reasonMessage : String) (skippedFields : JsonObject)
  | applied (application : Application)

/-- An application recorded as `ACCEPTED`, with nothing skipped. -/
def Application.accepted (order : OrderEntity) (stamped : List OrderVersionedField)
    (fromStatus : Option OrderStatus) (toStatus : OrderStatus) (changedFields : JsonObject) : Application :=
  ⟨.accepted, .applied, "Event was applied", order, stamped, fromStatus, toStatus, changedFields, []⟩

/-- The fields a creation stamps: the status, and what the payload supplies. -/
def createdFields (event : ValidOrderEvent) : List OrderVersionedField :=
  [.status] ++ (if (readNonNegativeAmountMinor event.payload "amount").isSome then [.amountMinor] else []) ++
    (if (readCurrency event.payload).isSome then [.currency] else [])

def creation (event : ValidOrderEvent) (now : Time) : Application :=
  .accepted (createdOrder event now) (createdFields event) none .created
    (buildChangedFields (readNonNegativeAmountMinor event.payload "amount") (readCurrency event.payload))

/-- The changes of an update, each applied when its field's version is older. -/
def mergeAgainst (version : OrderVersionedField → Option OrderFieldVersionEntity) (timestamp : ℚ)
    (changes : List VersionedFieldChange) (merge : Merge) : Merge :=
  changes.foldl (fun merge change =>
    if isFresh (version change.field) timestamp then merge.apply change else merge.skip change) merge

/-- The fields an update applies. -/
def appliedFields (version : OrderVersionedField → Option OrderFieldVersionEntity) (timestamp : ℚ)
    (changes : List VersionedFieldChange) : List OrderVersionedField :=
  (changes.filter fun change => isFresh (version change.field) timestamp).map (·.field)

def judgeUpdate (view : OrderView) (order : OrderEntity) (event : ValidOrderEvent) (now : Time) : Verdict :=
  let changes := readOrderUpdateChanges event.payload
  let merge := mergeAgainst view.version event.timestamp changes {}
  let skippedFields :=
    if event.payload.hasOwn "status" then merge.skippedFields.set "status" (.reason .forbiddenTransition)
    else merge.skippedFields
  if merge.changedFields.isEmpty then
    .rejected .noApplicableChanges "ORDER_UPDATED did not contain any applicable field changes" skippedFields
  else
    .applied
      { decision := if !skippedFields.isEmpty then .partiallyApplied else .accepted
        reasonCode := if !skippedFields.isEmpty then .partialMerge else .applied
        reasonMessage :=
          if !skippedFields.isEmpty then "Order fields were partially merged" else "Order fields were updated"
        order := order.assign merge.orderPatch now
        stamped := appliedFields view.version event.timestamp changes
        fromStatus := some order.status
        toStatus := order.status
        changedFields := merge.changedFields
        skippedFields }

/-- A status change that must be newer than the last one. -/
def judgeStatusChange (view : OrderView) (order : OrderEntity) (event : ValidOrderEvent) (now : Time)
    (toStatus : OrderStatus) (changedFields : JsonObject) : Verdict :=
  if isFresh (view.version .status) event.timestamp then
    .applied (.accepted (order.assign changedFields now) [.status] (some order.status) toStatus changedFields)
  else
    .rejected .obsoleteEvent "Lifecycle event is older than the current status version"
      [("status", .reason .obsoleteField)]

def judgeCapture (view : OrderView) (order : OrderEntity) (event : ValidOrderEvent) (now : Time) : Verdict :=
  match readPositiveAmountMinor event.payload "amount" with
  | none => .rejected .paymentAmountRequired "PAYMENT_CAPTURED requires a positive amount" []
  | some amountMinor =>
    if 0 < order.paidAmountMinor then
      .rejected .paymentAlreadyCaptured "Payment was already captured for this order" []
    else
      judgeStatusChange view order event now .paid
        [("paidAmountMinor", .minor amountMinor), ("status", .status .paid)]

def judgeCancel (view : OrderView) (order : OrderEntity) (event : ValidOrderEvent) (now : Time) : Verdict :=
  judgeStatusChange view order event now .cancelled [("status", .status .cancelled)]

/-- The record of a refund that leaves this much refunded in total. -/
def refundedFields (order : OrderEntity) (refundedAmountMinor : ℤ) : JsonObject :=
  [("refundedAmountMinor", .minor refundedAmountMinor),
    ("status", .status (refundStatus order refundedAmountMinor))]

def judgeRefund (view : OrderView) (order : OrderEntity) (event : ValidOrderEvent) (now : Time) : Verdict :=
  match readRefundAmountMinor event.payload with
  | none => .rejected .refundAmountRequired "REFUND_ISSUED requires a positive refundAmount" []
  | some refundAmountMinor =>
    if refundableAmountMinor order < refundAmountMinor then
      .rejected .refundExceedsCaptured "Refund amount exceeds captured payment" []
    else
      let changedFields := refundedFields order (order.refundedAmountMinor + refundAmountMinor)
      .applied
        (.accepted (order.assign changedFields now)
          (if isFresh (view.version .status) event.timestamp then [.status] else [])
          (some order.status) (refundStatus order (order.refundedAmountMinor + refundAmountMinor))
          changedFields)

def forbidden (order : OrderEntity) (event : ValidOrderEvent) : Verdict :=
  .rejected .forbiddenTransition (forbiddenTransitionMessage event.type (some order)) []

/-- The verdict on an event, given what is known of its order. -/
def judge (view : OrderView) (event : ValidOrderEvent) (now : Time) : Verdict :=
  match view.order with
  | none =>
    match event.type with
    | .orderCreated => .applied (creation event now)
    | _ => .notReady
  | some order =>
    match event.type with
    | .orderCreated =>
      .rejected .orderAlreadyExists "ORDER_CREATED cannot be applied because the order already exists" []
    | .orderUpdated => judgeUpdate view order event now
    | .paymentCaptured =>
      if order.status = .cancelled then forbidden order event else judgeCapture view order event now
    | .orderCancelled =>
      if order.status = .created then judgeCancel view order event now else forbidden order event
    | .refundIssued =>
      if order.status = .created ∨ order.status = .cancelled then forbidden order event
      else judgeRefund view order event now

/-- The stamp an event leaves on a field. -/
def ValidOrderEvent.stamp (event : ValidOrderEvent) (fieldName : OrderVersionedField) : OrderFieldVersionEntity :=
  ⟨event.orderId, fieldName, event.timestamp, event.eventId⟩

/-- The view after an application of the event. -/
def OrderView.apply (view : OrderView) (event : ValidOrderEvent) (application : Application) : OrderView where
  order := some application.order
  version fieldName :=
    if fieldName ∈ application.stamped then some (event.stamp fieldName) else view.version fieldName

/-- No stored order has the status that stands for no order at all. -/
def OrderView.Persisted (view : OrderView) : Prop :=
  ∀ order, view.order = some order → order.status ≠ .doesNotExist

end EventEngine
