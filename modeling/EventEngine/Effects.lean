import EventEngine.Judgement
import EventEngine.Processing

/-! The effects a processing attempt has on the store, as pure functions: a
key is claimed, an application is written, a delivery is settled with a final
decision or postponed. Each touches the tables it names and no other. -/
namespace EventEngine
open Relational

/-- What is known of one order in a store. -/
def Store.view (s : Store) (orderId : String) : OrderView :=
  ⟨s.orders.find orderId, fun fieldName => s.orderFieldVersions.find (orderId, fieldName)⟩

/-- A delivery claims an event key. -/
def Store.claim (s : Store) (eventId : String) (rawIncomingEventId : ℕ) : Store :=
  { s with processedEventKeys := s.processedEventKeys.save ⟨eventId, rawIncomingEventId⟩ }

/-- The fields' versions after an event stamps them. -/
def stampAll (table : KeyedTable OrderFieldVersionEntity (String × OrderVersionedField))
    (event : ValidOrderEvent) (fields : List OrderVersionedField) :
    KeyedTable OrderFieldVersionEntity (String × OrderVersionedField) :=
  fields.foldl (fun table fieldName => table.save (event.stamp fieldName)) table

/-- An application of the event is written to the order and its versions. -/
def Store.write (s : Store) (event : ValidOrderEvent) (application : Application) : Store :=
  { s with
    orders := s.orders.save application.order
    orderFieldVersions := stampAll s.orderFieldVersions event application.stamped }

/-- The delivery after its final decision. -/
def RawIncomingEventEntity.settled (row : RawIncomingEventEntity) (availableAt : Time)
    (lastErrorMessage : Option String) (finalAttemptCount : Option ℕ) : RawIncomingEventEntity :=
  { row with
    processingStatus := .done, availableAt, lastErrorMessage, attempts := finalAttemptCount.getD row.attempts }

/-- The delivery after it is rescheduled. -/
def RawIncomingEventEntity.postponed (row : RawIncomingEventEntity) (attempts : ℕ) (errorMessage : String)
    (availableAt : Time) : RawIncomingEventEntity :=
  { row with processingStatus := .retry, attempts, availableAt, lastErrorMessage := some errorMessage }

/-- A delivery receives its final decision. The record's own `id` is ignored:
the audit log numbers it. -/
def Store.settle (s : Store) (record : EventDecisionEntity) (lastErrorMessage : Option String)
    (finalAttemptCount : Option ℕ) : Store :=
  { s with
    eventDecisions := s.eventDecisions.insert fun id => { record with id }
    rawIncomingEvents := s.rawIncomingEvents.modify record.rawIncomingEventId
      (·.settled record.createdAt lastErrorMessage finalAttemptCount)
    stats := s.stats.map (·.counted record.decision record.processingTimeMs record.createdAt) }

/-- A delivery is rescheduled. -/
def Store.postpone (s : Store) (delivery : RawIncomingEventEntity) (errorMessage : String)
    (nextAvailableAt : Time) : Store :=
  { s with
    rawIncomingEvents := s.rawIncomingEvents.modify delivery.id
      (·.postponed (delivery.attempts + 1) errorMessage nextAvailableAt) }

/-- The row `writeFinalDecision` adds to the audit log. -/
def FinalDecisionInput.record (input : FinalDecisionInput) (createdAt : Time) : EventDecisionEntity where
  id := 0
  rawIncomingEventId := input.delivery.id
  decision := input.decision
  reasonCode := input.reasonCode
  reasonMessage := input.reasonMessage
  fromStatus := input.fromStatus
  toStatus := input.toStatus
  changedFieldsJson := stringify (.object input.changedFields)
  skippedFieldsJson := stringify (.object input.skippedFields)
  processingTimeMs := input.processingTimeMs
  createdAt

/-- The record of a business rejection. -/
def rejection (delivery : RawIncomingEventEntity) (host : Host) (order : Option OrderEntity)
    (reasonCode : ReasonCode) (reasonMessage : String) (skippedFields : JsonObject) : EventDecisionEntity :=
  FinalDecisionInput.record
    { delivery, decision := .rejected, reasonCode, reasonMessage,
      fromStatus := order.map (·.status), toStatus := order.map (·.status), skippedFields,
      processingTimeMs := host.processingTimeMs } host.now

/-- The record of an application. -/
def Application.record (application : Application) (delivery : RawIncomingEventEntity) (host : Host) :
    EventDecisionEntity :=
  FinalDecisionInput.record
    { delivery, decision := application.decision, reasonCode := application.reasonCode,
      reasonMessage := application.reasonMessage, fromStatus := application.fromStatus,
      toStatus := some application.toStatus, changedFields := application.changedFields,
      skippedFields := application.skippedFields, processingTimeMs := host.processingTimeMs } host.now

/-- The record of a delivery whose event was claimed by another. -/
def duplicateRecord (delivery : RawIncomingEventEntity) (host : Host) : EventDecisionEntity :=
  FinalDecisionInput.record
    { delivery, decision := .duplicate, reasonCode := .duplicateEvent,
      reasonMessage := "eventId was already processed by another delivery",
      processingTimeMs := host.processingTimeMs } host.now

/-- The record of a delivery that does not validate. -/
def invalidRecord (delivery : RawIncomingEventEntity) (host : Host) (reasonCode : ReasonCode)
    (reasonMessage : String) : EventDecisionEntity :=
  FinalDecisionInput.record
    { delivery, decision := .rejected, reasonCode, reasonMessage,
      processingTimeMs := host.processingTimeMs } host.now

/-- The record of an exhausted technical failure. -/
def failedRecord (delivery : RawIncomingEventEntity) (host : Host) (errorMessage : String) : EventDecisionEntity :=
  FinalDecisionInput.record
    { delivery, decision := .failed, reasonCode := .processingError, reasonMessage := errorMessage,
      processingTimeMs := host.processingTimeMs } host.now

/-- The message under which a delivery waits for its order. -/
def notReadyMessage : String := "Event requires an existing order"

/-- A verdict carried out on behalf of a delivery. -/
def Store.carryOut (s : Store) (delivery : RawIncomingEventEntity) (event : ValidOrderEvent) (host : Host) :
    Verdict → Store
  | .notReady =>
    if OrderApplicationDecision.maxRetryableAttempts ≤ delivery.attempts + 1 then
      s.settle (rejection delivery host (s.view event.orderId).order .orderNotReady notReadyMessage [])
        none (some (delivery.attempts + 1))
    else s.postpone delivery notReadyMessage host.nextAvailableAt
  | .rejected reasonCode reasonMessage skippedFields =>
    s.settle (rejection delivery host (s.view event.orderId).order reasonCode reasonMessage skippedFields)
      none none
  | .applied application =>
    (s.write event application).settle (application.record delivery host) none none

/-- The store after the delivery's event is judged on its merits. -/
def Store.judged (s : Store) (delivery : RawIncomingEventEntity) (event : ValidOrderEvent) (host : Host) : Store :=
  s.carryOut delivery event host (judge (s.view event.orderId) event host.now)

/-- The store after a processing transaction that does not throw. -/
def Store.processed (s : Store) (delivery : RawIncomingEventEntity) (host : Host) : Store :=
  match s.decisionOf delivery.id with
  | some _ => s
  | none =>
    match validate delivery with
    | .invalid reasonCode reasonMessage =>
      s.settle (invalidRecord delivery host reasonCode reasonMessage) none none
    | .valid event =>
      match s.processedEventKeys.find event.eventId with
      | none => (s.claim event.eventId delivery.id).judged delivery event host
      | some key =>
        if key.firstRawIncomingEventId = delivery.id then s.judged delivery event host
        else s.settle (duplicateRecord delivery host) none none

/-- The store after a failure of a delivery is recorded. -/
def Store.failed (s : Store) (delivery : RawIncomingEventEntity) (errorMessage : String) (host : Host) : Store :=
  match s.rawIncomingEvents.find delivery.id with
  | none => s
  | some latest =>
    if maxProcessingAttempts ≤ latest.attempts + 1 then
      s.settle (failedRecord latest host errorMessage) (some errorMessage) none
    else s.postpone latest errorMessage host.nextAvailableAt

/-! ## What each effect leaves alone -/

section Frames
variable (s : Store)

@[simp] theorem view_claim (eventId : String) (rawIncomingEventId : ℕ) (orderId : String) :
    (s.claim eventId rawIncomingEventId).view orderId = s.view orderId := rfl

@[simp] theorem view_settle (record : EventDecisionEntity) (message : Option String) (count : Option ℕ)
    (orderId : String) : (s.settle record message count).view orderId = s.view orderId := rfl

@[simp] theorem find_claim (eventId : String) (rawIncomingEventId : ℕ) (probe : String) :
    (s.claim eventId rawIncomingEventId).processedEventKeys.find probe =
      if probe = eventId then some ⟨eventId, rawIncomingEventId⟩ else s.processedEventKeys.find probe :=
  s.processedEventKeys.find_save _ probe

end Frames

/-- Stamping is seen field by field, on the event's own order only. -/
theorem find_stampAll (table : KeyedTable OrderFieldVersionEntity (String × OrderVersionedField))
    (event : ValidOrderEvent) (fields : List OrderVersionedField) (orderId : String)
    (fieldName : OrderVersionedField) :
    (stampAll table event fields).find (orderId, fieldName) =
      if orderId = event.orderId ∧ fieldName ∈ fields then some (event.stamp fieldName)
      else table.find (orderId, fieldName) := by
  induction fields generalizing table with
  | nil => simp [stampAll]
  | cons first rest ih =>
    have ih := ih (table.save (event.stamp first))
    simp only [stampAll] at ih ⊢
    rw [List.foldl_cons, ih, KeyedTable.find_save]
    have key : Keyed.key (event.stamp first) = (event.orderId, first) := rfl
    rw [key]
    by_cases order : orderId = event.orderId
    · by_cases here : fieldName = first <;> by_cases later : fieldName ∈ rest <;>
        simp [order, here, later]
    · simp [order]

/-- An order is stored under its own identifier. -/
theorem orderId_of_view {s : Store} {orderId : String} {order : OrderEntity}
    (found : (s.view orderId).order = some order) : order.orderId = orderId :=
  s.orders.keyed orderId order found

/-- Writing an application of an event moves the view of its order, and of no
other order. -/
theorem view_write (s : Store) (event : ValidOrderEvent) (application : Application)
    (own : application.order.orderId = event.orderId) (orderId : String) :
    (s.write event application).view orderId =
      if orderId = event.orderId then (s.view orderId).apply event application else s.view orderId := by
  have key : Keyed.key application.order = event.orderId := own
  by_cases same : orderId = event.orderId
  · subst same
    ext1
    · simp [Store.view, Store.write, OrderView.apply, KeyedTable.find_save, key]
    · funext fieldName
      simp [Store.view, Store.write, OrderView.apply, find_stampAll]
  · ext1
    · simp [Store.view, Store.write, KeyedTable.find_save, key, same]
    · funext fieldName
      simp [Store.view, Store.write, find_stampAll, same]

end EventEngine
