import EventEngine.Application

/-! Processing one delivery: one transaction that validates, deduplicates and
applies it, and, when that transaction throws, a second one that records the
failure. -/
namespace EventEngine
open Relational

/-- `MAX_PROCESSING_ATTEMPTS`. -/
def maxProcessingAttempts : ℕ := 3

/-- `EventProcessingService.claimEventId`. -/
def claimEventId (eventId : String) (rawIncomingEventId : ℕ) : Tx Store Bool := do
  match ← Statement.findEventKey eventId with
  | some existingKey => pure (existingKey.firstRawIncomingEventId == rawIncomingEventId)
  | none =>
    Statement.saveEventKey { eventId, firstRawIncomingEventId := rawIncomingEventId }
    pure true

/-- What `processEvent` does with a valid event once its key is claimed. -/
def dispatch (event : RawIncomingEventEntity) (valid : ValidOrderEvent) (host : Host) : Tx Store Unit := do
  let order ← Statement.findOrder valid.orderId
  let orderStatus := (order.map OrderEntity.status).getD .doesNotExist
  match createOrderEventHandler orderStatus with
  | .error message => .throw message
  | .ok handler => handler.handle { order, event := valid, delivery := event, host }

/-- The transaction of `EventProcessingService.processEvent`. -/
def processEventTransaction (event : RawIncomingEventEntity) (host : Host) : Tx Store Unit := do
  match ← Statement.findDecision event.id with
  | some _ => pure ()
  | none =>
    match validate event with
    | .invalid reasonCode reasonMessage =>
      EventDecisionWriter.writeFinalDecision
        { delivery := event, decision := .rejected, reasonCode, reasonMessage,
          processingTimeMs := host.processingTimeMs }
        host.now
    | .valid valid =>
      if ← claimEventId valid.eventId event.id then dispatch event valid host
      else
        EventDecisionWriter.writeFinalDecision
          { delivery := event, decision := .duplicate, reasonCode := .duplicateEvent,
            reasonMessage := "eventId was already processed by another delivery",
            processingTimeMs := host.processingTimeMs }
          host.now

/-- The transaction of `EventProcessingService.handleUnexpectedFailure`. -/
def handleUnexpectedFailure (event : RawIncomingEventEntity) (errorMessage : String) (host : Host) :
    Tx Store Unit := do
  match ← Statement.findRawIncomingEvent event.id with
  | none => pure ()
  | some latest =>
    if maxProcessingAttempts ≤ latest.attempts + 1 then
      EventDecisionWriter.writeFailedDecision latest errorMessage host.processingTimeMs host.now
    else
      EventDecisionWriter.markRetryableFailure latest errorMessage host.nextAvailableAt

/-- `EventProcessingService.processEvent`. `fault` makes a statement of the
processing transaction throw, `recordingFault` one of the transaction that
records the failure; an error of the latter leaves `processEvent`. -/
def processEvent (event : RawIncomingEventEntity) (host : Host) (fault recordingFault : Option Fault)
    (s : Store) : Except String Unit × Store :=
  match transaction fault (processEventTransaction event host) s with
  | (.ok _, s') => (.ok (), s')
  | (.error message, s') => transaction recordingFault (handleUnexpectedFailure event message host) s'

end EventEngine
