import EventEngine.Ingestion

/-! Writing an outcome. A final decision is three writes: the audit row, the
`DONE` mark on the delivery, and the statistics; a retry only reschedules. -/
namespace EventEngine
open Relational

/-- What one processing attempt reads from outside the database. The readings
of `Date.now()` after the first are taken as one. -/
structure Host where
  startedAt : Time
  now : Time
  /-- `Number(process.env.EVENT_RETRY_DELAY_MS)`. -/
  configuredRetryDelayMs : JsNumber
  deriving Repr

/-- `env.ts::getEventRetryDelayMs`. -/
def getEventRetryDelayMs (configuredRetryDelayMs : JsNumber) : ℤ :=
  match configuredRetryDelayMs with
  | .finite value => if value.den = 1 ∧ 0 < value then value.num else 10000
  | _ => 10000

theorem getEventRetryDelayMs_pos (configuredRetryDelayMs : JsNumber) :
    0 < getEventRetryDelayMs configuredRetryDelayMs := by
  unfold getEventRetryDelayMs
  split
  · split
    · rename_i configured
      exact Rat.num_pos.mpr configured.2
    · decide
  · decide

/-- `EventProcessingService.processingTimeMs`. -/
def Host.processingTimeMs (host : Host) : ℤ := max (host.now - host.startedAt) 0

/-- When a retry scheduled by this attempt becomes available. That an instant out
of the range of `Date` makes `toISOString` throw is left out. -/
def Host.nextAvailableAt (host : Host) : Time :=
  host.now + getEventRetryDelayMs host.configuredRetryDelayMs

/-- `event-decision-writer.service.ts::FinalDecisionInput`. -/
structure FinalDecisionInput where
  delivery : RawIncomingEventEntity
  decision : EngineDecision
  reasonCode : ReasonCode
  reasonMessage : String
  fromStatus : Option OrderStatus := none
  toStatus : Option OrderStatus := none
  changedFields : JsonObject := []
  skippedFields : JsonObject := []
  processingTimeMs : ℤ
  finalAttemptCount : Option ℕ := none

/-- The counters after one more final decision. -/
def EngineStatsEntity.counted (stats : EngineStatsEntity) (decision : EngineDecision)
    (processingTimeMs : ℤ) (updatedAt : Time) : EngineStatsEntity :=
  let stats := { stats with
    processedEventsCount := stats.processedEventsCount + 1
    totalProcessingTimeMs := stats.totalProcessingTimeMs + processingTimeMs
    updatedAt }
  match decision with
  | .accepted | .partiallyApplied => { stats with validEventsCount := stats.validEventsCount + 1 }
  | .duplicate => { stats with duplicateEventsCount := stats.duplicateEventsCount + 1 }
  | .rejected | .failed => { stats with rejectedEventsCount := stats.rejectedEventsCount + 1 }

namespace EventDecisionWriter

/-- `EventDecisionWriterService.incrementStats`. -/
def incrementStats (decision : EngineDecision) (processingTimeMs : ℤ) (updatedAt : Time) : Tx Store Unit := do
  match ← Statement.findStats with
  | none => .throw "Stats row was not initialized"
  | some stats => Statement.saveStats (stats.counted decision processingTimeMs updatedAt)

/-- `EventDecisionWriterService.writeFinalDecision`. -/
def writeFinalDecision (input : FinalDecisionInput) (createdAt : Time) : Tx Store Unit := do
  Statement.saveDecision fun id =>
    { id, rawIncomingEventId := input.delivery.id, decision := input.decision,
      reasonCode := input.reasonCode, reasonMessage := input.reasonMessage,
      fromStatus := input.fromStatus, toStatus := input.toStatus,
      changedFieldsJson := stringify (.object input.changedFields),
      skippedFieldsJson := stringify (.object input.skippedFields),
      processingTimeMs := input.processingTimeMs, createdAt }
  Statement.updateRawIncomingEvent input.delivery.id fun row =>
    { row with
      processingStatus := .done, availableAt := createdAt, lastErrorMessage := none,
      attempts := input.finalAttemptCount.getD row.attempts }
  incrementStats input.decision input.processingTimeMs createdAt

/-- `EventDecisionWriterService.writeFailedDecision`. -/
def writeFailedDecision (delivery : RawIncomingEventEntity) (errorMessage : String)
    (processingTimeMs : ℤ) (createdAt : Time) : Tx Store Unit := do
  Statement.saveDecision fun id =>
    { id, rawIncomingEventId := delivery.id, decision := .failed, reasonCode := .processingError,
      reasonMessage := errorMessage, fromStatus := none, toStatus := none,
      changedFieldsJson := stringify (.object []), skippedFieldsJson := stringify (.object []),
      processingTimeMs, createdAt }
  Statement.updateRawIncomingEvent delivery.id fun row =>
    { row with
      processingStatus := .done, availableAt := createdAt, lastErrorMessage := some errorMessage }
  incrementStats .failed processingTimeMs createdAt

/-- `EventDecisionWriterService.markRetryableFailure`. -/
def markRetryableFailure (delivery : RawIncomingEventEntity) (errorMessage : String)
    (nextAvailableAt : Time) : Tx Store Unit :=
  Statement.updateRawIncomingEvent delivery.id fun row =>
    { row with
      processingStatus := .retry, attempts := delivery.attempts + 1,
      availableAt := nextAvailableAt, lastErrorMessage := some errorMessage }

end EventDecisionWriter

/-- `order-event-handler.ts::OrderEventHandlingContext`. The transaction
manager is the monad; the clock behind `getProcessingTimeMs` is the host. -/
structure OrderEventHandlingContext where
  order : Option OrderEntity
  event : ValidOrderEvent
  delivery : RawIncomingEventEntity
  host : Host

namespace OrderApplicationDecision

/-- `MAX_RETRYABLE_ATTEMPTS`. -/
def maxRetryableAttempts : ℕ := 3

/-- `OrderApplicationDecisionService.accept`. -/
def accept (context : OrderEventHandlingContext) (fromStatus : Option OrderStatus) (toStatus : OrderStatus)
    (changedFields : JsonObject) : Tx Store Unit :=
  EventDecisionWriter.writeFinalDecision
    { delivery := context.delivery, decision := .accepted, reasonCode := .applied,
      reasonMessage := "Event was applied", fromStatus, toStatus := some toStatus, changedFields,
      processingTimeMs := context.host.processingTimeMs }
    context.host.now

/-- `OrderApplicationDecisionService.reject`. -/
def reject (context : OrderEventHandlingContext) (reasonCode : ReasonCode) (reasonMessage : String)
    (skippedFields : JsonObject := []) (finalAttemptCount : Option ℕ := none) : Tx Store Unit :=
  EventDecisionWriter.writeFinalDecision
    { delivery := context.delivery, decision := .rejected, reasonCode, reasonMessage,
      fromStatus := context.order.map (·.status), toStatus := context.order.map (·.status),
      skippedFields, processingTimeMs := context.host.processingTimeMs, finalAttemptCount }
    context.host.now

/-- `OrderApplicationDecisionService.retryOrReject`. -/
def retryOrReject (context : OrderEventHandlingContext) (reasonCode : ReasonCode) (reasonMessage : String)
    (skippedFields : JsonObject := []) : Tx Store Unit :=
  let attemptCount := context.delivery.attempts + 1
  if maxRetryableAttempts ≤ attemptCount then
    reject context reasonCode reasonMessage skippedFields (some attemptCount)
  else
    EventDecisionWriter.markRetryableFailure context.delivery reasonMessage context.host.nextAvailableAt

/-- `OrderApplicationDecisionService.rejectObsoleteStatus`. -/
def rejectObsoleteStatus (context : OrderEventHandlingContext) : Tx Store Unit :=
  reject context .obsoleteEvent "Lifecycle event is older than the current status version"
    [("status", .reason .obsoleteField)]

end OrderApplicationDecision
end EventEngine
