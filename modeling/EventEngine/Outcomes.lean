import EventEngine.JudgementProofs
import EventEngine.Verdicts

/-! What one call of `processEvent` can do. The two transactions are shown to
compute `Store.processed` and `Store.failed`, and a call on a delivery that is
still undecided ends in one of eight ways. Every invariant of the store is a
case analysis on them. -/
namespace EventEngine
open Relational

/-- The engine's own bookkeeping, on which no processing transaction fails:
the statistics row is there, and every stored order has a real status. -/
structure Store.Operational (s : Store) : Prop where
  stats : s.stats.isSome
  persisted : ∀ orderId, (s.view orderId).Persisted

/-- No other delivery holds the key of the event. -/
def Store.Claimable (s : Store) (event : ValidOrderEvent) (rawIncomingEventId : ℕ) : Prop :=
  ∀ key, s.processedEventKeys.find event.eventId = some key → key.firstRawIncomingEventId = rawIncomingEventId

/-- The ways a processing transaction that does not throw ends for a delivery
without a decision. -/
inductive Committed (s : Store) (delivery : RawIncomingEventEntity) (host : Host) : Store → Prop where
  | invalid {reasonCode : ReasonCode} {reasonMessage : String}
      (invalid : validate delivery = .invalid reasonCode reasonMessage) :
      Committed s delivery host (s.settle (invalidRecord delivery host reasonCode reasonMessage) none none)
  | duplicate {event : ValidOrderEvent} {key : ProcessedEventKeyEntity} (valid : validate delivery = .valid event)
      (held : s.processedEventKeys.find event.eventId = some key)
      (other : key.firstRawIncomingEventId ≠ delivery.id) :
      Committed s delivery host (s.settle (duplicateRecord delivery host) none none)
  | deferred {event : ValidOrderEvent} (valid : validate delivery = .valid event)
      (claimable : s.Claimable event delivery.id)
      (waits : judge (s.view event.orderId) event host.now = .notReady)
      (again : delivery.attempts + 1 < OrderApplicationDecision.maxRetryableAttempts) :
      Committed s delivery host
        ((s.claim event.eventId delivery.id).postpone delivery notReadyMessage host.nextAvailableAt)
  | expired {event : ValidOrderEvent} (valid : validate delivery = .valid event)
      (claimable : s.Claimable event delivery.id)
      (waits : judge (s.view event.orderId) event host.now = .notReady)
      (exhausted : OrderApplicationDecision.maxRetryableAttempts ≤ delivery.attempts + 1) :
      Committed s delivery host
        ((s.claim event.eventId delivery.id).settle (rejection delivery host none .orderNotReady notReadyMessage [])
          none (some (delivery.attempts + 1)))
  | rejected {event : ValidOrderEvent} {reasonCode : ReasonCode} {reasonMessage : String}
      {skippedFields : JsonObject} (valid : validate delivery = .valid event)
      (claimable : s.Claimable event delivery.id)
      (judged : judge (s.view event.orderId) event host.now = .rejected reasonCode reasonMessage skippedFields) :
      Committed s delivery host
        ((s.claim event.eventId delivery.id).settle
          (rejection delivery host (s.view event.orderId).order reasonCode reasonMessage skippedFields) none none)
  | applied {event : ValidOrderEvent} {application : Application} (valid : validate delivery = .valid event)
      (claimable : s.Claimable event delivery.id)
      (judged : judge (s.view event.orderId) event host.now = .applied application) :
      Committed s delivery host
        (((s.claim event.eventId delivery.id).write event application).settle (application.record delivery host)
          none none)

/-- The ways a call of `processEvent` that does not throw ends for a delivery
without a decision: its transaction committed, or its failure was recorded. -/
inductive Outcome (s : Store) (delivery : RawIncomingEventEntity) (host : Host) : Store → Prop where
  | committed {s' : Store} (committed : Committed s delivery host s') : Outcome s delivery host s'
  | retried (errorMessage : String) (again : delivery.attempts + 1 < maxProcessingAttempts) :
      Outcome s delivery host (s.postpone delivery errorMessage host.nextAvailableAt)
  | failed (errorMessage : String) (exhausted : maxProcessingAttempts ≤ delivery.attempts + 1) :
      Outcome s delivery host (s.settle (failedRecord delivery host errorMessage) (some errorMessage) none)

variable {s : Store} {delivery : RawIncomingEventEntity} {host : Host}

open JudgementProofs

/-! ## The processing transaction -/

theorem claimEventId_run (s : Store) (event : ValidOrderEvent) (rawIncomingEventId : ℕ) :
    (claimEventId event.eventId rawIncomingEventId).run s =
      match s.processedEventKeys.find event.eventId with
      | none => .ok (true, s.claim event.eventId rawIncomingEventId)
      | some key => .ok (key.firstRawIncomingEventId == rawIncomingEventId, s) := by
  simp only [claimEventId, Statement.findEventKey]
  rw [Tx.run_bind_ok (Tx.run_read _ _)]
  cases s.processedEventKeys.find event.eventId <;> rfl

/-- **The processing transaction computes `Store.processed`.** -/
theorem processEventTransaction_run (operational : s.Operational) (delivery : RawIncomingEventEntity) (host : Host) :
    (processEventTransaction delivery host).run s = .ok ((), s.processed delivery host) := by
  unfold processEventTransaction Store.processed
  simp only [Statement.findDecision]
  rw [Tx.run_bind_ok (Tx.run_read _ _)]
  cases decided : s.decisionOf delivery.id with
  | some decision => rfl
  | none =>
    have ready : Undecided s delivery.id := ⟨decided, operational.stats⟩
    cases validate delivery with
    | invalid reasonCode reasonMessage => exact writeFinalDecision_run ready _
    | valid event =>
      have claimed := claimEventId_run s event delivery.id
      cases held : s.processedEventKeys.find event.eventId with
      | none =>
        simp only [held] at claimed ⊢
        rw [Tx.run_bind_ok claimed]
        exact dispatch_run event host ⟨decided, operational.stats⟩ (operational.persisted _)
      | some key =>
        simp only [held] at claimed ⊢
        rw [Tx.run_bind_ok claimed]
        by_cases own : key.firstRawIncomingEventId = delivery.id
        · simp only [own, beq_self_eq_true, ↓reduceIte]
          exact dispatch_run event host ready (operational.persisted _)
        · simp only [beq_eq_false_iff_ne.mpr own, own, Bool.false_eq_true, ↓reduceIte]
          exact writeFinalDecision_run ready _

/-- Claiming a key already held changes nothing. -/
theorem claim_held {eventId : String} {key : ProcessedEventKeyEntity}
    (held : s.processedEventKeys.find eventId = some key) : s.claim eventId key.firstRawIncomingEventId = s := by
  have named : key.eventId = eventId := KeyedTable.key_of_find held
  have same : s.processedEventKeys.save ⟨eventId, key.firstRawIncomingEventId⟩ = s.processedEventKeys := by
    ext1
    funext probe
    rw [KeyedTable.find_save]
    split
    · rename_i here
      obtain rfl : probe = eventId := here
      rw [held, ← named]
    · rfl
  unfold Store.claim
  rw [same]

theorem carryOut_committed (host : Host) {event : ValidOrderEvent} (valid : validate delivery = .valid event)
    (claimable : s.Claimable event delivery.id) :
    Committed s delivery host ((s.claim event.eventId delivery.id).judged delivery event host) := by
  unfold Store.judged
  rw [view_claim]
  cases judged : judge (s.view event.orderId) event host.now with
  | notReady =>
    have absent := (judge_notReady.mp judged).1
    simp only [Store.carryOut, view_claim, absent]
    split
    · rename_i exhausted
      exact .expired valid claimable judged exhausted
    · rename_i again
      exact .deferred valid claimable judged (not_le.mp again)
  | rejected reasonCode reasonMessage skippedFields => exact .rejected valid claimable judged
  | applied application => exact .applied valid claimable judged

/-- A transaction on a valid event that no other delivery holds carries out the
verdict on it. -/
theorem Committed.judged {s' : Store} (committed : Committed s delivery host s') {event : ValidOrderEvent}
    (valid : validate delivery = .valid event) (claimable : s.Claimable event delivery.id) :
    s' = (s.claim event.eventId delivery.id).judged delivery event host := by
  cases committed with
  | invalid invalid => cases invalid.symm.trans valid
  | duplicate valid' held other =>
    obtain rfl := EventValidation.valid.inj (valid.symm.trans valid')
    exact absurd (claimable _ held) other
  | deferred valid' _ waits again =>
    obtain rfl := EventValidation.valid.inj (valid.symm.trans valid')
    simp only [Store.judged, view_claim, waits, Store.carryOut, not_le.mpr again, ↓reduceIte]
  | expired valid' _ waits exhausted =>
    obtain rfl := EventValidation.valid.inj (valid.symm.trans valid')
    simp only [Store.judged, view_claim, waits, Store.carryOut, exhausted, ↓reduceIte, (judge_notReady.mp waits).1]
  | rejected valid' _ judged | applied valid' _ judged =>
    obtain rfl := EventValidation.valid.inj (valid.symm.trans valid')
    simp only [Store.judged, view_claim, judged, Store.carryOut]

/-- A claimable event is claimed and judged. -/
theorem processed_of_claimable (host : Host) (undecided : s.decisionOf delivery.id = none) {event : ValidOrderEvent}
    (valid : validate delivery = .valid event) (claimable : s.Claimable event delivery.id) :
    s.processed delivery host = (s.claim event.eventId delivery.id).judged delivery event host := by
  unfold Store.processed
  rw [undecided, valid]
  dsimp only
  cases held : s.processedEventKeys.find event.eventId with
  | none => rfl
  | some key =>
    have own := claimable key held
    rw [← own, claim_held held]
    simp only [↓reduceIte]

/-- A copy of a claimed event is a duplicate. -/
theorem processed_of_held (host : Host) (undecided : s.decisionOf delivery.id = none) {event : ValidOrderEvent}
    {key : ProcessedEventKeyEntity} (valid : validate delivery = .valid event)
    (held : s.processedEventKeys.find event.eventId = some key) (other : key.firstRawIncomingEventId ≠ delivery.id) :
    s.processed delivery host = s.settle (duplicateRecord delivery host) none none := by
  simp only [Store.processed, undecided, valid, held, other, ↓reduceIte]

theorem processed_of_invalid (host : Host) (undecided : s.decisionOf delivery.id = none) {reasonCode : ReasonCode}
    {reasonMessage : String} (invalid : validate delivery = .invalid reasonCode reasonMessage) :
    s.processed delivery host = s.settle (invalidRecord delivery host reasonCode reasonMessage) none none := by
  simp only [Store.processed, undecided, invalid]

theorem processed_committed (host : Host) (undecided : s.decisionOf delivery.id = none) :
    Committed s delivery host (s.processed delivery host) := by
  cases valid : validate delivery with
  | invalid reasonCode reasonMessage =>
    rw [processed_of_invalid host undecided valid]
    exact .invalid valid
  | valid event =>
    by_cases claimable : s.Claimable event delivery.id
    · rw [processed_of_claimable host undecided valid claimable]
      exact carryOut_committed host valid claimable
    · unfold Store.Claimable at claimable
      push Not at claimable
      obtain ⟨key, held, other⟩ := claimable
      rw [processed_of_held host undecided valid held other]
      exact .duplicate valid held other

theorem processed_of_decided {decision : EventDecisionEntity} (decided : s.decisionOf delivery.id = some decision) :
    s.processed delivery host = s := by
  simp only [Store.processed, decided]

/-! ## The recording transaction -/

/-- **The recording transaction computes `Store.failed`.** -/
theorem handleUnexpectedFailure_run (undecided : s.decisionOf delivery.id = none) (counted : s.stats.isSome)
    (errorMessage : String) (host : Host) :
    (handleUnexpectedFailure delivery errorMessage host).run s = .ok ((), s.failed delivery errorMessage host) := by
  unfold handleUnexpectedFailure Store.failed
  simp only [Statement.findRawIncomingEvent]
  rw [Tx.run_bind_ok (Tx.run_read _ _)]
  cases found : s.rawIncomingEvents.find delivery.id with
  | none => rfl
  | some latest =>
    have named : latest.id = delivery.id := s.rawIncomingEvents.id_of_find found
    simp only [Tx.run_ite]
    split
    · exact writeFailedDecision_run ⟨by rw [named]; exact undecided, counted⟩ _ _
    · exact markRetryableFailure_run _ _ _

theorem failed_outcome (stored : s.rawIncomingEvents.find delivery.id = some delivery) (errorMessage : String) :
    Outcome s delivery host (s.failed delivery errorMessage host) := by
  unfold Store.failed
  rw [stored]
  simp only
  split
  · rename_i exhausted
    exact .failed errorMessage exhausted
  · rename_i again
    exact .retried errorMessage (not_le.mp again)

/-! ## A call -/

/-- A throw of the processing transaction, wherever it comes from. -/
theorem processEvent_thrown (errorMessage : String) (recordingFault : Option Fault) :
    processEvent delivery host (some ⟨0, errorMessage⟩) recordingFault s =
      transaction recordingFault (handleUnexpectedFailure delivery errorMessage host) s := rfl

/-- A call whose processing transaction does not throw. -/
theorem processEvent_clean (operational : s.Operational) (recordingFault : Option Fault) :
    processEvent delivery host none recordingFault s = (.ok (), s.processed delivery host) := by
  unfold processEvent
  rw [transaction_of_run (processEventTransaction_run operational delivery host)]

/-- **What a call does to an undecided delivery**: its transaction commits; or
the transaction throws and the failure is recorded; or recording it throws too
and nothing changes. -/
theorem processEvent_cases (operational : s.Operational) (undecided : s.decisionOf delivery.id = none)
    (host : Host) (fault recordingFault : Option Fault) :
    processEvent delivery host fault recordingFault s = (.ok (), s.processed delivery host) ∨
      (∃ errorMessage, fault.isSome ∧
        processEvent delivery host fault recordingFault s = (.ok (), s.failed delivery errorMessage host)) ∨
      ∃ errorMessage, fault.isSome ∧ recordingFault.isSome ∧
        processEvent delivery host fault recordingFault s = (.error errorMessage, s) := by
  have ran := processEventTransaction_run operational delivery host
  unfold processEvent
  rcases transaction_cases fault (processEventTransaction delivery host) s with ⟨message, thrown⟩ | ⟨value, s', same, done⟩
  · have faulty : fault.isSome := by
      cases fault with
      | none => rw [transaction_of_run ran] at thrown; cases thrown
      | some _ => rfl
    have recorded := handleUnexpectedFailure_run undecided operational.stats message host
    rw [thrown]
    simp only
    rcases transaction_cases recordingFault (handleUnexpectedFailure delivery message host) s with
      ⟨message', thrown'⟩ | ⟨value, s', same, done⟩
    · refine Or.inr (Or.inr ⟨message', faulty, ?_, thrown'⟩)
      cases recordingFault with
      | none => rw [transaction_of_run recorded] at thrown'; cases thrown'
      | some _ => rfl
    · rw [recorded] at same
      cases same
      exact Or.inr (Or.inl ⟨message, faulty, done⟩)
  · rw [ran] at same
    cases same
    left
    rw [done]

/-- Every store a call can leave behind is one of its outcomes, or the store
it found. -/
theorem processEvent_outcome (operational : s.Operational) (undecided : s.decisionOf delivery.id = none)
    (stored : s.rawIncomingEvents.find delivery.id = some delivery) (host : Host)
    (fault recordingFault : Option Fault) :
    (∃ s', processEvent delivery host fault recordingFault s = (.ok (), s') ∧ Outcome s delivery host s') ∨
      ∃ errorMessage, recordingFault.isSome ∧
        processEvent delivery host fault recordingFault s = (.error errorMessage, s) := by
  rcases processEvent_cases operational undecided host fault recordingFault with
    done | ⟨message, -, done⟩ | ⟨message, -, faulty, done⟩
  · exact Or.inl ⟨_, done, .committed (processed_committed host undecided)⟩
  · exact Or.inl ⟨_, done, failed_outcome stored message⟩
  · exact Or.inr ⟨message, faulty, done⟩

end EventEngine
