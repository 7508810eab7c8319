import EventEngine.Lifecycle
import EventEngine.Relational.Interleaving

/-! Requests during a transaction. A request only appends to the inbox, and of
the inbox a transaction touches only its own delivery. So no statement of the
two transactions of `processEvent` notices a request that arrives before it. -/
namespace EventEngine
open Relational

/-- The delivery is in the inbox. -/
def Store.Received (id : ℕ) (s : Store) : Prop := (s.rawIncomingEvents.find id).isSome

/-- A request may arrive between any two statements of the program, whose
delivery is in the inbox. -/
def AdmitsRequests {α : Type} (id : ℕ) (program : Tx Store α) : Prop :=
  ∀ events receivedAt, program.Oblivious (Store.Received id) (enqueueBatch · events receivedAt)

namespace AdmitsRequests

variable {α β : Type} {id : ℕ}

/-! ## The inbox -/

/-- Rewriting a row that is there commutes with appending others. -/
theorem modify_insert (table : SerialTable RawIncomingEventEntity) (present : (table.find id).isSome)
    {change : RawIncomingEventEntity → RawIncomingEventEntity} (keeps : ∀ row, Serial.id (change row) = Serial.id row)
    {make : ℕ → RawIncomingEventEntity} (names : ∀ n, Serial.id (make n) = n) :
    (table.insert make names).modify id change keeps = (table.modify id change keeps).insert make names := by
  have next : (table.modify id change keeps).next = table.next := by
    simp only [SerialTable.next, SerialTable.rows_modify, List.length_map]
  have fresh : Serial.id (make table.next) ≠ id := by
    obtain ⟨row, found⟩ := Option.isSome_iff_exists.mp present
    obtain ⟨member, named⟩ := table.find_eq_some.mp found
    have bounds := (table.id_bounds member).2
    rw [names]
    omega
  ext1
  rw [SerialTable.rows_modify, SerialTable.rows_insert, SerialTable.rows_insert, next, List.map_append,
    List.map_singleton, if_neg fresh, SerialTable.rows_modify]

theorem received_modify {s : Store} (received : s.Received id) (n : ℕ)
    (change : RawIncomingEventEntity → RawIncomingEventEntity)
    (keeps : ∀ row, Serial.id (change row) = Serial.id row) :
    ((s.rawIncomingEvents.modify n change keeps).find id).isSome := by
  rw [SerialTable.find_modify, Option.isSome_map]
  exact received

theorem enqueueBatch_modify {s : Store} (received : s.Received id)
    (change : RawIncomingEventEntity → RawIncomingEventEntity)
    (keeps : ∀ row, Serial.id (change row) = Serial.id row) (events : List JsonValue) (receivedAt : Time) :
    (enqueueBatch s events receivedAt).rawIncomingEvents.modify id change keeps =
      (enqueueBatch { s with rawIncomingEvents := s.rawIncomingEvents.modify id change keeps } events
        receivedAt).rawIncomingEvents := by
  simp only [enqueueBatch]
  have present : (s.rawIncomingEvents.find id).isSome := received
  generalize s.rawIncomingEvents = table at present ⊢
  induction events generalizing table with
  | nil => rfl
  | cons event rest ih =>
    obtain ⟨row, found⟩ := Option.isSome_iff_exists.mp present
    rw [List.foldl_cons, List.foldl_cons, ← modify_insert table present]
    exact ih _ (by rw [table.find_insert _ _ found]; rfl)

/-! ## Statements -/

theorem done (value : α) : AdmitsRequests id (pure value : Tx Store α) := fun _ _ => trivial

theorem throw (message : String) : AdmitsRequests id (.throw message : Tx Store α) := fun _ _ => trivial

theorem bind {program : Tx Store α} {f : α → Tx Store β} (first : AdmitsRequests id program)
    (second : ∀ value, AdmitsRequests id (f value)) : AdmitsRequests id (program >>= f) :=
  fun events receivedAt => (first events receivedAt).bind fun value => second value events receivedAt

/-- What is read from the other tables is not affected by a request. -/
theorem read {query : Store → α} (same : ∀ s events receivedAt, query (enqueueBatch s events receivedAt) = query s) :
    AdmitsRequests id (Tx.read query) :=
  fun events receivedAt => .read fun s _ => same s events receivedAt

/-- Nor is what is written to them. -/
theorem write {change : Store → Store} (inbox : ∀ s, (change s).rawIncomingEvents = s.rawIncomingEvents)
    (commutes : ∀ s events receivedAt,
      change (enqueueBatch s events receivedAt) = enqueueBatch (change s) events receivedAt) :
    AdmitsRequests id (Tx.write change) := by
  intro events receivedAt
  refine .write fun s received => ⟨?_, commutes s events receivedAt⟩
  rw [Store.Received, inbox]
  exact received

theorem saveDecision (make : ℕ → EventDecisionEntity) (names : ∀ n, Serial.id (make n) = n) :
    AdmitsRequests id (Statement.saveDecision make names) := by
  intro events receivedAt
  refine .tryWrite fun s s' received saved => ?_
  by_cases decided : (s.decisionOf (make s.eventDecisions.next).rawIncomingEventId).isSome
  · rw [if_pos decided] at saved
    cases saved
  · rw [if_neg decided] at saved
    obtain rfl := Except.ok.inj saved
    exact ⟨received, if_neg decided⟩

theorem updateRawIncomingEvent (change : RawIncomingEventEntity → RawIncomingEventEntity)
    (keeps : ∀ row, Serial.id (change row) = Serial.id row) :
    AdmitsRequests id (Statement.updateRawIncomingEvent id change keeps) := by
  intro events receivedAt
  refine .write fun s received => ⟨received_modify received id change keeps, ?_⟩
  simp only [enqueueBatch_modify received change keeps events receivedAt]
  rfl

/-! ## Services -/

theorem upsertFieldVersion (context : OrderEventHandlingContext) (fieldName : OrderVersionedField) :
    AdmitsRequests id (EventEngine.upsertFieldVersion context fieldName) :=
  write (fun _ => rfl) fun _ _ _ => rfl

theorem canApplyField (orderId : String) (fieldName : OrderVersionedField) (timestamp : ℚ) :
    AdmitsRequests id (OrderFieldVersion.canApplyField orderId fieldName timestamp) := by
  refine bind (read fun _ _ _ => rfl) fun version => ?_
  cases version <;> exact done _

theorem incrementStats (decision : EngineDecision) (processingTimeMs : ℤ) (updatedAt : Time) :
    AdmitsRequests id (EventDecisionWriter.incrementStats decision processingTimeMs updatedAt) := by
  refine bind (read fun _ _ _ => rfl) fun stats => ?_
  cases stats with
  | none => exact throw _
  | some stats => exact write (fun _ => rfl) fun _ _ _ => rfl

theorem writeFinalDecision (input : FinalDecisionInput) (createdAt : Time) (about : input.delivery.id = id) :
    AdmitsRequests id (EventDecisionWriter.writeFinalDecision input createdAt) := by
  subst about
  exact bind (saveDecision _ _) fun _ => bind (updateRawIncomingEvent _ _) fun _ => incrementStats _ _ _

theorem writeFailedDecision (delivery : RawIncomingEventEntity) (errorMessage : String) (processingTimeMs : ℤ)
    (createdAt : Time) :
    AdmitsRequests delivery.id
      (EventDecisionWriter.writeFailedDecision delivery errorMessage processingTimeMs createdAt) :=
  bind (saveDecision _ _) fun _ => bind (updateRawIncomingEvent _ _) fun _ => incrementStats _ _ _

theorem markRetryableFailure (delivery : RawIncomingEventEntity) (errorMessage : String) (nextAvailableAt : Time) :
    AdmitsRequests delivery.id
      (EventDecisionWriter.markRetryableFailure delivery errorMessage nextAvailableAt) :=
  updateRawIncomingEvent _ _

variable (context : OrderEventHandlingContext)

theorem accept (fromStatus : Option OrderStatus) (toStatus : OrderStatus) (changedFields : JsonObject) :
    AdmitsRequests context.delivery.id (OrderApplicationDecision.accept context fromStatus toStatus changedFields) :=
  writeFinalDecision _ _ rfl

theorem reject (reasonCode : ReasonCode) (reasonMessage : String) (skippedFields : JsonObject)
    (finalAttemptCount : Option ℕ) :
    AdmitsRequests context.delivery.id
      (OrderApplicationDecision.reject context reasonCode reasonMessage skippedFields finalAttemptCount) :=
  writeFinalDecision _ _ rfl

theorem retryOrReject (reasonCode : ReasonCode) (reasonMessage : String) (skippedFields : JsonObject) :
    AdmitsRequests context.delivery.id
      (OrderApplicationDecision.retryOrReject context reasonCode reasonMessage skippedFields) := by
  unfold OrderApplicationDecision.retryOrReject
  simp only
  split
  · exact reject context _ _ _ _
  · exact markRetryableFailure _ _ _

theorem createOrder : AdmitsRequests context.delivery.id (OrderCreationApplication.createOrder context) := by
  refine bind (write (fun _ => rfl) fun _ _ _ => rfl) fun _ => bind ?_ fun _ => accept context _ _ _
  have currency : AdmitsRequests context.delivery.id
      (if (readCurrency context.event.payload).isSome then EventEngine.upsertFieldVersion context .currency
        else pure ()) := by
    split
    · exact upsertFieldVersion context _
    · exact done _
  refine bind (upsertFieldVersion context _) fun _ => ?_
  simp only
  split
  · exact bind (upsertFieldVersion context _) fun _ => currency
  · exact currency

theorem mergeChanges (changes : List VersionedFieldChange) (merge : OrderUpdateApplication.Merge) :
    AdmitsRequests id (OrderUpdateApplication.mergeChanges context changes merge) := by
  induction changes generalizing merge with
  | nil => exact done _
  | cons change rest ih =>
    refine bind (canApplyField _ _ _) fun fresh => ?_
    cases fresh with
    | true => exact bind (upsertFieldVersion context _) fun _ => ih _
    | false => exact ih _

theorem updateOrderFields :
    AdmitsRequests context.delivery.id (OrderUpdateApplication.updateOrderFields context) := by
  unfold OrderUpdateApplication.updateOrderFields
  split
  · exact retryOrReject context _ _ _
  · refine bind (mergeChanges context _ _) fun merge => ?_
    simp only
    split
    · exact reject context _ _ _ _
    · exact bind (write (fun _ => rfl) fun _ _ _ => rfl) fun _ => writeFinalDecision _ _ rfl

theorem applyStatusWhenCurrent (toStatus : OrderStatus) (changedFields : JsonObject) :
    AdmitsRequests context.delivery.id
      (OrderLifecycleApplication.applyStatusWhenCurrent context toStatus changedFields) := by
  refine bind (canApplyField _ _ _) fun fresh => ?_
  cases fresh with
  | true =>
    exact bind (write (fun _ => rfl) fun _ _ _ => rfl) fun _ => bind (upsertFieldVersion context _) fun _ =>
      accept context _ _ _
  | false => exact reject context _ _ _ _

theorem applyRefund (toStatus : OrderStatus) (changedFields : JsonObject) :
    AdmitsRequests context.delivery.id (OrderLifecycleApplication.applyRefund context toStatus changedFields) := by
  refine bind (write (fun _ => rfl) fun _ _ _ => rfl) fun _ => bind (canApplyField _ _ _) fun fresh => ?_
  cases fresh with
  | true => exact bind (upsertFieldVersion context _) fun _ => accept context _ _ _
  | false => exact accept context _ _ _

theorem capturePayment : AdmitsRequests context.delivery.id (OrderLifecycleApplication.capturePayment context) := by
  unfold OrderLifecycleApplication.capturePayment
  split
  · exact retryOrReject context _ _ _
  · split
    · exact reject context _ _ _ _
    · split
      · exact reject context _ _ _ _
      · exact applyStatusWhenCurrent context _ _

theorem cancelOrder : AdmitsRequests context.delivery.id (OrderLifecycleApplication.cancelOrder context) := by
  unfold OrderLifecycleApplication.cancelOrder
  split
  · exact retryOrReject context _ _ _
  · exact applyStatusWhenCurrent context _ _

theorem issueRefund : AdmitsRequests context.delivery.id (OrderLifecycleApplication.issueRefund context) := by
  unfold OrderLifecycleApplication.issueRefund
  split
  · exact retryOrReject context _ _ _
  · split
    · exact reject context _ _ _ _
    · split
      · exact reject context _ _ _ _
      · exact applyRefund context _ _

/-- Whatever the status and the event type, the handler admits requests. -/
theorem handle {status : OrderStatus} {handler : OrderEventHandler}
    (selected : createOrderEventHandler status = .ok handler) :
    AdmitsRequests context.delivery.id (handler.handle context) := by
  have created := createOrder context
  have updated := updateOrderFields context
  have captured := capturePayment context
  have cancelled := cancelOrder context
  have refunded := issueRefund context
  have waits := retryOrReject context
  have refused := reject context
  unfold OrderEventHandler.handle
  cases status with
  | doesNotExist =>
    obtain rfl : nonExistentOrderEventHandler = handler := Except.ok.inj selected
    cases context.event.type with
    | orderCreated => exact created
    | orderUpdated | paymentCaptured | orderCancelled | refundIssued => exact waits _ _ _
  | created =>
    obtain rfl : orderCreatedEventHandler = handler := Except.ok.inj selected
    cases context.event.type with
    | orderCreated | refundIssued => exact refused _ _ _ _
    | orderUpdated => exact updated
    | paymentCaptured => exact captured
    | orderCancelled => exact cancelled
  | cancelled =>
    obtain rfl : orderCancelledEventHandler = handler := Except.ok.inj selected
    cases context.event.type with
    | orderCreated | paymentCaptured | orderCancelled | refundIssued => exact refused _ _ _ _
    | orderUpdated => exact updated
  | paid | partiallyRefunded | refunded =>
    obtain rfl : capturedOrderEventHandler = handler := Except.ok.inj selected
    cases context.event.type with
    | orderCreated | orderCancelled => exact refused _ _ _ _
    | orderUpdated => exact updated
    | paymentCaptured => exact captured
    | refundIssued => exact refunded

/-! ## The two transactions -/

/-- **Requests may arrive at any point of the processing transaction.** -/
theorem processEventTransaction (event : RawIncomingEventEntity) (host : Host) :
    AdmitsRequests event.id (EventEngine.processEventTransaction event host) := by
  refine bind (read fun _ _ _ => rfl) fun decision => ?_
  cases decision with
  | some _ => exact done _
  | none =>
    cases validate event with
    | invalid reasonCode reasonMessage => exact writeFinalDecision _ _ rfl
    | valid valid =>
      refine bind ?_ fun claimed => ?_
      · refine bind (read fun _ _ _ => rfl) fun key => ?_
        cases key with
        | some existingKey => exact done _
        | none => exact bind (write (fun _ => rfl) fun _ _ _ => rfl) fun _ => done _
      · cases claimed with
        | false => exact writeFinalDecision _ _ rfl
        | true =>
          refine bind (read fun _ _ _ => rfl) fun order => ?_
          simp only
          split
          · exact throw _
          · rename_i handler selected
            exact handle ⟨order, valid, event, host⟩ selected

/-- **Requests may arrive at any point of the recording transaction**: the row
it re-reads is not affected by them. -/
theorem handleUnexpectedFailure (event : RawIncomingEventEntity) (errorMessage : String) (host : Host) :
    AdmitsRequests event.id (EventEngine.handleUnexpectedFailure event errorMessage host) := by
  intro events receivedAt
  refine .read_bind ?_ ?_
  · intro s received
    obtain ⟨row, found⟩ := Option.isSome_iff_exists.mp received
    rw [found, findRow_enqueueBatch found]
  · intro s received
    cases found : s.rawIncomingEvents.find event.id with
    | none => exact trivial
    | some latest =>
      have named : latest.id = event.id := s.rawIncomingEvents.id_of_find found
      simp only
      rw [← named]
      split
      · exact writeFailedDecision latest _ _ _ events receivedAt
      · exact markRetryableFailure latest _ _ events receivedAt

end AdmitsRequests
end EventEngine
