import EventEngine.Effects

/-! The services carry out the verdicts. Each service has one theorem saying
what its program does to a store that has not yet decided the delivery; the
handlers, selected by status, are the cases of `judge`. -/
namespace EventEngine.JudgementProofs
open EventEngine Relational
open OrderCreationApplication OrderUpdateApplication OrderLifecycleApplication OrderStateApplication

/-- A store in which a final decision for the delivery can be written: it has
none yet, and the statistics row is there. -/
structure Undecided (s : Store) (rawIncomingEventId : ℕ) : Prop where
  decision : s.decisionOf rawIncomingEventId = none
  stats : s.stats.isSome

variable {s : Store} {context : OrderEventHandlingContext}

/-! ## Decisions -/

theorem incrementStats_run (counted : s.stats.isSome) (decision : EngineDecision) (processingTimeMs : ℤ)
    (updatedAt : Time) :
    (EventDecisionWriter.incrementStats decision processingTimeMs updatedAt).run s =
      .ok ((), { s with stats := s.stats.map (·.counted decision processingTimeMs updatedAt) }) := by
  obtain ⟨stats, held⟩ := Option.isSome_iff_exists.mp counted
  simp [EventDecisionWriter.incrementStats, Tx.run_bind, Statement.findStats, Statement.saveStats, held]

theorem saveDecision_run (make : ℕ → EventDecisionEntity) (names : ∀ n, Serial.id (make n) = n)
    (fresh : s.decisionOf (make s.eventDecisions.next).rawIncomingEventId = none) :
    (Statement.saveDecision make names).run s =
      .ok ((), { s with eventDecisions := s.eventDecisions.insert make names }) := by
  apply Tx.run_tryWrite
  simp [fresh]

theorem writeFinalDecision_run {input : FinalDecisionInput} (ready : Undecided s input.delivery.id)
    (createdAt : Time) :
    (EventDecisionWriter.writeFinalDecision input createdAt).run s =
      .ok ((), s.settle (input.record createdAt) none input.finalAttemptCount) := by
  unfold EventDecisionWriter.writeFinalDecision
  rw [Tx.run_bind_ok (saveDecision_run _ _ ready.decision), Statement.updateRawIncomingEvent,
    Tx.run_bind_ok (Tx.run_write _ _)]
  apply incrementStats_run
  exact ready.stats

theorem writeFailedDecision_run {delivery : RawIncomingEventEntity} (ready : Undecided s delivery.id)
    (errorMessage : String) (host : Host) :
    (EventDecisionWriter.writeFailedDecision delivery errorMessage host.processingTimeMs host.now).run s =
      .ok ((), s.settle (failedRecord delivery host errorMessage) (some errorMessage) none) := by
  unfold EventDecisionWriter.writeFailedDecision
  rw [Tx.run_bind_ok (saveDecision_run _ _ ready.decision), Statement.updateRawIncomingEvent,
    Tx.run_bind_ok (Tx.run_write _ _)]
  apply incrementStats_run
  exact ready.stats

theorem markRetryableFailure_run (delivery : RawIncomingEventEntity) (errorMessage : String)
    (nextAvailableAt : Time) :
    (EventDecisionWriter.markRetryableFailure delivery errorMessage nextAvailableAt).run s =
      .ok ((), s.postpone delivery errorMessage nextAvailableAt) := rfl

/-- Accepting an application that has been written carries the verdict out. -/
theorem accept_run (ready : Undecided s context.delivery.id) (order : OrderEntity)
    (stamped : List OrderVersionedField) (fromStatus : Option OrderStatus) (toStatus : OrderStatus)
    (changedFields : JsonObject) :
    (OrderApplicationDecision.accept context fromStatus toStatus changedFields).run
      (s.write context.event (.accepted order stamped fromStatus toStatus changedFields)) =
      .ok ((), s.carryOut context.delivery context.event context.host
        (.applied (.accepted order stamped fromStatus toStatus changedFields))) := by
  apply writeFinalDecision_run
  exact ⟨ready.decision, ready.stats⟩

theorem reject_run (ready : Undecided s context.delivery.id) (reasonCode : ReasonCode) (reasonMessage : String)
    (skippedFields : JsonObject) (finalAttemptCount : Option ℕ) :
    (OrderApplicationDecision.reject context reasonCode reasonMessage skippedFields finalAttemptCount).run s =
      .ok ((), s.settle (rejection context.delivery context.host context.order reasonCode reasonMessage
        skippedFields) none finalAttemptCount) :=
  writeFinalDecision_run ready _

/-- A context read from the store: its order is the one stored for its event. -/
def Reads (context : OrderEventHandlingContext) (s : Store) : Prop :=
  context.order = (s.view context.event.orderId).order

theorem rejected_run (reads : Reads context s) (ready : Undecided s context.delivery.id)
    (reasonCode : ReasonCode) (reasonMessage : String) (skippedFields : JsonObject) :
    (OrderApplicationDecision.reject context reasonCode reasonMessage skippedFields).run s =
      .ok ((), s.carryOut context.delivery context.event context.host
        (.rejected reasonCode reasonMessage skippedFields)) := by
  rw [reject_run ready, reads]
  rfl

theorem retryOrReject_run (reads : Reads context s) (ready : Undecided s context.delivery.id) :
    (OrderApplicationDecision.retryOrReject context .orderNotReady notReadyMessage).run s =
      .ok ((), s.carryOut context.delivery context.event context.host .notReady) := by
  unfold OrderApplicationDecision.retryOrReject
  simp only [Store.carryOut, Tx.run_ite]
  split
  · rw [reject_run ready, reads]
  · exact markRetryableFailure_run _ _ _

/-! ## Field versions -/

theorem canApplyField_run (orderId : String) (fieldName : OrderVersionedField) (timestamp : ℚ) :
    (OrderFieldVersion.canApplyField orderId fieldName timestamp).run s =
      .ok (isFresh ((s.view orderId).version fieldName) timestamp, s) := by
  simp only [OrderFieldVersion.canApplyField, Statement.findFieldVersion, Tx.run_bind, Tx.run_read]
  simp only [Store.view, isFresh]
  cases s.orderFieldVersions.find (orderId, fieldName) <;> rfl

theorem upsertFieldVersion_run (context : OrderEventHandlingContext) (fieldName : OrderVersionedField) :
    (upsertFieldVersion context fieldName).run s =
      .ok ((), { s with orderFieldVersions := stampAll s.orderFieldVersions context.event [fieldName] }) := rfl

/-! ## Creation -/

theorem writeFieldVersions_run (context : OrderEventHandlingContext) :
    (writeFieldVersions context (readNonNegativeAmountMinor context.event.payload "amount")
      (readCurrency context.event.payload)).run s =
      .ok ((), { s with
        orderFieldVersions := stampAll s.orderFieldVersions context.event (createdFields context.event) }) := by
  unfold writeFieldVersions createdFields
  rw [Tx.run_bind_ok (upsertFieldVersion_run context .status)]
  cases readNonNegativeAmountMinor context.event.payload "amount" <;>
    cases readCurrency context.event.payload <;> rfl

theorem createOrder_run (ready : Undecided s context.delivery.id) :
    (createOrder context).run s =
      .ok ((), s.carryOut context.delivery context.event context.host
        (.applied (creation context.event context.host.now))) := by
  simp only [createOrder, Statement.saveOrder]
  rw [Tx.run_bind_ok (Tx.run_write _ _), Tx.run_bind_ok (writeFieldVersions_run context)]
  exact accept_run ready _ (createdFields context.event) _ _ _

/-! ## Updates -/

theorem mergeAgainst_congr (first second : OrderVersionedField → Option OrderFieldVersionEntity) (timestamp : ℚ)
    {changes : List VersionedFieldChange}
    (same : ∀ change ∈ changes, first change.field = second change.field) (merge : Merge) :
    mergeAgainst first timestamp changes merge = mergeAgainst second timestamp changes merge := by
  induction changes generalizing merge with
  | nil => rfl
  | cons change rest ih =>
    have rest := ih fun other member => same other (List.mem_cons_of_mem _ member)
    have here := same change List.mem_cons_self
    simp only [mergeAgainst, List.foldl_cons, here] at rest ⊢
    exact rest _

theorem appliedFields_congr (first second : OrderVersionedField → Option OrderFieldVersionEntity) (timestamp : ℚ)
    {changes : List VersionedFieldChange}
    (same : ∀ change ∈ changes, first change.field = second change.field) :
    appliedFields first timestamp changes = appliedFields second timestamp changes := by
  unfold appliedFields
  congr 1
  apply List.filter_congr
  intro change member
  rw [same change member]

/-- An update changes nothing exactly when it applies no field. -/
theorem changedFields_eq_nil (version : OrderVersionedField → Option OrderFieldVersionEntity) (timestamp : ℚ)
    (changes : List VersionedFieldChange) (merge : Merge) :
    (mergeAgainst version timestamp changes merge).changedFields = [] ↔
      merge.changedFields = [] ∧ appliedFields version timestamp changes = [] := by
  induction changes generalizing merge with
  | nil => simp [mergeAgainst, appliedFields]
  | cons change rest ih =>
    simp only [mergeAgainst, appliedFields] at ih
    cases fresh : isFresh (version change.field) timestamp with
    | false => simpa [mergeAgainst, appliedFields, fresh, Merge.skip] using ih (merge.skip change)
    | true =>
      have written := JsonObject.set_ne_nil merge.changedFields change.field.text change.value
      have rest := ih (merge.apply change)
      simp only [Merge.apply, written, false_and, iff_false] at rest
      simpa [mergeAgainst, appliedFields, fresh, Merge.apply] using rest

/-- The loop tests every field against the versions it started from: no change
before it stamps the same field. -/
theorem mergeChanges_run (changes : List VersionedFieldChange) (merge : Merge)
    (distinct : (changes.map (·.field)).Nodup) :
    (mergeChanges context changes merge).run s =
      .ok (mergeAgainst (s.view context.event.orderId).version context.event.timestamp changes merge,
        { s with
          orderFieldVersions := stampAll s.orderFieldVersions context.event
            (appliedFields (s.view context.event.orderId).version context.event.timestamp changes) }) := by
  induction changes generalizing s merge with
  | nil => rfl
  | cons change rest ih =>
    obtain ⟨absent, distinct⟩ := List.nodup_cons.mp distinct
    rw [mergeChanges, Tx.run_bind_ok (canApplyField_run _ _ _)]
    cases fresh : isFresh ((s.view context.event.orderId).version change.field) context.event.timestamp with
    | false =>
      simp only [Bool.false_eq_true, ↓reduceIte]
      rw [ih _ distinct]
      simp [mergeAgainst, appliedFields, fresh]
    | true =>
      simp only [↓reduceIte]
      rw [Tx.run_bind_ok (upsertFieldVersion_run context change.field), ih _ distinct]
      let stamped (fieldName : OrderVersionedField) :=
        (stampAll s.orderFieldVersions context.event [change.field]).find (context.event.orderId, fieldName)
      have untouched : ∀ other ∈ rest,
          stamped other.field = (s.view context.event.orderId).version other.field := by
        intro other member
        simp only [stamped]
        rw [find_stampAll, if_neg]
        · rfl
        · rintro ⟨-, same⟩
          rw [List.mem_singleton] at same
          have member : other.field ∈ rest.map (·.field) := List.mem_map_of_mem member
          exact absent (by simpa only [same] using member)
      have sameMerge : mergeAgainst stamped context.event.timestamp rest (merge.apply change) =
          mergeAgainst (s.view context.event.orderId).version context.event.timestamp (change :: rest) merge := by
        rw [mergeAgainst_congr stamped _ _ untouched]
        simp [mergeAgainst, fresh]
      have sameFields : change.field :: appliedFields stamped context.event.timestamp rest =
          appliedFields (s.view context.event.orderId).version context.event.timestamp (change :: rest) := by
        rw [appliedFields_congr stamped _ _ untouched]
        simp [appliedFields, fresh]
      rw [← sameMerge, ← sameFields]
      rfl

/-- Rewriting the stored order is saving the rewritten row. -/
theorem updateOrder_run {orderId : String} {order : OrderEntity} (held : s.orders.find orderId = some order)
    (fields : JsonObject) (updatedAt : Time) :
    (Statement.updateOrder orderId fields updatedAt).run s =
      .ok ((), { s with orders := s.orders.save (order.assign fields updatedAt) }) := by
  have saved := s.orders.update_eq_save orderId (·.assign fields updatedAt) (fun _ => rfl) held
  exact congrArg (fun orders => Except.ok ((), { s with orders })) saved

theorem updateOrderFields_run (reads : Reads context s) (ready : Undecided s context.delivery.id)
    {order : OrderEntity} (present : context.order = some order) :
    (updateOrderFields context).run s =
      .ok ((), s.carryOut context.delivery context.event context.host
        (judgeUpdate (s.view context.event.orderId) order context.event context.host.now)) := by
  have held : s.orders.find context.event.orderId = some order := reads.symm.trans present
  have named : order.orderId = context.event.orderId := KeyedTable.key_of_find held
  have empty := changedFields_eq_nil (s.view context.event.orderId).version context.event.timestamp
    (readOrderUpdateChanges context.event.payload) {}
  simp only [true_and] at empty
  simp only [updateOrderFields, present, judgeUpdate]
  rw [Tx.run_bind_ok (mergeChanges_run _ _ (readOrderUpdateChanges_fields_nodup _))]
  generalize mergeAgainst (s.view context.event.orderId).version context.event.timestamp
    (readOrderUpdateChanges context.event.payload) {} = merge at empty ⊢
  generalize appliedFields (s.view context.event.orderId).version context.event.timestamp
    (readOrderUpdateChanges context.event.payload) = stamped at empty ⊢
  rw [Tx.run_ite]
  by_cases nothing : merge.changedFields = []
  · -- nothing was stamped either, so the store is still the one the loop read
    have unstamped : stamped = [] := empty.mp nothing
    simp only [nothing, unstamped, List.isEmpty_nil, ↓reduceIte]
    exact rejected_run reads ready _ _ _
  · have some_change : merge.changedFields.isEmpty = false := by simpa using nothing
    simp only [some_change, Bool.false_eq_true, ↓reduceIte]
    rw [named, Tx.run_bind_ok (updateOrder_run _ _ _)]
    · apply writeFinalDecision_run
      exact ⟨ready.decision, ready.stats⟩
    · exact held

/-! ## Lifecycle -/

theorem applyStatusWhenCurrent_run (reads : Reads context s) (ready : Undecided s context.delivery.id)
    {order : OrderEntity} (present : context.order = some order) (toStatus : OrderStatus)
    (changedFields : JsonObject) :
    (applyStatusWhenCurrent context toStatus changedFields).run s =
      .ok ((), s.carryOut context.delivery context.event context.host
        (judgeStatusChange (s.view context.event.orderId) order context.event context.host.now toStatus
          changedFields)) := by
  have held : s.orders.find context.event.orderId = some order := reads.symm.trans present
  unfold applyStatusWhenCurrent judgeStatusChange
  rw [OrderFieldVersion.canApplyStatus, Tx.run_bind_ok (canApplyField_run _ _ _), Tx.run_ite]
  split
  · rw [Tx.run_bind_ok (updateOrder_run held _ _), Tx.run_bind_ok (upsertFieldVersion_run _ _), present]
    exact accept_run ready _ [.status] _ _ _
  · exact rejected_run reads ready _ _ _

theorem capturePayment_run (reads : Reads context s) (ready : Undecided s context.delivery.id)
    {order : OrderEntity} (present : context.order = some order) :
    (capturePayment context).run s =
      .ok ((), s.carryOut context.delivery context.event context.host
        (judgeCapture (s.view context.event.orderId) order context.event context.host.now)) := by
  simp only [capturePayment, present, judgeCapture]
  cases readPositiveAmountMinor context.event.payload "amount" with
  | none => exact rejected_run reads ready _ _ _
  | some amountMinor =>
    simp only [Tx.run_ite]
    split
    · exact rejected_run reads ready _ _ _
    · exact applyStatusWhenCurrent_run reads ready present _ _

theorem cancelOrder_run (reads : Reads context s) (ready : Undecided s context.delivery.id)
    {order : OrderEntity} (present : context.order = some order) :
    (cancelOrder context).run s =
      .ok ((), s.carryOut context.delivery context.event context.host
        (judgeCancel (s.view context.event.orderId) order context.event context.host.now)) := by
  simp only [cancelOrder, present]
  exact applyStatusWhenCurrent_run reads ready present _ _

/-- A refund is written whether or not it is newer than the status; only the
status version waits for a newer one. -/
theorem applyRefund_run (ready : Undecided s context.delivery.id) {order : OrderEntity}
    (held : s.orders.find context.event.orderId = some order) (present : context.order = some order)
    (toStatus : OrderStatus) (changedFields : JsonObject) :
    (applyRefund context toStatus changedFields).run s =
      .ok ((), s.carryOut context.delivery context.event context.host
        (.applied (.accepted (order.assign changedFields context.host.now)
          (if isFresh ((s.view context.event.orderId).version .status) context.event.timestamp then [.status] else [])
          (some order.status) toStatus changedFields))) := by
  unfold applyRefund
  rw [Tx.run_bind_ok (updateOrder_run held _ _), OrderFieldVersion.canApplyStatus,
    Tx.run_bind_ok (canApplyField_run _ _ _), present]
  -- the row was rewritten, but no version yet
  have kept : (({ s with orders := s.orders.save (order.assign changedFields context.host.now) } : Store).view
      context.event.orderId).version = (s.view context.event.orderId).version := rfl
  rw [kept]
  cases isFresh ((s.view context.event.orderId).version .status) context.event.timestamp with
  | false =>
    simp only [Bool.false_eq_true, ↓reduceIte]
    exact accept_run ready _ [] _ _ _
  | true =>
    simp only [↓reduceIte]
    rw [Tx.run_bind_ok (upsertFieldVersion_run _ _)]
    exact accept_run ready _ [.status] _ _ _

theorem issueRefund_run (reads : Reads context s) (ready : Undecided s context.delivery.id)
    {order : OrderEntity} (present : context.order = some order) :
    (issueRefund context).run s =
      .ok ((), s.carryOut context.delivery context.event context.host
        (judgeRefund (s.view context.event.orderId) order context.event context.host.now)) := by
  simp only [issueRefund, present, judgeRefund]
  cases readRefundAmountMinor context.event.payload with
  | none => exact rejected_run reads ready _ _ _
  | some refundAmountMinor =>
    simp only [Tx.run_ite]
    split
    · exact rejected_run reads ready _ _ _
    · exact applyRefund_run ready (reads.symm.trans present) present _ _

/-! ## Dispatch -/

theorem rejectForbiddenTransition_run (reads : Reads context s) (ready : Undecided s context.delivery.id)
    {order : OrderEntity} (present : context.order = some order) :
    (rejectForbiddenTransition context).run s =
      .ok ((), s.carryOut context.delivery context.event context.host (forbidden order context.event)) := by
  unfold rejectForbiddenTransition
  rw [present]
  exact rejected_run reads ready _ _ _

/-- The handler selected by the stored status carries out the verdict on the
event, whatever its type and whatever the status. -/
theorem handle_run (reads : Reads context s) (ready : Undecided s context.delivery.id)
    (persisted : (s.view context.event.orderId).Persisted) {handler : OrderEventHandler}
    (selected : createOrderEventHandler ((context.order.map OrderEntity.status).getD .doesNotExist) =
      .ok handler) :
    (handler.handle context).run s =
      .ok ((), s.judged context.delivery context.event context.host) := by
  unfold Store.judged judge
  rw [← reads]
  cases present : context.order with
  | none =>
    rw [present] at selected
    obtain rfl : nonExistentOrderEventHandler = handler := Except.ok.inj selected
    unfold OrderEventHandler.handle
    cases context.event.type with
    | orderCreated => exact createOrder_run ready
    | orderUpdated | paymentCaptured | orderCancelled | refundIssued =>
      exact retryOrReject_run reads ready
  | some order =>
    have real : order.status ≠ .doesNotExist := persisted order (reads.symm.trans present)
    have refused : ∀ reasonCode reasonMessage skippedFields,
        (OrderApplicationDecision.reject context reasonCode reasonMessage skippedFields).run s = _ :=
      rejected_run reads ready
    have forbid := rejectForbiddenTransition_run reads ready present
    have updated := updateOrderFields_run reads ready present
    have captured := capturePayment_run reads ready present
    have cancelled := cancelOrder_run reads ready present
    have refunded := issueRefund_run reads ready present
    rw [present] at selected
    unfold OrderEventHandler.handle
    cases status : order.status with
    | doesNotExist => exact absurd status real
    | created =>
      rw [Option.map_some, Option.getD_some, status] at selected
      obtain rfl : orderCreatedEventHandler = handler := Except.ok.inj selected
      cases context.event.type <;> simp only [status, reduceCtorEq, or_false, ↓reduceIte]
      case orderCreated => exact refused _ _ _
      case orderUpdated => exact updated
      case paymentCaptured => exact captured
      case orderCancelled => exact cancelled
      case refundIssued => exact forbid
    | cancelled =>
      rw [Option.map_some, Option.getD_some, status] at selected
      obtain rfl : orderCancelledEventHandler = handler := Except.ok.inj selected
      cases context.event.type <;> simp only [status, reduceCtorEq, or_true, ↓reduceIte]
      case orderCreated => exact refused _ _ _
      case orderUpdated => exact updated
      case paymentCaptured | orderCancelled | refundIssued => exact forbid
    | paid | partiallyRefunded | refunded =>
      rw [Option.map_some, Option.getD_some, status] at selected
      obtain rfl : capturedOrderEventHandler = handler := Except.ok.inj selected
      cases context.event.type <;> simp only [status, reduceCtorEq, or_self, ↓reduceIte]
      case orderCreated => exact refused _ _ _
      case orderUpdated => exact updated
      case paymentCaptured => exact captured
      case orderCancelled => exact forbid
      case refundIssued => exact refunded

/-- Every status has a handler. -/
theorem handler_exists (status : OrderStatus) : ∃ handler, createOrderEventHandler status = .ok handler := by
  cases status <;> exact ⟨_, rfl⟩

/-- **Dispatch carries out the verdict.** -/
theorem dispatch_run {delivery : RawIncomingEventEntity} (valid : ValidOrderEvent) (host : Host)
    (ready : Undecided s delivery.id) (persisted : (s.view valid.orderId).Persisted) :
    (dispatch delivery valid host).run s = .ok ((), s.judged delivery valid host) := by
  obtain ⟨handler, selected⟩ :=
    handler_exists (((s.orders.find valid.orderId).map OrderEntity.status).getD .doesNotExist)
  simp only [dispatch, Statement.findOrder]
  rw [Tx.run_bind_ok (Tx.run_read _ _), selected]
  let context : OrderEventHandlingContext := ⟨s.orders.find valid.orderId, valid, delivery, host⟩
  have reads : Reads context s := rfl
  exact handle_run reads ready persisted selected

end EventEngine.JudgementProofs
