import EventEngine.Deduplication
import EventEngine.Ledger
import EventEngine.Ranges
import EventEngine.SingleWorker
import EventEngine.Statistics
import EventEngine.Relational.Triples

/-! The schema is never violated. The database checks its constraints statement
by statement, so it is not enough that every transaction restores them: a
version must not be written before its order, nor a key or a decision without
its delivery. No write the engine issues is one that the schema refuses. -/
namespace EventEngine.Schema
open EventEngine Relational Tx

/-- The constraints of `1760000000000-create-event-engine-schema.ts` that the
types of the tables do not express already. -/
structure Constraints (s : Store) : Prop where
  /-- `processed_event_keys.first_raw_incoming_event_id REFERENCES raw_incoming_events(id)`. -/
  keys_reference : ∀ eventId key, s.processedEventKeys.find eventId = some key →
    (s.rawIncomingEvents.find key.firstRawIncomingEventId).isSome
  /-- `order_field_versions.order_id REFERENCES orders(order_id)`. -/
  versions_reference : ∀ orderId fieldName, (s.orderFieldVersions.find (orderId, fieldName)).isSome →
    (s.orders.find orderId).isSome
  /-- `event_decisions.raw_incoming_event_id REFERENCES raw_incoming_events(id)`. -/
  decisions_reference : ∀ decision ∈ s.eventDecisions.rows,
    (s.rawIncomingEvents.find decision.rawIncomingEventId).isSome
  /-- `event_decisions.raw_incoming_event_id ... UNIQUE`. -/
  decisions_unique : (s.eventDecisions.rows.map (·.rawIncomingEventId)).Nodup
  /-- `orders.status CHECK (status IN (...))`, which leaves `DOES_NOT_EXIST` out. -/
  orders_status : ∀ orderId order, s.orders.find orderId = some order → order.status ≠ .doesNotExist
  /-- `stats.id CHECK (id = 1)`. -/
  stats_id : ∀ stats, s.stats = some stats → stats.id = 1

/-- The constraints hold, and the delivery is there to be referred to. -/
structure Received (id : ℕ) (s : Store) : Prop where
  constraints : Constraints s
  received : s.Received id

/-- And so is the order. -/
structure Ordered (id : ℕ) (orderId : String) (s : Store) : Prop extends Received id s where
  ordered : (s.orders.find orderId).isSome

variable {α : Type} {id : ℕ} {orderId : String}

/-- A program all of whose statements the schema admits. -/
abbrev Admitted (pre : Store → Prop) (program : Tx Store α) (post : α → Store → Prop) : Prop :=
  Triple Constraints pre program post

theorem Received.sound (s : Store) (received : Received id s) : Constraints s := received.constraints

theorem Ordered.sound (s : Store) (ordered : Ordered id orderId s) : Constraints s := ordered.constraints

/-! ## Statements -/

theorem saveDecision (make : ℕ → EventDecisionEntity) (names : ∀ n, Serial.id (make n) = n)
    (about : ∀ n, (make n).rawIncomingEventId = id) :
    Admitted (Received id) (Statement.saveDecision make names) fun _ => Received id := by
  refine .tryWrite Received.sound Received.sound fun s s' holds saved => ?_
  by_cases decided : (s.decisionOf (make s.eventDecisions.next).rawIncomingEventId).isSome
  · rw [if_pos decided] at saved
    cases saved
  · rw [if_neg decided] at saved
    obtain rfl := Except.ok.inj saved
    rw [about, Store.decisionOf, Option.not_isSome_iff_eq_none, List.find?_eq_none] at decided
    refine ⟨{ holds.constraints with decisions_reference := ?_, decisions_unique := ?_ }, holds.received⟩
    · intro decision member
      rw [SerialTable.rows_insert, List.mem_append, List.mem_singleton] at member
      rcases member with before | rfl
      · exact holds.constraints.decisions_reference decision before
      · rw [about]
        exact holds.received
    · rw [SerialTable.rows_insert, List.map_append, List.map_singleton, about, List.nodup_append]
      refine ⟨holds.constraints.decisions_unique, List.nodup_singleton _, ?_⟩
      intro other earlier id' last same
      obtain ⟨decision, member, rfl⟩ := List.mem_map.mp earlier
      rw [List.mem_singleton] at last
      exact decided decision member (beq_iff_eq.mpr (same.trans last))

theorem updateRawIncomingEvent (n : ℕ) (change : RawIncomingEventEntity → RawIncomingEventEntity)
    (keeps : ∀ row, Serial.id (change row) = Serial.id row) :
    Admitted (Received id) (Statement.updateRawIncomingEvent n change keeps) fun _ => Received id := by
  refine .write Received.sound Received.sound fun s holds => ?_
  have present : ∀ m, (s.rawIncomingEvents.find m).isSome →
      ((s.rawIncomingEvents.modify n change keeps).find m).isSome := by
    intro m found
    rw [SerialTable.find_modify, Option.isSome_map]
    exact found
  have constraints := holds.constraints
  exact
    ⟨{ constraints with
        keys_reference := fun eventId key held => present _ (constraints.keys_reference eventId key held)
        decisions_reference := fun decision member => present _ (constraints.decisions_reference decision member) },
      present id holds.received⟩

theorem saveEventKey (eventId : String) :
    Admitted (Received id) (Statement.saveEventKey ⟨eventId, id⟩) fun _ => Received id := by
  refine .write Received.sound Received.sound fun s holds =>
    ⟨{ holds.constraints with keys_reference := ?_ }, holds.received⟩
  intro probe key held
  rw [KeyedTable.find_save] at held
  split at held
  · obtain rfl := Option.some.inj held
    exact holds.received
  · exact holds.constraints.keys_reference probe key held

theorem saveFieldVersion (row : OrderFieldVersionEntity) :
    Admitted (Ordered id row.orderId) (Statement.saveFieldVersion row) fun _ => Ordered id row.orderId := by
  refine .write Ordered.sound Ordered.sound fun s holds => ?_
  refine ⟨⟨{ holds.constraints with versions_reference := ?_ }, holds.received⟩, holds.ordered⟩
  intro other fieldName found
  rw [KeyedTable.find_save] at found
  split at found
  · rename_i here
    obtain ⟨rfl, -⟩ := Prod.mk.inj here
    exact holds.ordered
  · exact holds.constraints.versions_reference other fieldName found

/-- A real status is written for the order itself. -/
theorem saveOrder (row : OrderEntity) (real : row.status ≠ .doesNotExist) :
    Admitted (Received id) (Statement.saveOrder row) fun _ => Ordered id row.orderId := by
  refine .write Received.sound Ordered.sound fun s holds => ?_
  have key : Keyed.key row = row.orderId := rfl
  refine ⟨⟨{ holds.constraints with versions_reference := ?_, orders_status := ?_ }, holds.received⟩, ?_⟩
  · intro other fieldName found
    have present := holds.constraints.versions_reference other fieldName found
    rw [KeyedTable.find_save]
    split
    · rfl
    · exact present
  · intro other order found
    rw [KeyedTable.find_save] at found
    split at found
    · obtain rfl := Option.some.inj found
      exact real
    · exact holds.constraints.orders_status other order found
  · simp [KeyedTable.find_save, key]

/-- A change that does not take an order out of the real statuses. -/
def Real (fields : JsonObject) : Prop := fields.get "status" ≠ some (.status .doesNotExist)

theorem statusOf_eq_some {value : JsonValue} {status : OrderStatus} (read : statusOf value = some status) :
    value = .status status := by
  cases value with
  | string text =>
    have named := List.find?_some read
    rw [JsonValue.status, beq_iff_eq.mp named]
  | null | boolean | number | array | object => cases read

theorem real_of_status {fields : JsonObject} {status : OrderStatus}
    (written : fields.get "status" = some (.status status)) (real : status ≠ .doesNotExist) : Real fields := by
  intro unreal
  have same := congrArg statusOf (Option.some.inj (written.symm.trans unreal))
  rw [statusOf_status, statusOf_status] at same
  exact real (Option.some.inj same)

theorem assign_real {order : OrderEntity} (before : order.status ≠ .doesNotExist) {fields : JsonObject}
    (real : Real fields) (updatedAt : Time) : (order.assign fields updatedAt).status ≠ .doesNotExist := by
  simp only [OrderEntity.assign, assigned]
  cases found : fields.get "status" with
  | none => exact before
  | some value =>
    rw [Option.bind_some]
    cases read : statusOf value with
    | none => exact before
    | some status =>
      rintro rfl
      exact real (found.trans (congrArg some (statusOf_eq_some read)))

theorem updateOrder (other : String) (fields : JsonObject) (updatedAt : Time) (real : Real fields) :
    Admitted (Ordered id orderId) (Statement.updateOrder other fields updatedAt) fun _ => Ordered id orderId := by
  refine .write Ordered.sound Ordered.sound fun s holds => ?_
  have present : ∀ probe, (s.orders.find probe).isSome →
      ((s.orders.update other (·.assign fields updatedAt)).find probe).isSome := by
    intro probe found
    simp only [KeyedTable.update, Function.update_apply]
    split
    · rename_i here
      subst here
      rwa [Option.isSome_map]
    · exact found
  refine ⟨⟨{ holds.constraints with versions_reference := ?_, orders_status := ?_ }, holds.received⟩,
    present _ holds.ordered⟩
  · exact fun probe fieldName found => present _ (holds.constraints.versions_reference probe fieldName found)
  · intro probe order found
    simp only [KeyedTable.update, Function.update_apply] at found
    split at found
    · obtain ⟨before, held, rfl⟩ := Option.map_eq_some_iff.mp found
      exact assign_real (holds.constraints.orders_status _ before held) real updatedAt
    · exact holds.constraints.orders_status probe order found

/-! ## Writing a decision -/

theorem incrementStats (decision : EngineDecision) (processingTimeMs : ℤ) (updatedAt : Time) :
    Admitted (Received id) (EventDecisionWriter.incrementStats decision processingTimeMs updatedAt)
      fun _ => Received id := by
  refine .read Received.sound fun stats => ?_
  cases stats with
  | none => exact .throw fun s holds => holds.1.constraints
  | some stats =>
    refine .write (fun s holds => holds.1.constraints) Received.sound fun s holds => ?_
    refine ⟨{ holds.1.constraints with stats_id := ?_ }, holds.1.received⟩
    rintro _ ⟨⟩
    rw [← holds.1.constraints.stats_id stats holds.2]
    cases decision <;> rfl

theorem writeFinalDecision (input : FinalDecisionInput) (createdAt : Time) (about : input.delivery.id = id) :
    Admitted (Received id) (EventDecisionWriter.writeFinalDecision input createdAt) fun _ => Received id :=
  .seq (saveDecision _ _ fun _ => about) fun _ => .seq (updateRawIncomingEvent _ _ _) fun _ => incrementStats _ _ _

theorem writeFailedDecision (delivery : RawIncomingEventEntity) (errorMessage : String) (processingTimeMs : ℤ)
    (createdAt : Time) (about : delivery.id = id) :
    Admitted (Received id)
      (EventDecisionWriter.writeFailedDecision delivery errorMessage processingTimeMs createdAt) fun _ => Received id :=
  .seq (saveDecision _ _ fun _ => about) fun _ => .seq (updateRawIncomingEvent _ _ _) fun _ => incrementStats _ _ _

theorem markRetryableFailure (delivery : RawIncomingEventEntity) (errorMessage : String) (nextAvailableAt : Time) :
    Admitted (Received id)
      (EventDecisionWriter.markRetryableFailure delivery errorMessage nextAvailableAt) fun _ => Received id :=
  updateRawIncomingEvent _ _ _

/-! ## Services -/

variable (context : OrderEventHandlingContext)

/-- The delivery of the context is received, and its order, if it has one, is there. -/
abbrev Begun (s : Store) : Prop :=
  Received context.delivery.id s ∧
    ∀ order, context.order = some order → (s.orders.find context.event.orderId).isSome

/-- The delivery and the order of the context are there. -/
abbrev Open : Store → Prop := Ordered context.delivery.id context.event.orderId

theorem accept (fromStatus : Option OrderStatus) (toStatus : OrderStatus) (changedFields : JsonObject) :
    Admitted (Open context) (OrderApplicationDecision.accept context fromStatus toStatus changedFields)
      fun _ => Received context.delivery.id :=
  (writeFinalDecision _ _ rfl).strengthen fun _ holds => holds.toReceived

theorem reject (reasonCode : ReasonCode) (reasonMessage : String) (skippedFields : JsonObject)
    (finalAttemptCount : Option ℕ) :
    Admitted (Received context.delivery.id)
      (OrderApplicationDecision.reject context reasonCode reasonMessage skippedFields finalAttemptCount)
      fun _ => Received context.delivery.id :=
  writeFinalDecision _ _ rfl

theorem retryOrReject (reasonCode : ReasonCode) (reasonMessage : String) (skippedFields : JsonObject) :
    Admitted (Received context.delivery.id)
      (OrderApplicationDecision.retryOrReject context reasonCode reasonMessage skippedFields)
      fun _ => Received context.delivery.id := by
  unfold OrderApplicationDecision.retryOrReject
  simp only
  split
  · exact reject context _ _ _ _
  · exact markRetryableFailure _ _ _

theorem upsertFieldVersion (fieldName : OrderVersionedField) :
    Admitted (Open context) (EventEngine.upsertFieldVersion context fieldName) fun _ => Open context :=
  saveFieldVersion ⟨context.event.orderId, fieldName, context.event.timestamp, context.event.eventId⟩

/-- Whether a field may be applied is only read. -/
theorem canApplyField (fieldName : OrderVersionedField) (timestamp : ℚ) :
    Admitted (Open context) (OrderFieldVersion.canApplyField context.event.orderId fieldName timestamp)
      fun _ => Open context := by
  refine .read Ordered.sound fun version => ?_
  cases version <;> exact .done (fun s holds => holds.1.constraints) fun s holds => holds.1

/-- The order is saved before its first version. -/
theorem createOrder :
    Admitted (Received context.delivery.id) (OrderCreationApplication.createOrder context)
      fun _ => Received context.delivery.id := by
  have currency : Admitted (Open context)
      (if (readCurrency context.event.payload).isSome then EventEngine.upsertFieldVersion context .currency
        else pure ()) fun _ => Open context := by
    split
    · exact upsertFieldVersion context _
    · exact .done Ordered.sound fun s holds => holds
  refine .bind (saveOrder _ nofun) fun _ => .bind ?_ fun _ => accept context _ _ _
  refine .seq (upsertFieldVersion context _) fun _ => ?_
  simp only
  split
  · exact .seq (upsertFieldVersion context _) fun _ => currency
  · exact currency

/-- The update loop does not patch the status. -/
theorem mergeChanges (changes : List VersionedFieldChange) (columns : ∀ change ∈ changes, change.column ≠ "status")
    (merge : OrderUpdateApplication.Merge) (unpatched : merge.orderPatch.get "status" = none) :
    Admitted (Open context) (OrderUpdateApplication.mergeChanges context changes merge)
      fun merge' s => Open context s ∧ Real merge'.orderPatch := by
  induction changes generalizing merge with
  | nil => exact .done Ordered.sound fun s holds => ⟨holds, by simp [Real, unpatched]⟩
  | cons change rest ih =>
    have ih := ih fun later member => columns later (List.mem_cons_of_mem _ member)
    refine .seq (canApplyField context _ _) fun fresh => ?_
    cases fresh with
    | false => exact ih _ unpatched
    | true =>
      have other := columns change List.mem_cons_self
      exact .seq (upsertFieldVersion context _) fun _ =>
        ih _ ((merge.orderPatch.get_set_of_ne (Ne.symm other) _).trans unpatched)

theorem readOrderUpdateChanges_columns (payload : JsonObject) :
    ∀ change ∈ readOrderUpdateChanges payload, change.column ≠ "status" := by
  unfold readOrderUpdateChanges
  cases readNonNegativeAmountMinor payload "amount" <;> cases readCurrency payload <;> simp

/-- What needs an order is admitted once there is one. -/
theorem begun_open {program : Tx Store Unit} {post : Unit → Store → Prop} {order : OrderEntity}
    (present : context.order = some order) (admitted : Admitted (Open context) program post) :
    Admitted (Begun context) program post :=
  admitted.strengthen fun _ holds => ⟨holds.1, holds.2 order present⟩

theorem begun_received {program : Tx Store Unit} {post : Unit → Store → Prop}
    (admitted : Admitted (Received context.delivery.id) program post) : Admitted (Begun context) program post :=
  admitted.strengthen fun _ holds => holds.1

theorem updateOrderFields :
    Admitted (Begun context) (OrderUpdateApplication.updateOrderFields context)
      fun _ => Received context.delivery.id := by
  unfold OrderUpdateApplication.updateOrderFields
  split
  · exact begun_received context (retryOrReject context _ _ _)
  · rename_i order present
    refine begun_open context present (.bind (mergeChanges context _ (readOrderUpdateChanges_columns _) _ rfl) ?_)
    refine fun merge => .assuming fun real => ?_
    simp only
    split
    · exact (reject context _ _ _ _).strengthen fun _ holds => holds.toReceived
    · refine .bind (updateOrder _ _ _ real) fun _ => ?_
      exact (writeFinalDecision _ _ rfl).strengthen fun _ holds => holds.toReceived

theorem applyStatusWhenCurrent (toStatus : OrderStatus) (changedFields : JsonObject) (real : Real changedFields) :
    Admitted (Open context) (OrderLifecycleApplication.applyStatusWhenCurrent context toStatus changedFields)
      fun _ => Received context.delivery.id := by
  refine .seq (canApplyField context _ _) fun fresh => ?_
  cases fresh with
  | true =>
    exact .seq (updateOrder _ _ _ real) fun _ => .seq (upsertFieldVersion context _) fun _ => accept context _ _ _
  | false => exact (reject context _ _ _ _).strengthen fun _ holds => holds.toReceived

theorem applyRefund (toStatus : OrderStatus) (changedFields : JsonObject) (real : Real changedFields) :
    Admitted (Open context) (OrderLifecycleApplication.applyRefund context toStatus changedFields)
      fun _ => Received context.delivery.id := by
  refine .seq (updateOrder _ _ _ real) fun _ => .seq (canApplyField context _ _) fun fresh => ?_
  cases fresh with
  | true => exact .seq (upsertFieldVersion context _) fun _ => accept context _ _ _
  | false => exact accept context _ _ _

theorem capturePayment :
    Admitted (Begun context) (OrderLifecycleApplication.capturePayment context)
      fun _ => Received context.delivery.id := by
  unfold OrderLifecycleApplication.capturePayment
  split
  · exact begun_received context (retryOrReject context _ _ _)
  · rename_i order present
    split
    · exact begun_received context (reject context _ _ _ _)
    · split
      · exact begun_received context (reject context _ _ _ _)
      · exact begun_open context present (applyStatusWhenCurrent context _ _ (@real_of_status _ .paid (by simp) nofun))

theorem cancelOrder :
    Admitted (Begun context) (OrderLifecycleApplication.cancelOrder context) fun _ => Received context.delivery.id := by
  unfold OrderLifecycleApplication.cancelOrder
  split
  · exact begun_received context (retryOrReject context _ _ _)
  · rename_i order present
    exact begun_open context present (applyStatusWhenCurrent context _ _ (@real_of_status _ .cancelled (by simp) nofun))

theorem issueRefund :
    Admitted (Begun context) (OrderLifecycleApplication.issueRefund context) fun _ => Received context.delivery.id := by
  unfold OrderLifecycleApplication.issueRefund
  split
  · exact begun_received context (retryOrReject context _ _ _)
  · rename_i order present
    split
    · exact begun_received context (reject context _ _ _ _)
    · split
      · exact begun_received context (reject context _ _ _ _)
      · refine begun_open context present (applyRefund context _ _ ?_)
        refine real_of_status (by simp; rfl) ?_
        unfold OrderLifecycleApplication.refundStatus
        split <;> exact nofun

/-- Whatever the status and the event type, the handler's writes are admitted. -/
theorem handle {status : OrderStatus} {handler : OrderEventHandler}
    (selected : createOrderEventHandler status = .ok handler) :
    Admitted (Begun context) (handler.handle context) fun _ => Received context.delivery.id := by
  have created := begun_received context (createOrder context)
  have updated := updateOrderFields context
  have captured := capturePayment context
  have cancelled := cancelOrder context
  have refunded := issueRefund context
  have waits := fun message => begun_received context (retryOrReject context .orderNotReady message [])
  have refused := fun reasonCode message => begun_received context (reject context reasonCode message [] none)
  unfold OrderEventHandler.handle
  cases status with
  | doesNotExist =>
    obtain rfl : nonExistentOrderEventHandler = handler := Except.ok.inj selected
    cases context.event.type with
    | orderCreated => exact created
    | orderUpdated | paymentCaptured | orderCancelled | refundIssued => exact waits _
  | created =>
    obtain rfl : orderCreatedEventHandler = handler := Except.ok.inj selected
    cases context.event.type with
    | orderCreated | refundIssued => exact refused _ _
    | orderUpdated => exact updated
    | paymentCaptured => exact captured
    | orderCancelled => exact cancelled
  | cancelled =>
    obtain rfl : orderCancelledEventHandler = handler := Except.ok.inj selected
    cases context.event.type with
    | orderCreated | paymentCaptured | orderCancelled | refundIssued => exact refused _ _
    | orderUpdated => exact updated
  | paid | partiallyRefunded | refunded =>
    obtain rfl : capturedOrderEventHandler = handler := Except.ok.inj selected
    cases context.event.type with
    | orderCreated | orderCancelled => exact refused _ _
    | orderUpdated => exact updated
    | paymentCaptured => exact captured
    | refundIssued => exact refunded

/-! ## The two transactions -/

theorem claimEventId (eventId : String) :
    Admitted (Received id) (EventEngine.claimEventId eventId id) fun _ => Received id := by
  refine .read Received.sound fun key => ?_
  cases key with
  | some existingKey => exact .done (fun s holds => holds.1.constraints) fun s holds => holds.1
  | none =>
    refine .bind (Triple.strengthen (saveEventKey eventId) fun s holds => holds.1) fun _ => ?_
    exact .done Received.sound fun s holds => holds

theorem dispatch (event : RawIncomingEventEntity) (valid : ValidOrderEvent) (host : Host) :
    Admitted (Received event.id) (EventEngine.dispatch event valid host) fun _ => Received event.id := by
  refine .read Received.sound fun order => ?_
  simp only
  split
  · exact .throw fun s holds => holds.1.constraints
  · rename_i handler selected
    refine (handle ⟨order, valid, event, host⟩ selected).strengthen fun s holds => ⟨holds.1, ?_⟩
    rintro held rfl
    rw [holds.2]
    rfl

theorem processEventTransaction (event : RawIncomingEventEntity) (host : Host) :
    Admitted (Received event.id) (EventEngine.processEventTransaction event host) fun _ => Received event.id := by
  refine .read Received.sound fun decision => ?_
  have begins : ∀ {program : Tx Store Unit} {decision : Option EventDecisionEntity},
      Admitted (Received event.id) program (fun _ => Received event.id) →
      Admitted (fun s => Received event.id s ∧ s.decisionOf event.id = decision) program fun _ => Received event.id :=
    fun admitted => admitted.strengthen fun s holds => holds.1
  cases decision with
  | some _ => exact begins (.done Received.sound fun s holds => holds)
  | none =>
    cases validate event with
    | invalid reasonCode reasonMessage => exact begins (writeFinalDecision _ _ rfl)
    | valid valid =>
      refine begins (.bind (claimEventId valid.eventId) fun claimed => ?_)
      cases claimed with
      | false => exact writeFinalDecision _ _ rfl
      | true => exact dispatch event valid host

theorem handleUnexpectedFailure (event : RawIncomingEventEntity) (errorMessage : String) (host : Host) :
    Admitted (Received event.id) (EventEngine.handleUnexpectedFailure event errorMessage host)
      fun _ => Received event.id := by
  intro s holds
  suffices asked : Triple Constraints (fun t => t = s) (EventEngine.handleUnexpectedFailure event errorMessage host)
      fun _ => Received event.id from asked s rfl
  refine Triple.read (fun t same => same ▸ holds.constraints) fun latest => ?_
  rintro t ⟨rfl, found⟩
  cases latest with
  | none => exact ⟨holds.constraints, holds⟩
  | some latest =>
    have named : latest.id = event.id := t.rawIncomingEvents.id_of_find found
    simp only
    split
    · exact writeFailedDecision latest _ _ _ named t holds
    · exact markRetryableFailure latest _ _ t holds

/-! ## Every store of the server -/

theorem constraints_reachable {sys : System} (reachable : Reachable sys) : Constraints sys.store where
  keys_reference := by
    intro eventId key held
    obtain ⟨event, known, -⟩ := (Deduplication.claimed_reachable reachable).held eventId key held
    obtain ⟨row, found, -⟩ := Option.bind_eq_some_iff.mp known
    rw [found]
    rfl
  versions_reference := fun orderId => unstamped_of_history (history_reachable reachable orderId)
  decisions_reference := reachable.consistent.store.delivered
  decisions_unique := reachable.consistent.store.decided_once
  orders_status := fun orderId order => reachable.consistent.store.persisted orderId order
  stats_id := by
    apply reachable_invariant (fun s => ∀ stats, s.stats = some stats → stats.id = 1) reachable
    · rintro now _ ⟨⟩
      rfl
    · exact fun s events receivedAt _ same => same
    · intro s delivery host s' call same stats kept
      rcases Statistics.books_outcome call.outcome with ⟨-, unchanged⟩ | ⟨record, -, recounted⟩
      · exact same stats (unchanged ▸ kept)
      · rw [recounted, Option.map_eq_some_iff] at kept
        obtain ⟨before, held, rfl⟩ := kept
        rw [← same before held]
        cases record.decision <;> rfl

open AwaitPoints Ranges SingleWorker

/-- The next statement of a program that will return is executed, and admitted. -/
theorem resume_of_run {post : Unit → Store → Prop} {transaction : OpenTransaction} {s t : Store}
    (meets : transaction.program.Meets Constraints post s) (returns : transaction.program.run s = .ok ((), t)) :
    ∃ next s', transaction.resume s = .ok (next, s') ∧ Constraints s' := by
  unfold OpenTransaction.resume
  split
  · rename_i ended
    exact ⟨none, s, rfl, meets.holds⟩
  · rename_i thrown
    rw [thrown] at returns
    cases returns
  · rename_i exec next remaining
    rw [remaining] at meets returns
    cases ran : exec s with
    | error message => simp [Tx.run, ran] at returns
    | ok reply => exact ⟨_, reply.2, rfl, (meets.2 reply.1 reply.2 ran).holds⟩

/-- A database that meets the schema, all of it in range. -/
structure Admissible (s : Store) : Prop where
  constraints : Constraints s
  storable : Storable s

/-- What the schema and the engine's own checks make of a server. -/
structure NeverRefused (server : Server) : Prop where
  /-- The database meets the schema as its connection sees it, in the middle of a
  transaction as well as between two, and no amount or time in it is out of range. -/
  database : Admissible server.store
  /-- So does the database that a rollback would return to. -/
  rollback : ∀ event rest attempt transaction, .calling event rest attempt ∈ server.polls →
    attempt.open? = some transaction → Admissible transaction.rollback
  /-- Left to itself, an open transaction executes its next statement or commits:
  the statement can be written, the database does not refuse it, the statistics
  row is there, and so is a handler for the order's status. -/
  next : ∀ event rest attempt transaction, .calling event rest attempt ∈ server.polls →
    attempt.open? = some transaction →
    ∃ rest' s', transaction.resume server.store = .ok (rest', s') ∧ Admissible s'

theorem received_of_reached {s : Store} {event : RawIncomingEventEntity} {rest : List RawIncomingEventEntity}
    (reached : Reached s [.processing (event :: rest)]) : Received event.id s := by
  refine ⟨constraints_reachable reached, ?_⟩
  rw [Store.Received, stored_of_reached reached]
  rfl

/-- An open transaction whose program is admitted, and would return, is never refused. -/
theorem unrefused_of_within {s base t : Store} {event : RawIncomingEventEntity} {rest : List RawIncomingEventEntity}
    {program : Tx Store Unit} {transaction : OpenTransaction}
    (within : Within program [.processing (event :: rest)] s transaction base)
    (admitted : Admitted (Received event.id) program fun _ => Received event.id)
    (returns : program.run base = .ok ((), t)) :
    Constraints s ∧ Constraints transaction.rollback ∧
      ∃ next s', transaction.resume s = .ok (next, s') ∧ Constraints s' := by
  obtain ⟨holds, meets⟩ := (admitted base (received_of_reached within.reached)).advances within.advances
  exact ⟨holds, constraints_reachable within.rollback,
    resume_of_run meets (within.advances.run_eq.symm.trans returns)⟩

theorem neverRefused_closed {s : Store} {poll : AwaitPoints.Poll} (constraints : Constraints s) (storable : Storable s)
    (closed : ∀ event rest attempt, poll = .calling event rest attempt → attempt.open? = none) :
    NeverRefused ⟨s, true, [poll]⟩ := by
  refine ⟨⟨constraints, storable⟩, ?_, ?_⟩
  all_goals
    intro event rest attempt transaction member opened
    rw [closed event rest attempt (List.mem_singleton.mp member).symm] at opened
    cases opened

theorem neverRefused_open {s : Store} {event : RawIncomingEventEntity} {rest : List RawIncomingEventEntity}
    {attempt : Attempt} {transaction : OpenTransaction} (opened : attempt.open? = some transaction)
    (unrefused : Constraints s ∧ Constraints transaction.rollback ∧
      ∃ next s', transaction.resume s = .ok (next, s') ∧ Constraints s')
    (inRange : ServerInRange ⟨s, true, [.calling event rest attempt]⟩) :
    NeverRefused ⟨s, true, [.calling event rest attempt]⟩ := by
  obtain ⟨constraints, rollback, next, s', ran, admitted⟩ := unrefused
  have resumable := (inRange.polls _ List.mem_cons_self).2 transaction opened
  refine ⟨⟨constraints, inRange.store⟩, ?_, ?_⟩
  all_goals
    intro event' rest' attempt' transaction' member opened'
    obtain ⟨rfl, rfl, rfl⟩ := Poll.calling.inj (List.mem_singleton.mp member)
    obtain rfl := Option.some.inj (opened.symm.trans opened')
  · exact ⟨rollback, resumable.rollback⟩
  · exact ⟨next, s', ran, admitted, (resumed resumable inRange.store ran).1⟩

theorem neverRefused_of_follows {s : Store} {poll : AwaitPoints.Poll} (follows : Follows s poll)
    (inRange : ServerInRange ⟨s, true, [poll]⟩) : NeverRefused ⟨s, true, [poll]⟩ := by
  cases follows with
  | finding reached | looping reached =>
    exact neverRefused_closed (constraints_reachable reached) inRange.store fun _ _ _ same => by cases same
  | filtering reached =>
    exact neverRefused_closed (constraints_reachable (reached 0)) inRange.store fun _ _ _ same => by cases same
  | starting reached | caught reached =>
    exact neverRefused_closed (constraints_reachable reached) inRange.store fun _ _ _ same => by cases same; rfl
  | @processing event rest host transaction base within =>
    have ran := processEventTransaction_run within.reached.consistent.store.toOperational event host
    exact neverRefused_open rfl (unrefused_of_within within (processEventTransaction event host) ran) inRange
  | @recording event rest host errorMessage transaction base within =>
    have undecided := (within.reached.consistent.queued _ rfl).undecided event List.mem_cons_self
    have ran := handleUnexpectedFailure_run undecided within.reached.consistent.store.stats errorMessage host
    exact neverRefused_open rfl (unrefused_of_within within (handleUnexpectedFailure event errorMessage host) ran) inRange

/-- **No write is ever refused**: at every await of every interleaving of ticks,
requests and throws that asks for nothing out of range, the schema holds
statement by statement, what is written is in range, and a transaction that
nothing outside the engine disturbs goes on to its commit. -/
theorem no_write_is_refused {joins : Bool} {now : Time} {actions : List AwaitPoints.Action} {server : Server}
    (run : Run (AwaitPoints.step joins) (.started now) actions server) (ordinary : ∀ action ∈ actions, Ordinary action) :
    NeverRefused server := by
  have inRange := inRange_run run ordinary
  have reachable : AwaitPoints.Reachable joins server := ⟨now, actions, run⟩
  cases refines_reachable reachable with
  | idle reached =>
    refine ⟨⟨constraints_reachable reached, inRange.store⟩, ?_, ?_⟩
    all_goals
      intro event rest attempt transaction member
      cases member
  | polling follows => exact neverRefused_of_follows follows inRange

theorem overlappingActions_ordinary : ∀ action ∈ overlappingActions, Ordinary action := by
  have onTime : OnTime (stoppedAt 0) := ⟨by decide, by decide⟩
  have posted : ∀ eventId timestamp, Ordinary (.enqueueBatch
      [postedItem eventId "o" .paymentCaptured timestamp (amountPayload "amount" 50)] 0) := by
    intro eventId timestamp
    refine ⟨by decide, fun item member => ?_⟩
    obtain rfl := List.mem_singleton.mp member
    refine Figures.itemUpTo_postedItem eventId "o" .paymentCaptured timestamp fun value found => ?_
    obtain rfl : 50 = value := by simpa [amountPayload] using found
    decide +kernel
  simp only [overlappingActions, List.mem_cons, List.not_mem_nil, or_false, forall_eq_or_imp, forall_eq]
  exact ⟨posted _ _, trivial, onTime, onTime, onTime, onTime, onTime, posted _ _, trivial, onTime, trivial, onTime⟩

theorem no_write_is_refused_overlapping : NeverRefused overlappingServer :=
  no_write_is_refused (run_of_enabled _) overlappingActions_ordinary

end EventEngine.Schema
