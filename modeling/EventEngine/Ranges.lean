import EventEngine.AwaitPoints
import EventEngine.Figures
import EventEngine.Relational.Guarantees

/-! What can be written. An amount that is not a finite number, or an instant out
of the range of `Date`, cannot be written into a statement. As long as none is
asked for, no statement of the engine has to write one, in whatever order ticks,
requests and throws come. -/
namespace EventEngine.Ranges
open EventEngine Relational Figures Tx

/-! ## Stores in range -/

/-- `Number.MAX_VALUE`, the greatest finite double. -/
def maxValue : ℤ := (2 ^ 53 - 1) * 2 ^ 971

/-- The last instant of `Date`. -/
def maxTime : Time := 8640000000000000

/-- An instant that `toISOString` has a text for. -/
def Dated (instant : Time) : Prop := -maxTime ≤ instant ∧ instant ≤ maxTime

instance (instant : Time) : Decidable (Dated instant) := inferInstanceAs (Decidable (_ ∧ _))

/-- A delivery whose next attempt has a date, and whose event stores nothing but
finite amounts. -/
structure Deliverable (row : RawIncomingEventEntity) : Prop where
  availableAt : Dated row.availableAt
  amounts : ∀ event, validate row = .valid event → EventUpTo maxValue event

/-- A store that the engine could write. Its other times are readings of the
clock, and its other numbers counters. -/
structure Storable (s : Store) : Prop where
  deliveries : ∀ id row, s.rawIncomingEvents.find id = some row → Deliverable row
  orders : ∀ orderId order, s.orders.find orderId = some order → ColumnsUpTo maxValue order

/-- The clock, and the next attempt after the configured delay, have dates. -/
structure OnTime (host : Host) : Prop where
  now : Dated host.now
  nextAvailableAt : Dated host.nextAvailableAt

/-- A program all of whose statements can be written. -/
abbrev Writable {α : Type} (program : Tx Store α) (result : α → Prop := fun _ => True) : Prop :=
  program.Guarantees Storable result

theorem storable_enqueueBatch {s : Store} (storable : Storable s) {items : List JsonValue} {receivedAt : Time}
    (dated : Dated receivedAt) (upTo : ∀ item ∈ items, ItemUpTo maxValue item) :
    Storable (enqueueBatch s items receivedAt) := by
  refine ⟨fun id row found => ?_, storable.orders⟩
  rcases findRow_enqueueBatch_cases found with before | ⟨-, item, member, rfl⟩
  · exact storable.deliveries id row before
  · refine ⟨?_, fun event valid => eventUpTo_of_item (upTo item member) valid⟩
    have same : (createRawIncomingEvent item receivedAt id).availableAt = receivedAt := by
      unfold createRawIncomingEvent
      cases item.asObject? <;> rfl
    rwa [same]

/-! ## Patches -/

/-- A patch writes finite amounts only. -/
def Writes (fields : JsonObject) : Prop :=
  ∀ name amountMinor, (fields.get name).bind minorOf = some amountMinor → UpTo maxValue amountMinor

theorem writes_nil : Writes [] := fun _ _ written => by cases written

theorem writes_set {fields : JsonObject} (writes : Writes fields) {name : String} {value : JsonValue}
    (upTo : ∀ amountMinor, minorOf value = some amountMinor → UpTo maxValue amountMinor) :
    Writes (fields.set name value) := by
  intro probe amountMinor written
  by_cases same : probe = name
  · subst same
    rw [JsonObject.get_set_self, Option.bind_some] at written
    exact upTo amountMinor written
  · rw [fields.get_set_of_ne same] at written
    exact writes probe amountMinor written

theorem columnsUpTo_assign {order : OrderEntity} (before : ColumnsUpTo maxValue order) {fields : JsonObject}
    (writes : Writes fields) (updatedAt : Time) : ColumnsUpTo maxValue (order.assign fields updatedAt) := by
  have money : ∀ name current, UpTo maxValue current → UpTo maxValue (assigned fields name minorOf current) := by
    intro name current kept
    unfold assigned
    cases written : (fields.get name).bind minorOf with
    | none => exact kept
    | some amountMinor => exact writes name amountMinor written
  refine ⟨?_, money _ _ before.2.1, money _ _ before.2.2⟩
  intro amountMinor held
  simp only [OrderEntity.assign, assigned] at held
  cases found : fields.get "amountMinor" with
  | none =>
    rw [found] at held
    exact before.1 amountMinor held
  | some value =>
    rw [found, Option.bind_some] at held
    cases read : minorOf value with
    | none =>
      rw [read] at held
      exact before.1 amountMinor held
    | some written =>
      rw [read, Option.map_some, Option.getD_some, Option.some.injEq] at held
      subst held
      exact writes "amountMinor" written (by rw [found, Option.bind_some, read])

/-! ## Statements -/

/-- The other tables have nothing that could be out of range. -/
theorem writeOther {change : Store → Store} (inbox : ∀ s, (change s).rawIncomingEvents = s.rawIncomingEvents)
    (orders : ∀ s, (change s).orders = s.orders) : Writable (Tx.write change) := by
  refine .write fun s storable => ⟨?_, ?_⟩
  · rw [inbox]
    exact storable.deliveries
  · rw [orders]
    exact storable.orders

theorem saveDecision (make : ℕ → EventDecisionEntity) (names : ∀ n, Serial.id (make n) = n) :
    Writable (Statement.saveDecision make names) := by
  refine .tryWrite fun s s' storable saved => ?_
  split at saved
  · cases saved
  · obtain rfl := Except.ok.inj saved
    exact ⟨storable.deliveries, storable.orders⟩

/-- A delivery is written with its text as it was. -/
theorem updateRawIncomingEvent (id : ℕ) (change : RawIncomingEventEntity → RawIncomingEventEntity)
    (keeps : ∀ row, Serial.id (change row) = Serial.id row)
    (text : ∀ row, (change row).rawEventJson = row.rawEventJson) (dated : ∀ row, Dated (change row).availableAt) :
    Writable (Statement.updateRawIncomingEvent id change keeps) := by
  refine .write fun s storable => ⟨fun probe row found => ?_, storable.orders⟩
  rw [SerialTable.find_modify, Option.map_eq_some_iff] at found
  obtain ⟨before, held, rfl⟩ := found
  have deliverable := storable.deliveries probe before held
  split
  · exact ⟨dated before, fun event valid => deliverable.amounts event (validate_congr (text before) ▸ valid)⟩
  · exact deliverable

theorem saveOrder {row : OrderEntity} (upTo : ColumnsUpTo maxValue row) : Writable (Statement.saveOrder row) := by
  refine .write fun s storable => ⟨storable.deliveries, fun probe order found => ?_⟩
  rw [KeyedTable.find_save] at found
  split at found
  · obtain rfl := Option.some.inj found
    exact upTo
  · exact storable.orders probe order found

theorem updateOrder (orderId : String) {fields : JsonObject} (writes : Writes fields) (updatedAt : Time) :
    Writable (Statement.updateOrder orderId fields updatedAt) := by
  refine .write fun s storable => ⟨storable.deliveries, fun probe order found => ?_⟩
  simp only [KeyedTable.update, Function.update_apply] at found
  split at found
  · obtain ⟨before, held, rfl⟩ := Option.map_eq_some_iff.mp found
    exact columnsUpTo_assign (storable.orders _ before held) writes updatedAt
  · exact storable.orders probe order found

/-! ## Writing a decision -/

theorem incrementStats (decision : EngineDecision) (processingTimeMs : ℤ) (updatedAt : Time) :
    Writable (EventDecisionWriter.incrementStats decision processingTimeMs updatedAt) := by
  refine .read_bind fun s _ => ?_
  cases s.stats with
  | none => exact .throw _
  | some stats => exact writeOther (fun _ => rfl) fun _ => rfl

theorem writeFinalDecision (input : FinalDecisionInput) {createdAt : Time} (dated : Dated createdAt) :
    Writable (EventDecisionWriter.writeFinalDecision input createdAt) :=
  .bind (saveDecision _ _) fun _ _ =>
    .bind (updateRawIncomingEvent _ _ _ (fun _ => rfl) fun _ => dated) fun _ _ => incrementStats _ _ _

theorem writeFailedDecision (delivery : RawIncomingEventEntity) (errorMessage : String) (processingTimeMs : ℤ)
    {createdAt : Time} (dated : Dated createdAt) :
    Writable (EventDecisionWriter.writeFailedDecision delivery errorMessage processingTimeMs createdAt) :=
  .bind (saveDecision _ _) fun _ _ =>
    .bind (updateRawIncomingEvent _ _ _ (fun _ => rfl) fun _ => dated) fun _ _ => incrementStats _ _ _

theorem markRetryableFailure (delivery : RawIncomingEventEntity) (errorMessage : String) {nextAvailableAt : Time}
    (dated : Dated nextAvailableAt) :
    Writable (EventDecisionWriter.markRetryableFailure delivery errorMessage nextAvailableAt) :=
  updateRawIncomingEvent _ _ _ (fun _ => rfl) fun _ => dated

/-! ## Services -/

/-- What a handler is given is in range. -/
structure InRange (context : OrderEventHandlingContext) : Prop where
  order : ∀ order, context.order = some order → ColumnsUpTo maxValue order
  event : EventUpTo maxValue context.event
  host : OnTime context.host

variable {context : OrderEventHandlingContext}

theorem accept (inRange : InRange context) (fromStatus : Option OrderStatus) (toStatus : OrderStatus)
    (changedFields : JsonObject) :
    Writable (OrderApplicationDecision.accept context fromStatus toStatus changedFields) :=
  writeFinalDecision _ inRange.host.now

theorem reject (inRange : InRange context) (reasonCode : ReasonCode) (reasonMessage : String)
    (skippedFields : JsonObject) (finalAttemptCount : Option ℕ) :
    Writable (OrderApplicationDecision.reject context reasonCode reasonMessage skippedFields finalAttemptCount) :=
  writeFinalDecision _ inRange.host.now

theorem retryOrReject (inRange : InRange context) (reasonCode : ReasonCode) (reasonMessage : String)
    (skippedFields : JsonObject) :
    Writable (OrderApplicationDecision.retryOrReject context reasonCode reasonMessage skippedFields) := by
  unfold OrderApplicationDecision.retryOrReject
  simp only
  split
  · exact reject inRange _ _ _ _
  · exact markRetryableFailure _ _ inRange.host.nextAvailableAt

theorem upsertFieldVersion (context : OrderEventHandlingContext) (fieldName : OrderVersionedField) :
    Writable (EventEngine.upsertFieldVersion context fieldName) :=
  writeOther (fun _ => rfl) fun _ => rfl

theorem canApplyField (orderId : String) (fieldName : OrderVersionedField) (timestamp : ℚ) :
    Writable (OrderFieldVersion.canApplyField orderId fieldName timestamp) := by
  refine .read_bind fun s _ => ?_
  cases s.orderFieldVersions.find (orderId, fieldName) <;> exact .done trivial

theorem writeFieldVersions (context : OrderEventHandlingContext) (amountMinor : Option ℤ) (currency : Option String) :
    Writable (OrderCreationApplication.writeFieldVersions context amountMinor currency) := by
  have currency : Writable (if currency.isSome then EventEngine.upsertFieldVersion context .currency else pure ()) := by
    split
    · exact upsertFieldVersion context _
    · exact .done trivial
  refine .bind (upsertFieldVersion context _) fun _ _ => ?_
  simp only
  split
  · exact .bind (upsertFieldVersion context _) fun _ _ => currency
  · exact currency

theorem createOrder (inRange : InRange context) (type : context.event.type = .orderCreated) :
    Writable (OrderCreationApplication.createOrder context) := by
  have nothing : UpTo maxValue 0 := ⟨le_rfl, by decide +kernel⟩
  have upTo : ColumnsUpTo maxValue (OrderCreationApplication.createdOrder context.event context.host.now) :=
    ⟨fun _ read => upTo_of_nonNegative inRange.event (Or.inl type) read, nothing, nothing⟩
  exact .bind (saveOrder upTo) fun _ _ => .bind (writeFieldVersions context _ _) fun _ _ => accept inRange _ _ _

/-- The loop patches what the changes ask for. -/
theorem mergeChanges (changes : List VersionedFieldChange)
    (upTo : ∀ change ∈ changes, ∀ amountMinor, minorOf change.value = some amountMinor → UpTo maxValue amountMinor)
    {merge : OrderUpdateApplication.Merge} (writes : Writes merge.orderPatch) :
    Writable (OrderUpdateApplication.mergeChanges context changes merge) fun merge' => Writes merge'.orderPatch := by
  induction changes generalizing merge with
  | nil => exact .done writes
  | cons change rest ih =>
    have ih := @ih fun later member => upTo later (List.mem_cons_of_mem _ member)
    refine .bind (canApplyField _ _ _) fun fresh _ => ?_
    cases fresh with
    | true =>
      exact .bind (upsertFieldVersion context _) fun _ _ => ih (writes_set writes (upTo change List.mem_cons_self))
    | false => exact ih writes

theorem readOrderUpdateChanges_upTo {event : ValidOrderEvent} (upTo : EventUpTo maxValue event)
    (type : event.type = .orderUpdated) : ∀ change ∈ readOrderUpdateChanges event.payload, ∀ amountMinor,
      minorOf change.value = some amountMinor → UpTo maxValue amountMinor := by
  intro change member amountMinor written
  rcases List.mem_append.mp member with amount | currency
  · obtain ⟨read, found, rfl⟩ := Option.map_eq_some_iff.mp (Option.mem_toList.mp amount)
    rw [minorOf_minor, Option.some.injEq] at written
    subst written
    exact upTo_of_nonNegative upTo (Or.inr (Or.inl type)) found
  · obtain ⟨text, -, rfl⟩ := Option.map_eq_some_iff.mp (Option.mem_toList.mp currency)
    cases written

theorem updateOrderFields (inRange : InRange context) (type : context.event.type = .orderUpdated) :
    Writable (OrderUpdateApplication.updateOrderFields context) := by
  unfold OrderUpdateApplication.updateOrderFields
  split
  · exact retryOrReject inRange _ _ _
  · refine .bind (mergeChanges _ (readOrderUpdateChanges_upTo inRange.event type) writes_nil) fun merge writes => ?_
    simp only
    split
    · exact reject inRange _ _ _ _
    · exact .bind (updateOrder _ writes _) fun _ _ => writeFinalDecision _ inRange.host.now

theorem applyStatusWhenCurrent (inRange : InRange context) (toStatus : OrderStatus) {changedFields : JsonObject}
    (writes : Writes changedFields) :
    Writable (OrderLifecycleApplication.applyStatusWhenCurrent context toStatus changedFields) := by
  refine .bind (canApplyField _ _ _) fun fresh _ => ?_
  cases fresh with
  | true =>
    exact .bind (updateOrder _ writes _) fun _ _ => .bind (upsertFieldVersion context _) fun _ _ =>
      accept inRange _ _ _
  | false => exact reject inRange _ _ _ _

theorem applyRefund (inRange : InRange context) (toStatus : OrderStatus) {changedFields : JsonObject}
    (writes : Writes changedFields) :
    Writable (OrderLifecycleApplication.applyRefund context toStatus changedFields) := by
  refine .bind (updateOrder _ writes _) fun _ _ => .bind (canApplyField _ _ _) fun fresh _ => ?_
  cases fresh with
  | true => exact .bind (upsertFieldVersion context _) fun _ _ => accept inRange _ _ _
  | false => exact accept inRange _ _ _

/-- A status is written beside an amount, or alone. -/
theorem writes_status (status : OrderStatus) : Writes [("status", .status status)] := by
  intro name amountMinor written
  rw [JsonObject.get_cons] at written
  split at written <;> cases written

theorem writes_money (column : String) {amountMinor : ℤ} (upTo : UpTo maxValue amountMinor) (status : OrderStatus) :
    Writes [(column, .minor amountMinor), ("status", .status status)] := by
  intro name written found
  rw [JsonObject.get_cons] at found
  split at found
  · rw [Option.bind_some, minorOf_minor, Option.some.injEq] at found
    rwa [← found]
  · exact writes_status status name written found

theorem capturePayment (inRange : InRange context) (type : context.event.type = .paymentCaptured) :
    Writable (OrderLifecycleApplication.capturePayment context) := by
  unfold OrderLifecycleApplication.capturePayment
  split
  · exact retryOrReject inRange _ _ _
  · split
    · exact reject inRange _ _ _ _
    · rename_i amountMinor read
      split
      · exact reject inRange _ _ _ _
      · have most := inRange.event (Or.inr (Or.inr type)) amountMinor (readAmountMinor_of_positive read)
        exact applyStatusWhenCurrent inRange _ (writes_money _ ⟨(readPositiveAmountMinor_pos read).le, most⟩ _)

theorem cancelOrder (inRange : InRange context) : Writable (OrderLifecycleApplication.cancelOrder context) := by
  unfold OrderLifecycleApplication.cancelOrder
  split
  · exact retryOrReject inRange _ _ _
  · exact applyStatusWhenCurrent inRange _ (writes_status _)

/-- What is refunded is at most what was paid. -/
theorem issueRefund (inRange : InRange context) : Writable (OrderLifecycleApplication.issueRefund context) := by
  unfold OrderLifecycleApplication.issueRefund
  split
  · exact retryOrReject inRange _ _ _
  · rename_i order present
    split
    · exact reject inRange _ _ _ _
    · rename_i refundAmountMinor read
      split
      · exact reject inRange _ _ _ _
      · rename_i covered
        obtain ⟨-, ⟨-, paid⟩, ⟨refunded, -⟩⟩ := inRange.order order present
        have positive := readRefundAmountMinor_pos read
        unfold OrderLifecycleApplication.refundableAmountMinor at covered
        exact applyRefund inRange _ (writes_money _ ⟨by omega, by omega⟩ _)

/-- Whatever the status and the event type, the handler's writes can be written. -/
theorem handle (inRange : InRange context) {status : OrderStatus} {handler : OrderEventHandler}
    (selected : createOrderEventHandler status = .ok handler) : Writable (handler.handle context) := by
  have waits := fun message => retryOrReject inRange .orderNotReady message []
  have refused := fun reasonCode message => reject inRange reasonCode message [] none
  unfold OrderEventHandler.handle
  cases status with
  | doesNotExist =>
    obtain rfl : nonExistentOrderEventHandler = handler := Except.ok.inj selected
    cases type : context.event.type with
    | orderCreated => exact createOrder inRange type
    | orderUpdated | paymentCaptured | orderCancelled | refundIssued => exact waits _
  | created =>
    obtain rfl : orderCreatedEventHandler = handler := Except.ok.inj selected
    cases type : context.event.type with
    | orderCreated | refundIssued => exact refused _ _
    | orderUpdated => exact updateOrderFields inRange type
    | paymentCaptured => exact capturePayment inRange type
    | orderCancelled => exact cancelOrder inRange
  | cancelled =>
    obtain rfl : orderCancelledEventHandler = handler := Except.ok.inj selected
    cases type : context.event.type with
    | orderCreated | paymentCaptured | orderCancelled | refundIssued => exact refused _ _
    | orderUpdated => exact updateOrderFields inRange type
  | paid | partiallyRefunded | refunded =>
    obtain rfl : capturedOrderEventHandler = handler := Except.ok.inj selected
    cases type : context.event.type with
    | orderCreated | orderCancelled => exact refused _ _
    | orderUpdated => exact updateOrderFields inRange type
    | paymentCaptured => exact capturePayment inRange type
    | refundIssued => exact issueRefund inRange

/-! ## The two transactions -/

theorem claimEventId (eventId : String) (id : ℕ) : Writable (EventEngine.claimEventId eventId id) := by
  refine .read_bind fun s _ => ?_
  cases s.processedEventKeys.find eventId with
  | some existingKey => exact .done trivial
  | none => exact .bind (writeOther (fun _ => rfl) fun _ => rfl) fun _ _ => .done trivial

theorem processEventTransaction {event : RawIncomingEventEntity} (deliverable : Deliverable event) {host : Host}
    (onTime : OnTime host) : Writable (EventEngine.processEventTransaction event host) := by
  refine .read_bind fun s _ => ?_
  cases s.decisionOf event.id with
  | some _ => exact .done trivial
  | none =>
    cases known : validate event with
    | invalid reasonCode reasonMessage => exact writeFinalDecision _ onTime.now
    | valid valid =>
      refine .bind (claimEventId valid.eventId event.id) fun claimed _ => ?_
      cases claimed with
      | false => exact writeFinalDecision _ onTime.now
      | true =>
        refine .read_bind fun s storable => ?_
        simp only
        split
        · exact .throw _
        · rename_i handler selected
          exact handle ⟨storable.orders _, deliverable.amounts valid known, onTime⟩ selected

theorem handleUnexpectedFailure (event : RawIncomingEventEntity) (errorMessage : String) {host : Host}
    (onTime : OnTime host) : Writable (EventEngine.handleUnexpectedFailure event errorMessage host) := by
  refine .read_bind fun s _ => ?_
  cases s.rawIncomingEvents.find event.id with
  | none => exact .done trivial
  | some latest =>
    simp only
    split
    · exact writeFailedDecision _ _ _ onTime.now
    · exact markRetryableFailure _ _ onTime.nextAvailableAt

/-! ## The server -/

open AwaitPoints

/-- An action that asks for nothing out of range: it posts finite amounts, and
the times it reads, and sets, have dates. -/
def Ordinary : AwaitPoints.Action → Prop
  | .enqueueBatch items receivedAt => Dated receivedAt ∧ ∀ item ∈ items, ItemUpTo maxValue item
  | .resumes _ host => OnTime host
  | .onModuleInit | .handlePollingInterval | .throws _ _ => True

/-- What remains of a transaction can be written, and so can what its rollback
returns to. -/
structure Resumable (transaction : OpenTransaction) : Prop where
  program : Writable transaction.program
  rollback : Storable transaction.rollback

def PollInRange : AwaitPoints.Poll → Prop
  | .finding => True
  | .filtering events | .looping events => ∀ event ∈ events, Deliverable event
  | .calling event rest attempt => (∀ queued ∈ event :: rest, Deliverable queued) ∧
      ∀ transaction, attempt.open? = some transaction → Resumable transaction

structure ServerInRange (server : Server) : Prop where
  store : Storable server.store
  polls : ∀ poll ∈ server.polls, PollInRange poll

variable {server server' : Server} {transaction : OpenTransaction} {s s' : Store} {index : ℕ}

/-- A statement that is executed leaves a store, and a rest, that can be written. -/
theorem resumed (resumable : Resumable transaction) (storable : Storable s) {next : Option OpenTransaction}
    (ran : transaction.resume s = .ok (next, s')) :
    Storable s' ∧ ∀ transaction', next = some transaction' → Resumable transaction' := by
  unfold OpenTransaction.resume at ran
  split at ran
  · obtain ⟨rfl, rfl⟩ := Prod.mk.inj (Except.ok.inj ran)
    exact ⟨storable, fun _ none => by cases none⟩
  · cases ran
  · rename_i exec next remaining
    have program := resumable.program
    rw [remaining] at program
    split at ran
    · rename_i reply t done
      obtain ⟨rfl, rfl⟩ := Prod.mk.inj (Except.ok.inj ran)
      obtain ⟨kept, rest⟩ := program s storable reply t done
      refine ⟨kept, fun transaction' same => ?_⟩
      obtain rfl := Option.some.inj same
      exact ⟨rest, resumable.rollback⟩
    · cases ran

theorem inRange_goOn (inRange : ServerInRange server) (storable : Storable s) {poll : AwaitPoints.Poll}
    (pollInRange : PollInRange poll) : ServerInRange (server.goOn index poll s) := by
  refine ⟨storable, fun other member => ?_⟩
  rcases List.mem_or_eq_of_mem_set member with before | rfl
  · exact inRange.polls other before
  · exact pollInRange

theorem inRange_endPoll (inRange : ServerInRange server) (storable : Storable s) :
    ServerInRange (server.endPoll index s) :=
  ⟨storable, fun poll member => inRange.polls poll (List.mem_of_mem_eraseIdx member)⟩

theorem inRange_enqueueBatch (inRange : ServerInRange server) {items : List JsonValue} {receivedAt : Time}
    (ordinary : Ordinary (.enqueueBatch items receivedAt)) {joins : Bool}
    (taken : AwaitPoints.step joins server (.enqueueBatch items receivedAt) = some server') : ServerInRange server' := by
  obtain rfl := Option.some.inj taken
  refine ⟨storable_enqueueBatch inRange.store ordinary.1 ordinary.2, ?_⟩
  cases joins with
  | true => exact inRange.polls
  | false =>
    intro poll member
    obtain ⟨before, held, rfl⟩ := List.mem_map.mp member
    have kept := inRange.polls before held
    cases before with
    | finding | filtering | looping => exact kept
    | calling event rest attempt =>
      cases attempt with
      | starting | caught => exact kept
      | processing transaction | recording transaction =>
        refine ⟨kept.1, fun other same => ?_⟩
        obtain rfl := Option.some.inj same
        have resumable := kept.2 transaction rfl
        exact ⟨resumable.program, storable_enqueueBatch resumable.rollback ordinary.1 ordinary.2⟩

/-- A call whose transaction has executed one more statement. -/
theorem inRange_advance (inRange : ServerInRange server) {event : RawIncomingEventEntity}
    {rest : List RawIncomingEventEntity} (deliverable : ∀ queued ∈ event :: rest, Deliverable queued)
    (resumable : Resumable transaction) {next : OpenTransaction} {attempt : Attempt} (opened : attempt.open? = some next)
    (ran : transaction.resume server.store = .ok (some next, s)) :
    ServerInRange (server.goOn index (.calling event rest attempt) s) := by
  obtain ⟨storable, later⟩ := resumed resumable inRange.store ran
  refine inRange_goOn inRange storable ⟨deliverable, fun other same => ?_⟩
  rw [opened] at same
  exact later other same

theorem inRange_resume (inRange : ServerInRange server) {poll : AwaitPoints.Poll} (pollInRange : PollInRange poll)
    {host : Host} (onTime : OnTime host) : ServerInRange (server.resume index host poll) := by
  have store := inRange.store
  cases poll with
  | finding =>
    refine inRange_goOn inRange store fun event member => ?_
    have held := (mem_findPendingOrRetry.mp member).1
    exact store.deliveries event.id event (server.store.rawIncomingEvents.find_self held)
  | filtering events =>
    exact inRange_goOn inRange store fun event member => pollInRange event (List.mem_of_mem_filter member)
  | looping events =>
    cases events with
    | nil => exact inRange_endPoll inRange store
    | cons event rest => exact inRange_goOn inRange store ⟨pollInRange, fun _ none => by cases none⟩
  | calling event rest attempt =>
    obtain ⟨deliverable, resumable⟩ := pollInRange
    have later : ∀ queued ∈ rest, Deliverable queued := fun queued member => deliverable queued (.tail _ member)
    cases attempt with
    | starting =>
      refine inRange_goOn inRange store ⟨deliverable, fun _ same => ?_⟩
      obtain rfl := Option.some.inj same
      exact ⟨processEventTransaction (deliverable event List.mem_cons_self) onTime, store⟩
    | caught errorMessage =>
      refine inRange_goOn inRange store ⟨deliverable, fun _ same => ?_⟩
      obtain rfl := Option.some.inj same
      exact ⟨handleUnexpectedFailure event errorMessage onTime, store⟩
    | processing transaction =>
      simp only [Server.resume]
      split
      · rename_i ran
        exact inRange_advance inRange deliverable (resumable transaction rfl) rfl ran
      · rename_i ran
        exact inRange_goOn inRange (resumed (resumable transaction rfl) store ran).1 later
      · exact inRange_goOn inRange (resumable transaction rfl).rollback ⟨deliverable, fun _ none => by cases none⟩
    | recording transaction =>
      simp only [Server.resume]
      split
      · rename_i ran
        exact inRange_advance inRange deliverable (resumable transaction rfl) rfl ran
      · rename_i ran
        exact inRange_goOn inRange (resumed (resumable transaction rfl) store ran).1 later
      · exact inRange_endPoll inRange (resumable transaction rfl).rollback

theorem inRange_interrupt (inRange : ServerInRange server) {poll : AwaitPoints.Poll} (pollInRange : PollInRange poll)
    {errorMessage : String} (thrown : server.interrupt index errorMessage poll = some server') :
    ServerInRange server' := by
  cases poll with
  | filtering | looping => cases thrown
  | finding =>
    obtain rfl := Option.some.inj thrown
    exact inRange_endPoll inRange inRange.store
  | calling event rest attempt =>
    obtain ⟨deliverable, resumable⟩ := pollInRange
    cases attempt with
    | starting =>
      obtain rfl := Option.some.inj thrown
      exact inRange_goOn inRange inRange.store ⟨deliverable, fun _ none => by cases none⟩
    | caught =>
      obtain rfl := Option.some.inj thrown
      exact inRange_endPoll inRange inRange.store
    | processing transaction =>
      obtain rfl := Option.some.inj thrown
      exact inRange_goOn inRange (resumable transaction rfl).rollback ⟨deliverable, fun _ none => by cases none⟩
    | recording transaction =>
      obtain rfl := Option.some.inj thrown
      exact inRange_endPoll inRange (resumable transaction rfl).rollback

theorem inRange_step {joins : Bool} {action : AwaitPoints.Action} (inRange : ServerInRange server)
    (ordinary : Ordinary action) (taken : AwaitPoints.step joins server action = some server') :
    ServerInRange server' := by
  cases action with
  | enqueueBatch => exact inRange_enqueueBatch inRange ordinary taken
  | onModuleInit | handlePollingInterval =>
    obtain rfl := Option.some.inj taken
    unfold Server.pollPendingOrRetryEvents
    split
    · exact inRange
    · refine ⟨inRange.store, fun poll member => ?_⟩
      rcases List.mem_append.mp member with before | new
      · exact inRange.polls poll before
      · rw [List.mem_singleton.mp new]
        trivial
  | resumes index host =>
    obtain ⟨poll, found, rfl⟩ := Option.map_eq_some_iff.mp taken
    exact inRange_resume inRange (inRange.polls poll (List.mem_of_getElem? found)) ordinary
  | throws index errorMessage =>
    obtain ⟨poll, found, thrown⟩ := Option.bind_eq_some_iff.mp taken
    exact inRange_interrupt inRange (inRange.polls poll (List.mem_of_getElem? found)) thrown

/-- **Nothing out of range is ever written** unless it is asked for. -/
theorem inRange_run {joins : Bool} {now : Time} {actions : List AwaitPoints.Action}
    (run : Run (AwaitPoints.step joins) (.started now) actions server) (ordinary : ∀ action ∈ actions, Ordinary action) :
    ServerInRange server := by
  refine run.invariant ordinary ?_ fun _ _ _ before permitted taken => inRange_step before permitted taken
  refine ⟨⟨fun id row found => ?_, fun orderId order found => ?_⟩, fun poll member => ?_⟩
  · cases found
  · cases found
  · cases member

end EventEngine.Ranges
