import EventEngine.Deduplication

/-! What an engine knows, whatever the clock has put into it: the orders and
their versions without the times of their rows, and which events are claimed.
An item acts on that, and is reported on, in a way that depends on nothing
else: not on when it came, nor on the number of its delivery. -/
namespace EventEngine
open Relational OrderLifecycleApplication

/-! ## Without the times -/

def OrderEntity.untimed (order : OrderEntity) : OrderEntity := { order with createdAt := 0, updatedAt := 0 }

def OrderView.untimed (view : OrderView) : OrderView := { view with order := view.order.map (·.untimed) }

def Application.untimed (application : Application) : Application :=
  { application with order := application.order.untimed }

def Verdict.untimed : Verdict → Verdict
  | .applied application => .applied application.untimed
  | verdict => verdict

@[simp] theorem version_untimed (view : OrderView) : view.untimed.version = view.version := rfl

@[simp] theorem status_untimed (order : OrderEntity) : order.untimed.status = order.status := rfl

@[simp] theorem paidAmountMinor_untimed (order : OrderEntity) :
    order.untimed.paidAmountMinor = order.paidAmountMinor := rfl

@[simp] theorem refundableAmountMinor_untimed (order : OrderEntity) :
    refundableAmountMinor order.untimed = refundableAmountMinor order := rfl

theorem judgeUpdate_untimed (view : OrderView) (order : OrderEntity) (event : ValidOrderEvent) (now : Time) :
    (judgeUpdate view order event now).untimed = judgeUpdate view.untimed order.untimed event 0 := by
  simp only [judgeUpdate, version_untimed, apply_ite Verdict.untimed]
  rfl

theorem judgeStatusChange_untimed (view : OrderView) (order : OrderEntity) (event : ValidOrderEvent) (now : Time)
    (toStatus : OrderStatus) (changedFields : JsonObject) :
    (judgeStatusChange view order event now toStatus changedFields).untimed =
      judgeStatusChange view.untimed order.untimed event 0 toStatus changedFields := by
  simp only [judgeStatusChange, version_untimed, apply_ite Verdict.untimed]
  rfl

theorem judgeCapture_untimed (view : OrderView) (order : OrderEntity) (event : ValidOrderEvent) (now : Time) :
    (judgeCapture view order event now).untimed = judgeCapture view.untimed order.untimed event 0 := by
  simp only [judgeCapture, paidAmountMinor_untimed]
  cases readPositiveAmountMinor event.payload "amount" with
  | none => rfl
  | some amountMinor =>
    simp only [apply_ite Verdict.untimed, judgeStatusChange_untimed]
    rfl

theorem judgeCancel_untimed (view : OrderView) (order : OrderEntity) (event : ValidOrderEvent) (now : Time) :
    (judgeCancel view order event now).untimed = judgeCancel view.untimed order.untimed event 0 :=
  judgeStatusChange_untimed ..

theorem judgeRefund_untimed (view : OrderView) (order : OrderEntity) (event : ValidOrderEvent) (now : Time) :
    (judgeRefund view order event now).untimed = judgeRefund view.untimed order.untimed event 0 := by
  simp only [judgeRefund, refundableAmountMinor_untimed, version_untimed]
  cases readRefundAmountMinor event.payload with
  | none => rfl
  | some amountMinor =>
    simp only [apply_ite Verdict.untimed]
    rfl

/-- **A verdict reads no clock**: the time it is given is only written down. -/
theorem judge_untimed (view : OrderView) (event : ValidOrderEvent) (now : Time) :
    (judge view event now).untimed = judge view.untimed event 0 := by
  obtain ⟨_ | order, version⟩ := view
  · cases type : event.type <;> simp only [judge, OrderView.untimed, Option.map_none, type] <;> rfl
  · cases type : event.type <;>
      simp only [judge, OrderView.untimed, Option.map_some, type, status_untimed, apply_ite Verdict.untimed,
        judgeUpdate_untimed, judgeCapture_untimed, judgeCancel_untimed, judgeRefund_untimed] <;> rfl

/-! ## Content and reports -/

/-- What an engine knows. -/
structure Content where
  view : String → OrderView
  claimed : String → Bool

def Store.content (s : Store) : Content where
  view orderId := (s.view orderId).untimed
  claimed eventId := (s.processedEventKeys.find eventId).isSome

/-- What a decision says, apart from which delivery it is about and when it
was made. -/
structure Ruling where
  decision : EngineDecision
  reasonCode : ReasonCode
  reasonMessage : String
  fromStatus : Option OrderStatus
  toStatus : Option OrderStatus
  changedFieldsJson : JsonText
  skippedFieldsJson : JsonText
  deriving Repr

def EventDecisionEntity.ruling (decision : EventDecisionEntity) : Ruling where
  decision := decision.decision
  reasonCode := decision.reasonCode
  reasonMessage := decision.reasonMessage
  fromStatus := decision.fromStatus
  toStatus := decision.toStatus
  changedFieldsJson := decision.changedFieldsJson
  skippedFieldsJson := decision.skippedFieldsJson

/-- What has become of a delivery. -/
structure Report where
  processingStatus : ProcessingStatus
  attempts : ℕ
  ruling : Option Ruling
  deriving Repr

def Store.report (s : Store) (rawIncomingEventId : ℕ) : Option Report :=
  (s.rawIncomingEvents.find rawIncomingEventId).map fun row =>
    ⟨row.processingStatus, row.attempts, (s.decisionOf rawIncomingEventId).map (·.ruling)⟩

/-- The report on a delivery decided at its first attempt. -/
def Report.decided (record : EventDecisionEntity) : Report := ⟨.done, 0, some record.ruling⟩

/-- The report on a delivery that its first attempt found too early. -/
def Report.waiting : Report := ⟨.retry, 1, none⟩

namespace Content

def claim (c : Content) (eventId : String) : Content :=
  { c with claimed := fun probe => probe == eventId || c.claimed probe }

def write (c : Content) (event : ValidOrderEvent) (application : Application) : Content :=
  { c with
    view := fun orderId =>
      if orderId = event.orderId then (c.view orderId).apply event application else c.view orderId }

/-- A verdict carried out on behalf of a delivery nobody has attempted yet. -/
def carryOut (c : Content) (delivery : RawIncomingEventEntity) (event : ValidOrderEvent) : Verdict → Content × Report
  | .notReady => (c, .waiting)
  | .rejected reasonCode reasonMessage skippedFields =>
    (c, .decided (rejection delivery (stoppedAt 0) (c.view event.orderId).order reasonCode reasonMessage skippedFields))
  | .applied application => (c.write event application, .decided (application.record delivery (stoppedAt 0)))

/-- The first attempt on an item, as if it were received and attempted at time
0 under the number 0. -/
def process (c : Content) (item : JsonValue) : Content × Report :=
  let delivery := createRawIncomingEvent item 0 0
  match validate delivery with
  | .invalid reasonCode reasonMessage => (c, .decided (invalidRecord delivery (stoppedAt 0) reasonCode reasonMessage))
  | .valid event =>
    if c.claimed event.eventId then (c, .decided (duplicateRecord delivery (stoppedAt 0)))
    else (c.claim event.eventId).carryOut delivery event (judge (c.view event.orderId) event 0)

end Content

/-! ## The first attempt on a delivery -/

variable {s s' : Store} {delivery : RawIncomingEventEntity} {host : Host}

theorem content_claim (s : Store) (eventId : String) (rawIncomingEventId : ℕ) :
    (s.claim eventId rawIncomingEventId).content = s.content.claim eventId := by
  have claimed : ∀ probe, ((s.claim eventId rawIncomingEventId).processedEventKeys.find probe).isSome =
      (probe == eventId || (s.processedEventKeys.find probe).isSome) := by
    intro probe
    rw [find_claim]
    by_cases same : probe = eventId <;> simp [same]
  simp only [Store.content, Content.claim, view_claim, claimed]

theorem content_write (s : Store) {event : ValidOrderEvent} {application : Application}
    (own : application.order.orderId = event.orderId) :
    (s.write event application).content = s.content.write event application.untimed := by
  have written : ∀ orderId, ((s.write event application).view orderId).untimed =
      if orderId = event.orderId then (s.view orderId).untimed.apply event application.untimed
      else (s.view orderId).untimed := by
    intro orderId
    rw [view_write _ _ _ own, apply_ite OrderView.untimed]
    rfl
  simp only [Store.content, Content.write, written]
  rfl

theorem report_settle {record : EventDecisionEntity} {row : RawIncomingEventEntity}
    (stored : s.rawIncomingEvents.find record.rawIncomingEventId = some row)
    (undecided : s.decisionOf record.rawIncomingEventId = none) (message : Option String) (count : Option ℕ) :
    (s.settle record message count).report record.rawIncomingEventId =
      some ⟨.done, count.getD row.attempts, some record.ruling⟩ := by
  rw [Store.report, findRow_settle, stored, decisionOf_settle_self _ _ _ _ undecided]
  simp only [Option.map_some, ↓reduceIte]
  rfl

theorem report_postpone (stored : s.rawIncomingEvents.find delivery.id = some delivery)
    (undecided : s.decisionOf delivery.id = none) (message : String) (nextAvailableAt : Time) :
    (s.postpone delivery message nextAvailableAt).report delivery.id = some ⟨.retry, delivery.attempts + 1, none⟩ := by
  rw [Store.report, findRow_postpone, stored, decisionOf_postpone, undecided]
  simp only [Option.map_some, ↓reduceIte]
  rfl

/-- A call reports on no other delivery. -/
theorem report_outcome (outcome : Outcome s delivery host s') {id : ℕ} (other : id ≠ delivery.id) :
    s'.report id = s.report id := by
  rw [Store.report, findRow_outcome outcome other, decisionOf_outcome outcome other, Store.report]

theorem carryOut_content (stored : s.rawIncomingEvents.find delivery.id = some delivery)
    (undecided : s.decisionOf delivery.id = none) (unattempted : delivery.attempts = 0) (host : Host)
    {event : ValidOrderEvent} {verdict : Verdict}
    (own : ∀ application, verdict = .applied application → application.order.orderId = event.orderId)
    (other : RawIncomingEventEntity) :
    (s.carryOut delivery event host verdict).content = (s.content.carryOut other event verdict.untimed).1 ∧
      (s.carryOut delivery event host verdict).report delivery.id =
        some (s.content.carryOut other event verdict.untimed).2 := by
  cases verdict with
  | notReady =>
    have again : ¬ OrderApplicationDecision.maxRetryableAttempts ≤ delivery.attempts + 1 := by
      rw [unattempted]
      decide
    simp only [Store.carryOut, again, ↓reduceIte]
    refine ⟨rfl, ?_⟩
    rw [report_postpone stored undecided, unattempted]
    rfl
  | rejected reasonCode reasonMessage skippedFields =>
    refine ⟨rfl, ?_⟩
    refine (report_settle stored undecided _ _).trans ?_
    rw [unattempted]
    cases order : (s.view event.orderId).order <;>
      simp [Content.carryOut, Verdict.untimed, Report.decided, EventDecisionEntity.ruling, rejection,
        FinalDecisionInput.record, Store.content, OrderView.untimed, order]
  | applied application =>
    refine ⟨content_write s (own application rfl), ?_⟩
    refine (report_settle stored undecided _ _).trans ?_
    rw [unattempted]
    rfl

/-- **The first attempt on a delivery does what its item does**, to what the
engine knows and in what becomes of the delivery. -/
theorem processed_content {item : JsonValue} (stored : s.rawIncomingEvents.find delivery.id = some delivery)
    (undecided : s.decisionOf delivery.id = none) (text : delivery.rawEventJson = stringify item)
    (unattempted : delivery.attempts = 0)
    (unclaimed : ∀ eventId key, s.processedEventKeys.find eventId = some key →
      key.firstRawIncomingEventId ≠ delivery.id) (host : Host) :
    (s.processed delivery host).content = (s.content.process item).1 ∧
      (s.processed delivery host).report delivery.id = some (s.content.process item).2 := by
  have same : validate (createRawIncomingEvent item 0 0) = validate delivery :=
    validate_congr ((createRawIncomingEvent_lifecycle item 0 0).2.2.trans text.symm)
  simp only [Content.process, same]
  cases valid : validate delivery with
  | invalid reasonCode reasonMessage =>
    rw [processed_of_invalid host undecided valid]
    refine ⟨rfl, ?_⟩
    refine (report_settle stored undecided _ _).trans ?_
    rw [unattempted]
    rfl
  | valid event =>
    cases held : s.processedEventKeys.find event.eventId with
    | some key =>
      have claimed : s.content.claimed event.eventId = true := by simp [Store.content, held]
      rw [processed_of_held host undecided valid held (unclaimed _ _ held)]
      simp only [claimed, ↓reduceIte]
      refine ⟨rfl, ?_⟩
      refine (report_settle stored undecided _ _).trans ?_
      rw [unattempted]
      rfl
    | none =>
      have claimed : s.content.claimed event.eventId = false := by simp [Store.content, held]
      have claimable : s.Claimable event delivery.id := by
        intro key found
        rw [held] at found
        cases found
      have own : ∀ application, judge (s.view event.orderId) event host.now = .applied application →
          application.order.orderId = event.orderId := fun application judged =>
        (accepts_of_judge judged).orderId fun _ found => orderId_of_view found
      rw [processed_of_claimable host undecided valid claimable, Store.judged, view_claim]
      simp only [claimed, Bool.false_eq_true, ↓reduceIte]
      have carried := @carryOut_content (s.claim event.eventId delivery.id) delivery stored undecided unattempted host
        event _ own (createRawIncomingEvent item 0 0)
      rwa [content_claim, judge_untimed] at carried

end EventEngine
