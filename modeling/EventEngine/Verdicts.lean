import EventEngine.Judgement

/-! What each verdict says. An event is accepted in one of five ways, and every
later fact about accepted events is a case analysis on those; a rejection and a
wait say what they leave unapplied. -/
namespace EventEngine
open OrderCreationApplication OrderUpdateApplication OrderLifecycleApplication

/-! ## The two set-like fields of an update -/

/-- The amount an update writes: the one it carries, when its field is older. -/
def freshAmount (view : OrderView) (event : ValidOrderEvent) : Option ℤ :=
  if isFresh (view.version .amountMinor) event.timestamp then readNonNegativeAmountMinor event.payload "amount"
  else none

/-- The currency an update writes. -/
def freshCurrency (view : OrderView) (event : ValidOrderEvent) : Option String :=
  if isFresh (view.version .currency) event.timestamp then readCurrency event.payload else none

/-- The record of the set-like fields that were written. -/
def writtenColumns (amountMinor : Option ℤ) (currency : Option String) : JsonObject :=
  (amountMinor.map fun amountMinor => ("amountMinor", JsonValue.minor amountMinor)).toList ++
    (currency.map fun currency => ("currency", JsonValue.string currency)).toList

/-- The versioned fields behind those columns. -/
def writtenVersions (amountMinor : Option ℤ) (currency : Option String) : List OrderVersionedField :=
  (if amountMinor.isSome then [.amountMinor] else []) ++ (if currency.isSome then [.currency] else [])

theorem buildChangedFields_eq (amountMinor : Option ℤ) (currency : Option String) :
    buildChangedFields amountMinor currency =
      ("status", .status .created) :: writtenColumns amountMinor currency := by
  cases amountMinor <;> cases currency <;> rfl

theorem createdFields_eq (event : ValidOrderEvent) :
    createdFields event = .status :: writtenVersions (readNonNegativeAmountMinor event.payload "amount")
      (readCurrency event.payload) := rfl

theorem writtenColumns_eq_nil (amountMinor : Option ℤ) (currency : Option String) :
    writtenColumns amountMinor currency = [] ↔ amountMinor = none ∧ currency = none := by
  cases amountMinor <;> cases currency <;> simp [writtenColumns]

@[simp] theorem status_not_mem_writtenVersions (amountMinor : Option ℤ) (currency : Option String) :
    OrderVersionedField.status ∉ writtenVersions amountMinor currency := by
  cases amountMinor <;> cases currency <;> simp [writtenVersions]

@[simp] theorem amountMinor_mem_writtenVersions (amountMinor : Option ℤ) (currency : Option String) :
    OrderVersionedField.amountMinor ∈ writtenVersions amountMinor currency ↔ amountMinor.isSome := by
  cases amountMinor <;> cases currency <;> simp [writtenVersions]

@[simp] theorem currency_mem_writtenVersions (amountMinor : Option ℤ) (currency : Option String) :
    OrderVersionedField.currency ∈ writtenVersions amountMinor currency ↔ currency.isSome := by
  cases amountMinor <;> cases currency <;> simp [writtenVersions]

/-- The update loop writes each fresh column, and patches the order with
exactly what it records. -/
theorem merge_written (view : OrderView) (event : ValidOrderEvent) :
    let merge := mergeAgainst view.version event.timestamp (readOrderUpdateChanges event.payload) {}
    merge.changedFields = writtenColumns (freshAmount view event) (freshCurrency view event) ∧
      merge.orderPatch = writtenColumns (freshAmount view event) (freshCurrency view event) := by
  unfold mergeAgainst readOrderUpdateChanges freshAmount freshCurrency
  cases readNonNegativeAmountMinor event.payload "amount" <;> cases readCurrency event.payload <;>
    simp only [Option.map_none, Option.map_some, Option.toList_none, Option.toList_some, List.append_nil,
      List.nil_append, List.cons_append, List.foldl_cons, List.foldl_nil]
  all_goals
    generalize isFresh (view.version .amountMinor) event.timestamp = amountFresh
    generalize isFresh (view.version .currency) event.timestamp = currencyFresh
    cases amountFresh <;> cases currencyFresh <;> exact ⟨rfl, rfl⟩

theorem appliedFields_written (view : OrderView) (event : ValidOrderEvent) :
    appliedFields view.version event.timestamp (readOrderUpdateChanges event.payload) =
      writtenVersions (freshAmount view event) (freshCurrency view event) := by
  unfold appliedFields readOrderUpdateChanges freshAmount freshCurrency writtenVersions
  cases amountFresh : isFresh (view.version .amountMinor) event.timestamp <;>
    cases currencyFresh : isFresh (view.version .currency) event.timestamp <;>
    cases readNonNegativeAmountMinor event.payload "amount" <;> cases readCurrency event.payload <;>
    simp [amountFresh, currencyFresh]

/-- The row after its set-like columns are written. -/
def OrderEntity.overwrite (order : OrderEntity) (amountMinor : Option ℤ) (currency : Option String)
    (updatedAt : Time) : OrderEntity :=
  { order with
    amountMinor := amountMinor.or order.amountMinor, currency := currency.or order.currency, updatedAt }

theorem assign_writtenColumns (order : OrderEntity) (amountMinor : Option ℤ) (currency : Option String)
    (updatedAt : Time) :
    order.assign (writtenColumns amountMinor currency) updatedAt = order.overwrite amountMinor currency updatedAt := by
  cases amountMinor <;> cases currency <;>
    simp [OrderEntity.assign, OrderEntity.overwrite, assigned, writtenColumns]

/-! ## Accepted events -/

/-- The five ways an event is accepted. -/
inductive Accepts (view : OrderView) (event : ValidOrderEvent) (now : Time) : Application → Prop where
  | created (absent : view.order = none) (type : event.type = .orderCreated) :
      Accepts view event now (creation event now)
  | updated {order : OrderEntity} {decision : EngineDecision} {reasonCode : ReasonCode} {reasonMessage : String}
      {skippedFields : JsonObject} (present : view.order = some order) (type : event.type = .orderUpdated)
      (merged : decision = .accepted ∨ decision = .partiallyApplied)
      (applicable : (freshAmount view event).isSome ∨ (freshCurrency view event).isSome) :
      Accepts view event now
        { decision, reasonCode, reasonMessage, skippedFields
          order := order.overwrite (freshAmount view event) (freshCurrency view event) now
          stamped := writtenVersions (freshAmount view event) (freshCurrency view event)
          fromStatus := some order.status, toStatus := order.status
          changedFields := writtenColumns (freshAmount view event) (freshCurrency view event) }
  | captured {order : OrderEntity} {amountMinor : ℤ} (present : view.order = some order)
      (type : event.type = .paymentCaptured) (open' : order.status ≠ .cancelled)
      (read : readPositiveAmountMinor event.payload "amount" = some amountMinor)
      (unpaid : order.paidAmountMinor ≤ 0) :
      Accepts view event now (.accepted
        { order with status := .paid, paidAmountMinor := amountMinor, updatedAt := now } [.status]
        (some order.status) .paid [("paidAmountMinor", .minor amountMinor), ("status", .status .paid)])
  | cancelled {order : OrderEntity} (present : view.order = some order) (type : event.type = .orderCancelled)
      (open' : order.status = .created) :
      Accepts view event now (.accepted { order with status := .cancelled, updatedAt := now } [.status]
        (some order.status) .cancelled [("status", .status .cancelled)])
  | refunded {order : OrderEntity} {amountMinor : ℤ} (present : view.order = some order)
      (type : event.type = .refundIssued) (captured : order.status ≠ .created ∧ order.status ≠ .cancelled)
      (read : readRefundAmountMinor event.payload = some amountMinor)
      (covered : order.refundedAmountMinor + amountMinor ≤ order.paidAmountMinor) :
      Accepts view event now (.accepted
        { order with
          status := refundStatus order (order.refundedAmountMinor + amountMinor)
          refundedAmountMinor := order.refundedAmountMinor + amountMinor, updatedAt := now }
        (if isFresh (view.version .status) event.timestamp then [.status] else [])
        (some order.status) (refundStatus order (order.refundedAmountMinor + amountMinor))
        (refundedFields order (order.refundedAmountMinor + amountMinor)))

variable {view : OrderView} {event : ValidOrderEvent} {now : Time} {order : OrderEntity}

namespace Accepts
variable {application : Application}

theorem decision (accepts : Accepts view event now application) :
    application.decision = .accepted ∨ application.decision = .partiallyApplied := by
  cases accepts with
  | updated _ _ merged _ => exact merged
  | created | captured | cancelled | refunded => exact Or.inl rfl

/-- The row is left in the status the record says it went to. -/
theorem status (accepts : Accepts view event now application) :
    application.order.status = application.toStatus := by
  cases accepts <;> rfl

/-- The record says which status the row was in. -/
theorem fromStatus (accepts : Accepts view event now application) :
    application.fromStatus = view.order.map (·.status) := by
  cases accepts with
  | created absent => rw [absent]; rfl
  | updated present | captured present | cancelled present | refunded present => rw [present]; rfl

/-- An application writes the row of the event's own order. -/
theorem orderId (accepts : Accepts view event now application)
    (own : ∀ order, view.order = some order → order.orderId = event.orderId) :
    application.order.orderId = event.orderId := by
  cases accepts with
  | created => rfl
  | updated present | captured present | cancelled present | refunded present =>
    have named := own _ present
    exact named

theorem persisted (accepts : Accepts view event now application) (persisted : view.Persisted) :
    application.order.status ≠ .doesNotExist := by
  cases accepts with
  | created | captured | cancelled => exact fun absurd => by cases absurd
  | updated present =>
    have real := persisted _ present
    exact real
  | refunded =>
    simp only [Application.accepted, refundStatus]
    split <;> simp

end Accepts

theorem accepts_of_judgeUpdate {application : Application} (present : view.order = some order)
    (type : event.type = .orderUpdated) (judged : judgeUpdate view order event now = .applied application) :
    Accepts view event now application := by
  obtain ⟨changed, patched⟩ := merge_written view event
  simp only [judgeUpdate, changed, patched, appliedFields_written, assign_writtenColumns] at judged
  split at judged
  · cases judged
  · rename_i some_change
    have applicable : (freshAmount view event).isSome ∨ (freshCurrency view event).isSome := by
      rw [List.isEmpty_iff, writtenColumns_eq_nil] at some_change
      simp only [← Option.not_isSome_iff_eq_none] at some_change
      tauto
    cases judged
    exact .updated present type (ite_eq_or_eq _ _ _).symm applicable

theorem judgeStatusChange_applied {toStatus : OrderStatus} {changedFields : JsonObject} {application : Application}
    (judged : judgeStatusChange view order event now toStatus changedFields = .applied application) :
    application = .accepted (order.assign changedFields now) [.status] (some order.status) toStatus changedFields := by
  unfold judgeStatusChange at judged
  split at judged
  · exact (Verdict.applied.inj judged).symm
  · cases judged

theorem accepts_of_judgeCapture {application : Application} (present : view.order = some order)
    (type : event.type = .paymentCaptured) (open' : order.status ≠ .cancelled)
    (judged : judgeCapture view order event now = .applied application) : Accepts view event now application := by
  unfold judgeCapture at judged
  split at judged
  · cases judged
  · rename_i amountMinor read
    split at judged
    · cases judged
    · rename_i unpaid
      obtain rfl := judgeStatusChange_applied judged
      have capture : Accepts view event now _ := .captured present type open' read (not_lt.mp unpaid)
      simpa [OrderEntity.assign, assigned] using capture

theorem accepts_of_judgeCancel {application : Application} (present : view.order = some order)
    (type : event.type = .orderCancelled) (open' : order.status = .created)
    (judged : judgeCancel view order event now = .applied application) : Accepts view event now application := by
  obtain rfl := judgeStatusChange_applied judged
  have cancel : Accepts view event now _ := .cancelled present type open'
  simpa [OrderEntity.assign, assigned] using cancel

theorem accepts_of_judgeRefund {application : Application} (present : view.order = some order)
    (type : event.type = .refundIssued) (captured : order.status ≠ .created ∧ order.status ≠ .cancelled)
    (judged : judgeRefund view order event now = .applied application) : Accepts view event now application := by
  unfold judgeRefund at judged
  split at judged
  · cases judged
  · rename_i amountMinor read
    split at judged
    · cases judged
    · rename_i covered
      have covered : order.refundedAmountMinor + amountMinor ≤ order.paidAmountMinor := by
        unfold refundableAmountMinor at covered
        omega
      cases judged
      have refund : Accepts view event now _ := .refunded present type captured read covered
      simpa [OrderEntity.assign, assigned, refundedFields] using refund

/-- **An accepted event was accepted in one of the five ways.** -/
theorem accepts_of_judge {application : Application} (judged : judge view event now = .applied application) :
    Accepts view event now application := by
  unfold judge at judged
  cases present : view.order with
  | none =>
    cases type : event.type <;> simp only [present, type, reduceCtorEq] at judged
    case orderCreated =>
      obtain rfl := Verdict.applied.inj judged
      exact .created present type
  | some order =>
    cases type : event.type <;> simp only [present, type, reduceCtorEq] at judged
    case orderUpdated => exact accepts_of_judgeUpdate present type judged
    case paymentCaptured =>
      split at judged
      · cases judged
      · rename_i open'
        exact accepts_of_judgeCapture present type open' judged
    case orderCancelled =>
      split at judged
      · rename_i open'
        exact accepts_of_judgeCancel present type open' judged
      · cases judged
    case refundIssued =>
      split at judged
      · cases judged
      · rename_i captured
        exact accepts_of_judgeRefund present type (not_or.mp captured) judged

/-! ## Rejections and waits -/

/-- An event waits exactly when its order does not exist and it does not create it. -/
theorem judge_notReady : judge view event now = .notReady ↔ view.order = none ∧ event.type ≠ .orderCreated := by
  unfold judge
  cases present : view.order with
  | none => cases type : event.type <;> simp
  | some order =>
    cases type : event.type <;>
      simp only [reduceCtorEq, false_and, iff_false, judgeUpdate, judgeCapture, judgeCancel, judgeRefund,
        judgeStatusChange, forbidden]
    all_goals
      repeat' split
      all_goals simp

/-- What a rejection of a judged event implies. -/
structure Refusal (view : OrderView) (event : ValidOrderEvent) (reasonCode : ReasonCode) : Prop where
  present : view.order.isSome
  reason : reasonCode ≠ .orderNotReady
  unapplied : event.type = .orderUpdated → freshAmount view event = none ∧ freshCurrency view event = none

theorem refusal_of_judge {reasonCode : ReasonCode} {reasonMessage : String} {skippedFields : JsonObject}
    (judged : judge view event now = .rejected reasonCode reasonMessage skippedFields) :
    Refusal view event reasonCode := by
  cases present : view.order with
  | none =>
    unfold judge at judged
    cases type : event.type <;> simp [present, type] at judged
  | some order =>
    refine ⟨by rw [present]; rfl, ?_, ?_⟩
    · simp only [judge, present, judgeUpdate, judgeCapture, judgeCancel, judgeRefund, judgeStatusChange,
        forbidden] at judged
      repeat' split at judged
      all_goals cases judged
      all_goals simp
    · intro type
      obtain ⟨changed, -⟩ := merge_written view event
      simp only [judge, present, type, judgeUpdate, changed] at judged
      split at judged
      · rename_i nothing
        rw [List.isEmpty_iff, writtenColumns_eq_nil] at nothing
        exact nothing
      · cases judged

end EventEngine
