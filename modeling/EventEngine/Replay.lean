import EventEngine.Ledger

/-! Replaying the audit log. The recorded changes of an order, read back from
their text and overwritten one after the other, give the row stored for it. -/
namespace EventEngine.Replay
open EventEngine Relational

/-- The columns of an order that decisions record. -/
@[ext]
structure ReplayedOrder where
  status : Option OrderStatus
  amountMinor : Option ℤ
  currency : Option String
  paidAmountMinor : ℤ
  refundedAmountMinor : ℤ
  deriving DecidableEq, Repr

/-- An order before its first decision. -/
def ReplayedOrder.blank : ReplayedOrder := ⟨none, none, none, 0, 0⟩

/-- Overwrite the columns that a record names. -/
def ReplayedOrder.overwrite (order : ReplayedOrder) (changedFields : JsonObject) : ReplayedOrder where
  status := assigned changedFields "status" (fun value => (statusOf value).map some) order.status
  amountMinor := assigned changedFields "amountMinor" (fun value => (minorOf value).map some) order.amountMinor
  currency := assigned changedFields "currency" (fun value => (stringOf value).map some) order.currency
  paidAmountMinor := assigned changedFields "paidAmountMinor" minorOf order.paidAmountMinor
  refundedAmountMinor := assigned changedFields "refundedAmountMinor" minorOf order.refundedAmountMinor

/-- The records of a log, from a blank order on. -/
def replay (log : List LogEntry) : ReplayedOrder :=
  log.foldl (fun order entry => order.overwrite (parseJsonObject entry.1.changedFieldsJson)) .blank

/-- What a replay should give. -/
def columns : Option OrderEntity → ReplayedOrder
  | none => .blank
  | some order =>
    ⟨some order.status, order.amountMinor, order.currency, order.paidAmountMinor, order.refundedAmountMinor⟩

theorem finite_writtenColumns (amountMinor : Option ℤ) (currency : Option String) :
    FiniteFields (writtenColumns amountMinor currency) := by
  cases amountMinor <;> cases currency <;>
    simp [writtenColumns, FiniteFields, JsonValue.minor, JsonValue.FiniteNumbers]

variable {view : OrderView} {event : ValidOrderEvent} {now : Time} {application : Application}

/-- A record holds finite numbers only, so its text loses nothing. -/
theorem finite_changedFields (accepts : Accepts view event now application) :
    FiniteFields application.changedFields := by
  cases accepts with
  | created =>
    simp only [creation, Application.accepted, buildChangedFields_eq]
    exact ⟨trivial, finite_writtenColumns _ _⟩
  | updated => exact finite_writtenColumns _ _
  | captured | refunded => exact ⟨trivial, trivial, trivial⟩
  | cancelled => exact ⟨trivial, trivial⟩

theorem overwrite_writtenColumns (order : ReplayedOrder) (amountMinor : Option ℤ) (currency : Option String) :
    order.overwrite (writtenColumns amountMinor currency) =
      { order with amountMinor := amountMinor.or order.amountMinor, currency := currency.or order.currency } := by
  cases amountMinor <;> cases currency <;> simp [ReplayedOrder.overwrite, writtenColumns, assigned]

/-- **The record of an application says exactly what it did to the row.** -/
theorem overwrite_changedFields (accepts : Accepts view event now application) :
    (columns view.order).overwrite application.changedFields = columns (some application.order) := by
  cases accepts with
  | created absent =>
    rw [absent]
    simp only [creation, Application.accepted, OrderCreationApplication.createdOrder, buildChangedFields_eq]
    cases readNonNegativeAmountMinor event.payload "amount" <;> cases readCurrency event.payload <;>
      simp [ReplayedOrder.overwrite, ReplayedOrder.blank, columns, assigned, writtenColumns]
  | updated present =>
    rw [present, overwrite_writtenColumns]
    rfl
  | captured present | cancelled present =>
    rw [present]
    simp [ReplayedOrder.overwrite, columns, assigned, Application.accepted]
  | refunded present =>
    rw [present]
    simp [ReplayedOrder.overwrite, columns, assigned, Application.accepted, refundedFields]

theorem replay_history {orderId : String} {log : List LogEntry} {view : OrderView}
    (history : History orderId log view) : replay log = columns view.order := by
  induction history with
  | opened => rfl
  | applied _ _ accepts records ih =>
    have text : parseJsonObject (stringify (.object _)) = _ := parse_stringify_object (finite_changedFields accepts)
    rw [replay] at ih
    rw [replay, List.foldl_append, ih, List.foldl_cons, List.foldl_nil, records.changedFields, text,
      overwrite_changedFields accepts]
    rfl

theorem absent_of_no_history {orderId : String} {view : OrderView} (history : History orderId [] view) :
    view.order = none := by
  generalize shape : ([] : List LogEntry) = log at history
  cases history with
  | opened => rfl
  | applied => simp at shape

/-- **The audit log replays to the order state**, for every order of every
reachable store. -/
theorem audit_log_replays {sys : System} (reachable : Reachable sys) (orderId : String) :
    (∀ order, sys.store.orders.find orderId = some order →
      replay (applied (sys.store.orderLog orderId)) =
        ⟨some order.status, order.amountMinor, order.currency, order.paidAmountMinor, order.refundedAmountMinor⟩) ∧
    (applied (sys.store.orderLog orderId) = [] → sys.store.orders.find orderId = none) := by
  have history := history_reachable reachable orderId
  have replayed := replay_history history
  constructor
  · intro order stored
    have stored : (sys.store.view orderId).order = some order := stored
    rw [replayed, stored]
    rfl
  · intro unbegun
    rw [unbegun] at history
    exact absent_of_no_history history

theorem audit_log_replays_out_of_order : ∃ order,
    outOfOrderSystem.store.orders.find "o" = some order ∧
    replay (applied (outOfOrderSystem.store.orderLog "o")) =
      ⟨some order.status, order.amountMinor, order.currency, order.paidAmountMinor, order.refundedAmountMinor⟩ := by
  have stored : (outOfOrderSystem.store.orders.find "o").isSome := by decide +kernel
  obtain ⟨order, found⟩ := Option.isSome_iff_exists.mp stored
  exact ⟨order, found, (audit_log_replays (reachable_of_run outOfOrder_run) "o").1 order found⟩

end EventEngine.Replay
