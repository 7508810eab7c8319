import EventEngine.Deduplication
import EventEngine.Ledger

/-! Money. The status of an order and its two financial columns always agree,
and each column is the sum of the financial facts accepted for the order. -/
namespace EventEngine.Money
open EventEngine Relational OrderLifecycleApplication

/-! ## Status and money agree -/

/-- The financial columns a status allows. -/
def Balanced (order : OrderEntity) : Prop :=
  0 ≤ order.refundedAmountMinor ∧ order.refundedAmountMinor ≤ order.paidAmountMinor ∧
  match order.status with
  | .created | .cancelled => order.paidAmountMinor = 0 ∧ order.refundedAmountMinor = 0
  | .paid => 0 < order.paidAmountMinor ∧ order.refundedAmountMinor = 0
  | .partiallyRefunded =>
    0 < order.refundedAmountMinor ∧ order.refundedAmountMinor < order.paidAmountMinor
  | .refunded => order.refundedAmountMinor = order.paidAmountMinor ∧ 0 < order.paidAmountMinor
  | .doesNotExist => False

theorem balanced_capture {order : OrderEntity} (balanced : Balanced order)
    (unpaid : order.paidAmountMinor ≤ 0) {amountMinor : ℤ} (positive : 0 < amountMinor) (updatedAt : Time) :
    Balanced { order with status := .paid, paidAmountMinor := amountMinor, updatedAt } := by
  unfold Balanced at balanced ⊢
  obtain ⟨nonneg, covered, status⟩ := balanced
  have unrefunded : order.refundedAmountMinor = 0 := by omega
  simp only [unrefunded, and_true]
  omega

theorem balanced_cancel {order : OrderEntity} (balanced : Balanced order) (open' : order.status = .created)
    (updatedAt : Time) : Balanced { order with status := .cancelled, updatedAt } := by
  unfold Balanced at balanced ⊢
  simp only [open'] at balanced
  exact balanced

theorem balanced_refund {order : OrderEntity} (balanced : Balanced order) {amountMinor : ℤ}
    (positive : 0 < amountMinor) (covered : order.refundedAmountMinor + amountMinor ≤ order.paidAmountMinor)
    (updatedAt : Time) :
    Balanced { order with
      status := refundStatus order (order.refundedAmountMinor + amountMinor)
      refundedAmountMinor := order.refundedAmountMinor + amountMinor, updatedAt } := by
  unfold Balanced at balanced ⊢
  obtain ⟨nonneg, -, -⟩ := balanced
  unfold refundStatus
  refine ⟨by simp only; omega, covered, ?_⟩
  by_cases full : order.refundedAmountMinor + amountMinor = order.paidAmountMinor
  · simp only [full, ↓reduceIte, true_and]
    omega
  · simp only [full, ↓reduceIte]
    omega

theorem balanced_accepts {view : OrderView} {event : ValidOrderEvent} {now : Time} {application : Application}
    (accepts : Accepts view event now application)
    (balanced : ∀ order, view.order = some order → Balanced order) : Balanced application.order := by
  cases accepts with
  | created => exact ⟨le_rfl, le_rfl, rfl, rfl⟩
  | updated present =>
    have balanced := balanced _ present
    exact balanced
  | captured present _ _ read unpaid =>
    exact balanced_capture (balanced _ present) unpaid (readPositiveAmountMinor_pos read) _
  | cancelled present _ open' => exact balanced_cancel (balanced _ present) open' _
  | refunded present _ _ read covered =>
    exact balanced_refund (balanced _ present) (readRefundAmountMinor_pos read) covered _

theorem balanced_history {orderId : String} {log : List LogEntry} {view : OrderView}
    (history : History orderId log view) : ∀ order, view.order = some order → Balanced order := by
  induction history with
  | opened =>
    intro order found
    cases found
  | applied _ _ accepts _ ih =>
    intro order found
    obtain rfl := Option.some.inj found
    exact balanced_accepts accepts ih

/-- **Status and money agree** on every row of every reachable store. -/
theorem status_and_money_agree {sys : System} (reachable : Reachable sys) {orderId : String} {order : OrderEntity}
    (stored : sys.store.orders.find orderId = some order) :
    0 ≤ order.refundedAmountMinor ∧ order.refundedAmountMinor ≤ order.paidAmountMinor ∧
      (order.status = .created ∨ order.status = .cancelled →
        order.paidAmountMinor = 0 ∧ order.refundedAmountMinor = 0) ∧
      (order.status = .paid → 0 < order.paidAmountMinor ∧ order.refundedAmountMinor = 0) ∧
      (order.status = .partiallyRefunded →
        0 < order.refundedAmountMinor ∧ order.refundedAmountMinor < order.paidAmountMinor) ∧
      (order.status = .refunded →
        order.refundedAmountMinor = order.paidAmountMinor ∧ 0 < order.paidAmountMinor) ∧
      order.status ≠ .doesNotExist := by
  obtain ⟨nonneg, covered, allowed⟩ := balanced_history (history_reachable reachable orderId) order stored
  refine ⟨nonneg, covered, ?_⟩
  cases status : order.status <;> rw [status] at allowed <;> simp_all

theorem status_and_money_agree_out_of_order : ∃ order, outOfOrderSystem.store.orders.find "o" = some order ∧
    0 ≤ order.refundedAmountMinor ∧ order.refundedAmountMinor ≤ order.paidAmountMinor := by
  have stored : (outOfOrderSystem.store.orders.find "o").isSome := by decide +kernel
  obtain ⟨order, stored⟩ := Option.isSome_iff_exists.mp stored
  obtain ⟨nonneg, covered, -⟩ := status_and_money_agree (reachable_of_run outOfOrder_run) stored
  exact ⟨order, stored, nonneg, covered⟩

/-! ## Every financial fact is counted once -/

/-- The deliveries of a log accepted with one type. -/
def acceptedOf (type : SupportedEventType) (log : List LogEntry) : List LogEntry :=
  log.filter fun entry => entry.1.decision = .accepted ∧ entry.2.type = type

def captures (log : List LogEntry) : List LogEntry := acceptedOf .paymentCaptured log

def refunds (log : List LogEntry) : List LogEntry := acceptedOf .refundIssued log

/-- What has been paid on an order; nothing on one that does not exist. -/
def paid (order : Option OrderEntity) : ℤ := order.elim 0 (·.paidAmountMinor)

def refunded (order : Option OrderEntity) : ℤ := order.elim 0 (·.refundedAmountMinor)

/-- The amount a refund's payload carries. -/
def refundAmount (entry : LogEntry) : ℤ := (readRefundAmountMinor entry.2.payload).getD 0

theorem acceptedOf_append (type : SupportedEventType) (log : List LogEntry) (entry : LogEntry) :
    acceptedOf type (log ++ [entry]) =
      acceptedOf type log ++ if entry.1.decision = .accepted ∧ entry.2.type = type then [entry] else [] := by
  simp only [acceptedOf, List.filter_append, List.filter_cons, List.filter_nil, decide_eq_true_eq]

/-- A log of which the financial columns are the sum. -/
structure Tallied (log : List LogEntry) (view : OrderView) : Prop where
  /-- Nothing was captured and nothing paid, or one capture paid what it carries. -/
  captured : captures log = [] ∧ paid view.order = 0 ∨
    ∃ entry, captures log = [entry] ∧
      readPositiveAmountMinor entry.2.payload "amount" = some (paid view.order)
  refunded : refunded view.order = ((refunds log).map refundAmount).sum
  /-- Every refund counted carries an amount. -/
  carried : ∀ entry ∈ refunds log, (readRefundAmountMinor entry.2.payload).isSome

/-- An entry that is not an accepted capture or refund, and moves no money,
leaves the tally as it is. -/
theorem tallied_uncounted {log : List LogEntry} {view view' : OrderView} {entry : LogEntry}
    (tallied : Tallied log view)
    (uncounted : entry.1.decision = .accepted → entry.2.type ≠ .paymentCaptured ∧ entry.2.type ≠ .refundIssued)
    (samePaid : paid view'.order = paid view.order) (sameRefunded : Money.refunded view'.order = refunded view.order) :
    Tallied (log ++ [entry]) view' := by
  have captured : captures (log ++ [entry]) = captures log := by
    rw [captures, acceptedOf_append, if_neg fun counted => (uncounted counted.1).1 counted.2, List.append_nil, captures]
  have refunded : refunds (log ++ [entry]) = refunds log := by
    rw [refunds, acceptedOf_append, if_neg fun counted => (uncounted counted.1).2 counted.2, List.append_nil, refunds]
  refine ⟨?_, ?_, ?_⟩
  · rw [captured, samePaid]
    exact tallied.captured
  · rw [refunded, sameRefunded]
    exact tallied.refunded
  · rw [refunded]
    exact tallied.carried

theorem tallied_capture {log : List LogEntry} {view view' : OrderView} {entry : LogEntry} (tallied : Tallied log view)
    (accepted : entry.1.decision = .accepted) (type : entry.2.type = .paymentCaptured)
    (unpaid : paid view.order ≤ 0)
    (read : readPositiveAmountMinor entry.2.payload "amount" = some (paid view'.order))
    (sameRefunded : Money.refunded view'.order = refunded view.order) : Tallied (log ++ [entry]) view' := by
  have first : captures log = [] := by
    rcases tallied.captured with ⟨none, -⟩ | ⟨earlier, -, carried⟩
    · exact none
    · have positive := readPositiveAmountMinor_pos carried
      omega
  have captured : captures (log ++ [entry]) = [entry] := by
    rw [captures, acceptedOf_append, if_pos ⟨accepted, type⟩, ← captures, first, List.nil_append]
  have refunded : refunds (log ++ [entry]) = refunds log := by
    rw [refunds, acceptedOf_append, if_neg fun counted => by simp [type] at counted, List.append_nil, refunds]
  refine ⟨Or.inr ⟨entry, captured, read⟩, ?_, ?_⟩
  · rw [refunded, sameRefunded]
    exact tallied.refunded
  · rw [refunded]
    exact tallied.carried

theorem tallied_refund {log : List LogEntry} {view view' : OrderView} {entry : LogEntry} (tallied : Tallied log view)
    (accepted : entry.1.decision = .accepted) (type : entry.2.type = .refundIssued) {amountMinor : ℤ}
    (read : readRefundAmountMinor entry.2.payload = some amountMinor)
    (samePaid : paid view'.order = paid view.order)
    (added : Money.refunded view'.order = refunded view.order + amountMinor) : Tallied (log ++ [entry]) view' := by
  have captured : captures (log ++ [entry]) = captures log := by
    rw [captures, acceptedOf_append, if_neg fun counted => by simp [type] at counted, List.append_nil, captures]
  have refunded : refunds (log ++ [entry]) = refunds log ++ [entry] := by
    rw [refunds, acceptedOf_append, if_pos ⟨accepted, type⟩, refunds]
  refine ⟨?_, ?_, ?_⟩
  · rw [captured, samePaid]
    exact tallied.captured
  · rw [refunded, added, tallied.refunded]
    simp [refundAmount, read]
  · intro other member
    rw [refunded, List.mem_append, List.mem_singleton] at member
    rcases member with before | rfl
    · exact tallied.carried other before
    · rw [read]
      rfl

theorem tallied_ledger {orderId : String} {log : List LogEntry} {view : OrderView}
    (ledger : Ledger orderId log view) : Tallied log view := by
  induction ledger with
  | opened => exact ⟨Or.inl ⟨rfl, rfl⟩, rfl, fun _ absurd => by cases absurd⟩
  | passed _ _ passed ih =>
    refine tallied_uncounted ih (fun accepted => ?_) rfl rfl
    rcases passed with duplicate | failed
    · cases duplicate.symm.trans accepted
    · cases failed.symm.trans accepted
  | expired _ _ _ rejected ih | refused _ _ _ rejected ih =>
    exact tallied_uncounted ih (fun accepted => by cases rejected.symm.trans accepted) rfl rfl
  | applied _ _ accepts records ih =>
    have verdict := records.verdict
    cases accepts with
    | created absent type =>
      refine tallied_uncounted ih (fun _ => by simp [type]) ?_ ?_ <;> rw [absent] <;> rfl
    | updated present type =>
      refine tallied_uncounted ih (fun _ => by simp [type]) ?_ ?_ <;> rw [present] <;> rfl
    | captured present type _ read unpaid =>
      refine tallied_capture ih verdict type ?_ read ?_ <;> rw [present]
      · exact unpaid
      · rfl
    | cancelled present type =>
      refine tallied_uncounted ih (fun _ => by simp [type]) ?_ ?_ <;> rw [present] <;> rfl
    | refunded present type _ read =>
      refine tallied_refund ih verdict type read ?_ ?_ <;> rw [present] <;> rfl

/-- An accepted event moves the paid column only as a capture, and the refunded
column only as a refund. -/
theorem moved_by_type {view : OrderView} {event : ValidOrderEvent} {now : Time} {application : Application}
    (accepts : Accepts view event now application) :
    (paid (some application.order) ≠ paid view.order → event.type = .paymentCaptured) ∧
      (refunded (some application.order) ≠ refunded view.order → event.type = .refundIssued) := by
  cases accepts with
  | created absent =>
    rw [absent]
    exact ⟨fun moved => absurd rfl moved, fun moved => absurd rfl moved⟩
  | updated present | cancelled present =>
    rw [present]
    exact ⟨fun moved => absurd rfl moved, fun moved => absurd rfl moved⟩
  | captured present type =>
    rw [present]
    exact ⟨fun _ => type, fun moved => absurd rfl moved⟩
  | refunded present type =>
    rw [present]
    exact ⟨fun moved => absurd rfl moved, fun _ => type⟩

/-- A step that moves an order's money calls `processEvent` on a delivery for
that order, of the type that owns the column. -/
theorem moved_by_step {sys sys' : System} {action : Action} (consistent : sys.Consistent)
    (taken : step sys action = some sys') (orderId : String) {column : Option OrderEntity → ℤ}
    {type : SupportedEventType}
    (owned : ∀ view event now application, Accepts view event now application →
      column (some application.order) ≠ column view.order → event.type = type)
    (moved : column (sys'.store.orders.find orderId) ≠ column (sys.store.orders.find orderId)) :
    ∃ delivery event, calledDelivery sys action = some delivery ∧ sys.store.eventOf delivery = some event ∧
      event.orderId = orderId ∧ event.type = type := by
  rcases store_of_step consistent taken with same | ⟨events, receivedAt, rfl, same⟩ | ⟨delivery, host, called, call⟩
  · rw [same] at moved
    exact absurd rfl moved
  · rw [same] at moved
    exact absurd rfl moved
  · rcases view_outcome call.outcome orderId with same | ⟨event, application, valid, own, accepts, applied⟩
    · have same : sys'.store.orders.find orderId = sys.store.orders.find orderId := congrArg OrderView.order same
      rw [same] at moved
      exact absurd rfl moved
    · have applied : sys'.store.orders.find orderId = some application.order := congrArg OrderView.order applied
      rw [applied] at moved
      refine ⟨delivery.id, event, called, ?_, own, owned _ _ _ _ accepts moved⟩
      rw [eventOf_stored call.stored]
      exact validEvent?_eq_some.mpr valid

/-- The deliveries of a log accepted as a payment or as a refund. -/
def financialFacts (log : List LogEntry) : List LogEntry :=
  log.filter fun entry =>
    entry.1.decision = .accepted ∧ (entry.2.type = .paymentCaptured ∨ entry.2.type = .refundIssued)

theorem orderLog_nodup (s : Store) (orderId : String) : (s.orderLog orderId).Nodup := by
  apply List.Nodup.filterMap
  · intro first second entry held held'
    simp only [Option.mem_def, Option.map_eq_some_iff] at held held'
    obtain ⟨_, -, rfl⟩ := held
    obtain ⟨_, -, same⟩ := held'
    exact (congrArg Prod.fst same).symm
  · exact s.eventDecisions.ids_nodup.of_map

theorem financialFacts_distinct {sys : System} (reachable : Reachable sys) (orderId : String) :
    ((financialFacts (sys.store.orderLog orderId)).map (·.2.eventId)).Nodup := by
  have claimed := Deduplication.claimed_reachable reachable
  apply List.Nodup.map_on
  · intro first member second member' same
    obtain ⟨member, counted⟩ := List.mem_filter.mp member
    obtain ⟨member', counted'⟩ := List.mem_filter.mp member'
    simp only [decide_eq_true_eq] at counted counted'
    obtain ⟨logged, known, -⟩ := mem_orderLog.mp member
    obtain ⟨logged', known', -⟩ := mem_orderLog.mp member'
    have held := claimed.merits first.1 logged (Or.inl counted.1) first.2 known
    have held' := claimed.merits second.1 logged' (Or.inl counted'.1) second.2 known'
    rw [same, held', Option.some.injEq, ProcessedEventKeyEntity.mk.injEq] at held
    have decision : first.1 = second.1 :=
      List.inj_on_of_nodup_map reachable.consistent.store.decided_once logged logged' held.2.symm
    rw [decision, known', Option.some.injEq] at known
    exact Prod.ext decision known.symm
  · exact (orderLog_nodup sys.store orderId).filter _

/-- **Every financial fact is counted exactly once**, in every reachable store
and for every order. -/
theorem financial_facts_counted_once {sys : System} (reachable : Reachable sys) (orderId : String) :
    (captures (sys.store.orderLog orderId) = [] ∧ paid (sys.store.orders.find orderId) = 0 ∨
      ∃ entry, captures (sys.store.orderLog orderId) = [entry] ∧
        readPositiveAmountMinor entry.2.payload "amount" = some (paid (sys.store.orders.find orderId))) ∧
    refunded (sys.store.orders.find orderId) = ((refunds (sys.store.orderLog orderId)).map refundAmount).sum ∧
    (∀ entry ∈ refunds (sys.store.orderLog orderId), (readRefundAmountMinor entry.2.payload).isSome) ∧
    ((financialFacts (sys.store.orderLog orderId)).map (·.2.eventId)).Nodup ∧
    ∀ action sys', step sys action = some sys' →
      (paid (sys'.store.orders.find orderId) ≠ paid (sys.store.orders.find orderId) →
        ∃ delivery event, calledDelivery sys action = some delivery ∧ sys.store.eventOf delivery = some event ∧
          event.orderId = orderId ∧ event.type = .paymentCaptured) ∧
      (refunded (sys'.store.orders.find orderId) ≠ refunded (sys.store.orders.find orderId) →
        ∃ delivery event, calledDelivery sys action = some delivery ∧ sys.store.eventOf delivery = some event ∧
          event.orderId = orderId ∧ event.type = .refundIssued) := by
  have tallied := tallied_ledger (ledger_reachable reachable orderId)
  refine ⟨tallied.captured, tallied.refunded, tallied.carried, financialFacts_distinct reachable orderId, ?_⟩
  intro action sys' taken
  constructor
  · exact moved_by_step reachable.consistent taken orderId fun _ _ _ _ accepts => (moved_by_type accepts).1
  · exact moved_by_step reachable.consistent taken orderId fun _ _ _ _ accepts => (moved_by_type accepts).2

theorem financial_facts_counted_once_out_of_order :
    refunded (outOfOrderSystem.store.orders.find "o") =
      ((refunds (outOfOrderSystem.store.orderLog "o")).map refundAmount).sum :=
  (financial_facts_counted_once (reachable_of_run outOfOrder_run) "o").2.1

end EventEngine.Money
