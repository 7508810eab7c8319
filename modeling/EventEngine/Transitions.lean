import EventEngine.Money

/-! The state machine. The accepted decisions of an order are a path of the
documented transitions, from its creation to the status stored for it. -/
namespace EventEngine.Transitions
open EventEngine Relational OrderLifecycleApplication

/-- The documented transitions of an existing order, by event type. -/
def documented : SupportedEventType → OrderStatus → OrderStatus → Prop
  | .orderCreated, _, _ => False
  | .orderUpdated, fromStatus, toStatus => toStatus = fromStatus ∧ fromStatus ≠ .doesNotExist
  | .paymentCaptured, fromStatus, toStatus => fromStatus = .created ∧ toStatus = .paid
  | .orderCancelled, fromStatus, toStatus => fromStatus = .created ∧ toStatus = .cancelled
  | .refundIssued, fromStatus, toStatus =>
    (fromStatus = .paid ∨ fromStatus = .partiallyRefunded) ∧
      (toStatus = .partiallyRefunded ∨ toStatus = .refunded)

/-- No documented transition leaves a cancelled or a refunded order. -/
theorem terminal_of_documented {type : SupportedEventType} {before after : OrderStatus}
    (step : documented type before after) (terminal : before = .cancelled ∨ before = .refunded) : after = before := by
  cases type with
  | orderCreated => exact step.elim
  | orderUpdated => exact step.1
  | paymentCaptured | orderCancelled | refundIssued =>
    obtain ⟨source, -⟩ := step
    rcases terminal with rfl | rfl <;> simp at source

/-- A path of the state machine that ends in a status, or has not begun. -/
structure Path (history : List LogEntry) (status : Option OrderStatus) : Prop where
  first : ∀ entry, history.head? = some entry →
    entry.2.type = .orderCreated ∧ entry.1.fromStatus = none ∧ entry.1.toStatus = some .created
  linked : history.IsChain fun earlier later => later.1.fromStatus = earlier.1.toStatus
  steps : ∀ entry ∈ history.tail, ∃ fromStatus toStatus, entry.1.fromStatus = some fromStatus ∧
    entry.1.toStatus = some toStatus ∧ documented entry.2.type fromStatus toStatus
  last : history.getLast?.bind (·.1.toStatus) = status
  begun : status.isSome ↔ history ≠ []

theorem path_nil : Path [] none := by
  refine ⟨?_, List.isChain_nil, ?_, rfl, by simp⟩
  · intro entry absurd
    cases absurd
  · intro entry absurd
    cases absurd

theorem path_created {entry : LogEntry} (type : entry.2.type = .orderCreated)
    (fromStatus : entry.1.fromStatus = none) (toStatus : entry.1.toStatus = some .created) :
    Path [entry] (some .created) := by
  refine ⟨?_, List.isChain_singleton _, ?_, by simpa using toStatus, by simp⟩
  · intro other found
    obtain rfl := Option.some.inj found
    exact ⟨type, fromStatus, toStatus⟩
  · intro other absurd
    cases absurd

theorem path_snoc {history : List LogEntry} {entry : LogEntry} {before after : OrderStatus}
    (path : Path history (some before)) (fromStatus : entry.1.fromStatus = some before)
    (toStatus : entry.1.toStatus = some after) (step : documented entry.2.type before after) :
    Path (history ++ [entry]) (some after) := by
  have nonempty : history ≠ [] := path.begun.mp rfl
  refine ⟨?_, ?_, ?_, ?_, by simp⟩
  · rw [List.head?_append_of_ne_nil _ nonempty]
    exact path.first
  · rw [List.isChain_append]
    refine ⟨path.linked, List.isChain_singleton _, ?_⟩
    intro previous found next found'
    have last := path.last
    rw [Option.mem_def.mp found, Option.bind_some] at last
    obtain rfl : entry = next := by simpa using found'
    rw [fromStatus, last]
  · intro other member
    rw [List.tail_append_of_ne_nil nonempty, List.mem_append, List.mem_singleton] at member
    rcases member with earlier | rfl
    · exact path.steps other earlier
    · exact ⟨before, after, fromStatus, toStatus, step⟩
  · simpa using toStatus

/-- A path has no step out of a final state. -/
theorem path_terminal {history : List LogEntry} {status : Option OrderStatus} (path : Path history status) :
    ∀ entry ∈ history, entry.1.fromStatus = some .cancelled ∨ entry.1.fromStatus = some .refunded →
      entry.1.toStatus = entry.1.fromStatus := by
  intro entry member terminal
  cases history with
  | nil => cases member
  | cons creation rest =>
    rcases List.mem_cons.mp member with rfl | later
    · rw [(path.first entry rfl).2.1] at terminal
      rcases terminal with absurd | absurd <;> cases absurd
    · obtain ⟨before, after, fromStatus, toStatus, step⟩ := path.steps entry later
      rw [fromStatus] at terminal ⊢
      rw [toStatus]
      simp only [Option.some.injEq] at terminal ⊢
      exact terminal_of_documented step terminal

/-! ## The transitions of an accepted event -/

/-- An order that is neither paid nor cancelled is as it was created. -/
theorem created_of_unpaid {order : OrderEntity} (balanced : Money.Balanced order) (open' : order.status ≠ .cancelled)
    (unpaid : order.paidAmountMinor ≤ 0) : order.status = .created := by
  obtain ⟨nonneg, covered, allowed⟩ := balanced
  cases status : order.status <;> rw [status] at allowed
  case cancelled => exact absurd status open'
  case doesNotExist => exact allowed.elim
  all_goals
    simp only at allowed
    omega

/-- A captured order with money left to refund is paid, or refunded in part. -/
theorem paid_of_refundable {order : OrderEntity} (balanced : Money.Balanced order)
    (captured : order.status ≠ .created ∧ order.status ≠ .cancelled)
    (refundable : order.refundedAmountMinor < order.paidAmountMinor) :
    order.status = .paid ∨ order.status = .partiallyRefunded := by
  obtain ⟨-, -, allowed⟩ := balanced
  cases status : order.status <;> rw [status] at allowed
  case created => exact absurd status captured.1
  case cancelled => exact absurd status captured.2
  case paid => exact Or.inl rfl
  case partiallyRefunded => exact Or.inr rfl
  case refunded =>
    simp only at allowed
    omega
  case doesNotExist => exact allowed.elim

/-- The money on an order decides which captures and refunds its status allows. -/
theorem documented_of_accepts {view : OrderView} {event : ValidOrderEvent} {now : Time} {application : Application}
    {order : OrderEntity} (accepts : Accepts view event now application) (present : view.order = some order)
    (balanced : Money.Balanced order) : documented event.type order.status application.toStatus := by
  cases accepts with
  | created absent =>
    rw [absent] at present
    cases present
  | updated present' type =>
    obtain rfl := Option.some.inj (present.symm.trans present')
    rw [type]
    refine ⟨rfl, fun absurd => ?_⟩
    obtain ⟨-, -, allowed⟩ := balanced
    rw [absurd] at allowed
    exact allowed
  | captured present' type open' _ unpaid =>
    obtain rfl := Option.some.inj (present.symm.trans present')
    rw [type]
    exact ⟨created_of_unpaid balanced open' unpaid, rfl⟩
  | cancelled present' type open' =>
    obtain rfl := Option.some.inj (present.symm.trans present')
    rw [type]
    exact ⟨open', rfl⟩
  | refunded present' type captured read covers =>
    obtain rfl := Option.some.inj (present.symm.trans present')
    have positive := readRefundAmountMinor_pos read
    rw [type]
    refine ⟨paid_of_refundable balanced captured (by omega), ?_⟩
    simp only [Application.accepted, refundStatus]
    split <;> simp

theorem path_history {orderId : String} {log : List LogEntry} {view : OrderView}
    (history : History orderId log view) : Path log (view.order.map (·.status)) := by
  induction history with
  | opened => exact path_nil
  | @applied log view decision event now application prior _ accepts records ih =>
    have fromStatus := records.fromStatus.trans accepts.fromStatus
    have toStatus := records.toStatus
    have reached : (view.apply event application).order.map (·.status) = some application.toStatus :=
      congrArg some accepts.status
    rw [reached]
    cases present : view.order with
    | some order =>
      rw [present] at ih fromStatus
      exact path_snoc ih fromStatus toStatus
        (documented_of_accepts accepts present (Money.balanced_history prior order present))
    | none =>
      rw [present] at ih fromStatus
      have unbegun : log = [] := by
        have begun := ih.begun
        simpa using begun
      subst unbegun
      cases accepts with
      | created _ type => exact path_created type fromStatus toStatus
      | updated present' | captured present' | cancelled present' | refunded present' =>
        rw [present] at present'
        cases present'

/-! ## Final states -/

theorem terminal_kept {permitted : Action → Prop} {sys later : System} (reachable : Reachable sys)
    (reached : Reaches permitted sys later) {orderId : String} {order : OrderEntity}
    (stored : sys.store.orders.find orderId = some order)
    (terminal : order.status = .cancelled ∨ order.status = .refunded) :
    (later.store.orders.find orderId).map (·.status) = some order.status := by
  have balanced := Money.balanced_history (history_reachable reachable orderId) order stored
  have kept : ∃ order', later.store.orders.find orderId = some order' ∧ order'.status = order.status ∧
      Money.Balanced order' := by
    refine store_invariant (fun s => ∃ order', s.orders.find orderId = some order' ∧
      order'.status = order.status ∧ Money.Balanced order') reached reachable.consistent
      ⟨order, stored, rfl, balanced⟩ (fun _ _ _ _ _ kept => kept) ?_
    rintro s delivery host s' call ⟨order', stored', status, balanced'⟩
    rcases view_outcome call.outcome orderId with same | ⟨event, application, -, -, accepts, applied⟩
    · have same : s'.orders.find orderId = s.orders.find orderId := congrArg OrderView.order same
      exact ⟨order', same.trans stored', status, balanced'⟩
    · have applied : s'.orders.find orderId = some application.order := congrArg OrderView.order applied
      have step := documented_of_accepts accepts stored' balanced'
      have next := terminal_of_documented step (status ▸ terminal)
      refine ⟨application.order, applied, ?_, Money.balanced_accepts accepts ?_⟩
      · rw [accepts.status, next, status]
      · intro other found
        obtain rfl := Option.some.inj (stored'.symm.trans found)
        exact balanced'
  obtain ⟨order', stored', status, -⟩ := kept
  rw [stored', Option.map_some, status]

/-- **The history of every order is a path of the documented state machine**,
and final states are never left. -/
theorem history_is_documented_path {sys : System} (reachable : Reachable sys) (orderId : String) :
    Path (applied (sys.store.orderLog orderId)) ((sys.store.orders.find orderId).map (·.status)) ∧
    ((sys.store.orders.find orderId).isSome ↔ applied (sys.store.orderLog orderId) ≠ []) ∧
    (∀ entry ∈ applied (sys.store.orderLog orderId),
      entry.1.fromStatus = some .cancelled ∨ entry.1.fromStatus = some .refunded →
        entry.1.toStatus = entry.1.fromStatus) ∧
    ∀ order, sys.store.orders.find orderId = some order → order.status = .cancelled ∨ order.status = .refunded →
      ∀ later, Reaches (fun _ => True) sys later →
        (later.store.orders.find orderId).map (·.status) = some order.status := by
  have path := path_history (history_reachable reachable orderId)
  refine ⟨path, ?_, path_terminal path,
    fun order stored terminal later reached => terminal_kept reachable reached stored terminal⟩
  rw [← path.begun, Option.isSome_map]
  rfl

theorem history_is_documented_path_out_of_order :
    Path (applied (outOfOrderSystem.store.orderLog "o"))
      ((outOfOrderSystem.store.orders.find "o").map (·.status)) :=
  (history_is_documented_path (reachable_of_run outOfOrder_run) "o").1

end EventEngine.Transitions
