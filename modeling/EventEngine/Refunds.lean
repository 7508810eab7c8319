import EventEngine.Freshness
import Mathlib.Algebra.Order.BigOperators.Group.List
import Mathlib.Order.Bounds.Basic

/-! Refunds commute. Refunds that a captured payment covers are all accepted, in
whatever order they are processed and whatever updates come in between, and
they leave the order in one and the same state. -/
namespace EventEngine.Refunds
open EventEngine Relational OrderLifecycleApplication

/-! ## Processing a list -/

/-- Deliveries processed one after the other, without technical failures. -/
def processAll (s : Store) (calls : List (RawIncomingEventEntity × Host)) : Store :=
  calls.foldl (fun s call => (processEvent call.1 call.2 none none s).2) s

/-- The refund a delivery asks for: its event and a positive amount. -/
def refundOf (delivery : RawIncomingEventEntity) : Option (ValidOrderEvent × ℤ) :=
  (validEvent? delivery).bind fun event =>
    if event.type = .refundIssued then (readRefundAmountMinor event.payload).map (event, ·) else none

/-- The deliveries of a list that ask for a refund. -/
def refundDeliveries (calls : List (RawIncomingEventEntity × Host)) : List RawIncomingEventEntity :=
  (calls.map (·.1)).filter fun delivery => (refundOf delivery).isSome

/-- The refunds they ask for. -/
def refunds (calls : List (RawIncomingEventEntity × Host)) : List (ValidOrderEvent × ℤ) :=
  (refundDeliveries calls).filterMap refundOf

def total (refunds : List (ValidOrderEvent × ℤ)) : ℤ := (refunds.map (·.2)).sum

/-- Refunds of an order with fresh and distinct event ids, in total no more than
is left to refund, and updates of the order anywhere in between. -/
structure Admissible (s : Store) (orderId : String) (order : OrderEntity)
    (calls : List (RawIncomingEventEntity × Host)) : Prop where
  queued : Queued s (calls.map (·.1))
  kinds : ∀ call ∈ calls, ∃ event, validate call.1 = .valid event ∧ event.orderId = orderId ∧
    (event.type = .orderUpdated ∨ (refundOf call.1).isSome)
  fresh : ∀ call ∈ calls, ∀ event amountMinor, refundOf call.1 = some (event, amountMinor) →
    s.Claimable event call.1.id
  distinct : calls.Pairwise fun former latter => ∀ event event', validate former.1 = .valid event →
    validate latter.1 = .valid event' → (refundOf former.1).isSome ∨ (refundOf latter.1).isSome →
    event.eventId ≠ event'.eventId
  covered : total (refunds calls) ≤ refundableAmountMinor order

theorem refundOf_eq_some {delivery : RawIncomingEventEntity} {event : ValidOrderEvent} {amountMinor : ℤ} :
    refundOf delivery = some (event, amountMinor) ↔ validate delivery = .valid event ∧
      event.type = .refundIssued ∧ readRefundAmountMinor event.payload = some amountMinor := by
  unfold refundOf
  rw [Option.bind_eq_some_iff]
  constructor
  · rintro ⟨event', known, read⟩
    split at read
    · rename_i type
      obtain ⟨amount, carried, same⟩ := Option.map_eq_some_iff.mp read
      obtain ⟨rfl, rfl⟩ := Prod.mk.inj same
      exact ⟨validEvent?_eq_some.mp known, type, carried⟩
    · cases read
  · rintro ⟨valid, type, read⟩
    exact ⟨event, validEvent?_eq_some.mpr valid, by rw [if_pos type, read]; rfl⟩

variable {calls rest : List (RawIncomingEventEntity × Host)} {call : RawIncomingEventEntity × Host}

theorem refunds_cons_refund {event : ValidOrderEvent} {amountMinor : ℤ}
    (asks : refundOf call.1 = some (event, amountMinor)) :
    refunds (call :: rest) = (event, amountMinor) :: refunds rest := by
  simp [refunds, refundDeliveries, asks]

theorem refunds_cons_other (asks : refundOf call.1 = none) : refunds (call :: rest) = refunds rest := by
  simp [refunds, refundDeliveries, asks]

theorem refundDeliveries_cons_refund {event : ValidOrderEvent} {amountMinor : ℤ}
    (asks : refundOf call.1 = some (event, amountMinor)) :
    refundDeliveries (call :: rest) = call.1 :: refundDeliveries rest := by
  simp [refundDeliveries, asks]

theorem refundDeliveries_cons_other (asks : refundOf call.1 = none) :
    refundDeliveries (call :: rest) = refundDeliveries rest := by
  simp [refundDeliveries, asks]

theorem total_cons (refund : ValidOrderEvent × ℤ) (refunds : List (ValidOrderEvent × ℤ)) :
    total (refund :: refunds) = refund.2 + total refunds := by
  simp [total]

/-- Every refund asks for something. -/
theorem total_nonneg (calls : List (RawIncomingEventEntity × Host)) : 0 ≤ total (refunds calls) := by
  refine List.sum_nonneg ?_
  intro amount member
  obtain ⟨⟨event, amountMinor⟩, asked, rfl⟩ := List.mem_map.mp member
  obtain ⟨delivery, -, asks⟩ := List.mem_filterMap.mp asked
  exact (readRefundAmountMinor_pos (refundOf_eq_some.mp asks).2.2).le

/-! ## One refund -/

variable {s s' : Store} {delivery : RawIncomingEventEntity} {host : Host} {orderId : String} {order : OrderEntity}

/-- The status a captured order can be in. -/
def Captured (order : OrderEntity) : Prop := order.status ≠ .created ∧ order.status ≠ .cancelled

/-- What an accepted refund of the event makes of an order. -/
def refundedOrder (order : OrderEntity) (amountMinor : ℤ) (updatedAt : Time) : OrderEntity :=
  { order with
    status := refundStatus order (order.refundedAmountMinor + amountMinor)
    refundedAmountMinor := order.refundedAmountMinor + amountMinor, updatedAt }

theorem captured_refundedOrder (order : OrderEntity) (amountMinor : ℤ) (updatedAt : Time) :
    Captured (refundedOrder order amountMinor updatedAt) := by
  unfold Captured refundedOrder refundStatus
  simp only
  split <;> simp

/-- A committed transaction applies an event that is judged to apply. -/
theorem applied_of_committed {event : ValidOrderEvent} {application : Application}
    (committed : Committed s delivery host s') (valid : validate delivery = .valid event)
    (claimable : s.Claimable event delivery.id)
    (judged : judge (s.view event.orderId) event host.now = .applied application) :
    s' = ((s.claim event.eventId delivery.id).write event application).settle (application.record delivery host)
      none none := by
  rw [committed.judged valid claimable, Store.judged, view_claim, judged]
  rfl

theorem judge_refund {view : OrderView} {event : ValidOrderEvent} {amountMinor : ℤ} (present : view.order = some order)
    (captured : Captured order) (type : event.type = .refundIssued)
    (read : readRefundAmountMinor event.payload = some amountMinor)
    (covered : amountMinor ≤ refundableAmountMinor order) (now : Time) :
    judge view event now = .applied (.accepted (refundedOrder order amountMinor now)
      (if isFresh (view.version .status) event.timestamp then [.status] else [])
      (some order.status) (refundStatus order (order.refundedAmountMinor + amountMinor))
      (refundedFields order (order.refundedAmountMinor + amountMinor))) := by
  simp [judge, present, type, captured.1, captured.2, judgeRefund, read, not_lt.mpr covered, OrderEntity.assign,
    assigned, refundedFields, refundedOrder]

/-- A refund that is covered and not a copy is accepted. -/
theorem refund_call (committed : Committed s delivery host s') (undecided : s.decisionOf delivery.id = none)
    {event : ValidOrderEvent} {amountMinor : ℤ} (asks : refundOf delivery = some (event, amountMinor))
    (own : event.orderId = orderId) (claimable : s.Claimable event delivery.id)
    (present : (s.view orderId).order = some order) (captured : Captured order)
    (covered : amountMinor ≤ refundableAmountMinor order) :
    (∃ decision, s'.decisionOf delivery.id = some decision ∧ decision.decision = .accepted) ∧
      (s'.view orderId).order = some (refundedOrder order amountMinor host.now) ∧
      (s'.view orderId).version .status =
        if isFresh ((s.view orderId).version .status) event.timestamp then some (event.stamp .status)
        else (s.view orderId).version .status := by
  obtain ⟨valid, type, read⟩ := refundOf_eq_some.mp asks
  subst own
  have judged := judge_refund present captured type read covered host.now
  obtain rfl := applied_of_committed committed valid claimable judged
  have kept : order.orderId = event.orderId := orderId_of_view present
  have named : (refundedOrder order amountMinor host.now).orderId = event.orderId := kept
  refine ⟨⟨_, decisionOf_settle_self _ (Application.record ..) none none undecided, rfl⟩, ?_⟩
  rw [view_settle, view_write _ _ _ named, if_pos rfl, view_claim]
  refine ⟨rfl, ?_⟩
  simp only [OrderView.apply, Application.accepted]
  by_cases fresh : isFresh ((s.view event.orderId).version .status) event.timestamp = true <;> simp [fresh]

/-! ## One update -/

/-- An update moves neither the money nor the status of its order. -/
theorem update_call (outcome : Outcome s delivery host s') {event : ValidOrderEvent}
    (valid : validate delivery = .valid event) (type : event.type = .orderUpdated)
    (present : (s.view orderId).order = some order) :
    (∃ order', (s'.view orderId).order = some order' ∧ order'.status = order.status ∧
      order'.paidAmountMinor = order.paidAmountMinor ∧ order'.refundedAmountMinor = order.refundedAmountMinor) ∧
      (s'.view orderId).version .status = (s.view orderId).version .status := by
  rcases view_outcome outcome orderId with same | ⟨event', application, valid', -, accepts, moved⟩
  · rw [same]
    exact ⟨⟨order, present, rfl, rfl, rfl⟩, rfl⟩
  · obtain rfl := EventValidation.valid.inj (valid.symm.trans valid')
    rw [moved]
    cases accepts with
    | created _ type' | captured _ type' | cancelled _ type' | refunded _ type' => cases type.symm.trans type'
    | updated present' =>
      obtain rfl := Option.some.inj (present.symm.trans present')
      refine ⟨⟨_, rfl, rfl, rfl, rfl⟩, ?_⟩
      simp [OrderView.apply]

/-! ## A list of calls -/

/-- The timestamps of refunds. -/
def timestamps (refunds : List (ValidOrderEvent × ℤ)) : Set ℚ := {t | ∃ refund ∈ refunds, refund.1.timestamp = t}

/-- Where refunds leave an order: they are added up, the last of them sets the
status, and the newest of them stamps it. -/
structure Settled (s : Store) (orderId : String) (order : OrderEntity) (refunds : List (ValidOrderEvent × ℤ))
    (s' : Store) : Prop where
  money : ∃ order', s'.orders.find orderId = some order' ∧ order'.paidAmountMinor = order.paidAmountMinor ∧
    order'.refundedAmountMinor = order.refundedAmountMinor + total refunds ∧
    order'.status =
      if refunds = [] then order.status else refundStatus order (order.refundedAmountMinor + total refunds)
  stamp : ∀ version, s.orderFieldVersions.find (orderId, .status) = some version →
    ∃ version', s'.orderFieldVersions.find (orderId, .status) = some version' ∧
      IsGreatest (insert version.lastEventTimestamp (timestamps refunds)) version'.lastEventTimestamp

theorem call_head (consistent : s.Consistent) (queued : Queued s ((call :: rest).map (·.1))) :
    processAll s (call :: rest) = processAll (s.processed call.1 call.2) rest ∧
      Committed s call.1 call.2 (s.processed call.1 call.2) ∧
      Call s call.1 call.2 (s.processed call.1 call.2) := by
  have undecided := queued.undecided call.1 (by simp)
  have committed := processed_committed call.2 undecided
  refine ⟨?_, committed, consistent, queued.stored call.1 (by simp), undecided, .committed committed⟩
  simp only [processAll, List.foldl_cons, processEvent_clean consistent.toOperational]

theorem consistent_call (called : Call s delivery host s') : s'.Consistent :=
  consistent_outcome called.consistent called.stored called.undecided called.outcome

/-- A decision outlives calls on other deliveries. -/
theorem decisionOf_processAll (consistent : s.Consistent) (queued : Queued s (calls.map (·.1))) {id : ℕ}
    (other : ∀ call ∈ calls, id ≠ call.1.id) : (processAll s calls).decisionOf id = s.decisionOf id := by
  induction calls generalizing s with
  | nil => rfl
  | cons call rest ih =>
    obtain ⟨split, -, called⟩ := call_head consistent queued
    rw [split, ih (consistent_call called) (queued_tail queued called.outcome)
      fun later member => other later (List.mem_cons_of_mem _ member)]
    exact decisionOf_outcome called.outcome (other call List.mem_cons_self)

/-- What is left of the list stays admissible. -/
theorem admissible_tail {order order' : OrderEntity} (admissible : Admissible s orderId order (call :: rest))
    (outcome : Outcome s call.1 call.2 s') (covered : total (refunds rest) ≤ refundableAmountMinor order') :
    Admissible s' orderId order' rest := by
  obtain ⟨apart, distinct⟩ := List.pairwise_cons.mp admissible.distinct
  refine ⟨queued_tail admissible.queued outcome, ?_, ?_, distinct, covered⟩
  · exact fun later member => admissible.kinds later (List.mem_cons_of_mem _ member)
  · intro later member event amountMinor asks key held
    rcases Deduplication.key_of_outcome outcome held with before | ⟨-, event', valid, same⟩
    · exact admissible.fresh later (List.mem_cons_of_mem _ member) event amountMinor asks key before
    · have refund : (refundOf later.1).isSome := by rw [asks]; rfl
      exact absurd same (apart later member event' event valid (refundOf_eq_some.mp asks).1 (Or.inr refund))

/-- A stamp taken when it is fresh is the greater of the two. -/
theorem greatest_stamp {version : OrderFieldVersionEntity} {event : ValidOrderEvent}
    {refunds : List (ValidOrderEvent × ℤ)} {amountMinor : ℤ} {newest : ℚ}
    (greatest : IsGreatest (insert (max version.lastEventTimestamp event.timestamp) (timestamps refunds)) newest) :
    IsGreatest (insert version.lastEventTimestamp (timestamps ((event, amountMinor) :: refunds))) newest := by
  obtain ⟨reached, above⟩ := greatest
  have old := above (Set.mem_insert _ _)
  constructor
  · rcases reached with rfl | ⟨refund, member, rfl⟩
    · rcases max_choice version.lastEventTimestamp event.timestamp with same | same
      · rw [same]
        exact Set.mem_insert _ _
      · rw [same]
        exact Set.mem_insert_of_mem _ ⟨_, List.mem_cons_self, rfl⟩
    · exact Set.mem_insert_of_mem _ ⟨refund, List.mem_cons_of_mem _ member, rfl⟩
  · rintro timestamp (rfl | ⟨refund, member, rfl⟩)
    · exact (le_max_left _ _).trans old
    · rcases List.mem_cons.mp member with rfl | later
      · exact (le_max_right _ _).trans old
      · exact above (Set.mem_insert_of_mem _ ⟨refund, later, rfl⟩)

/-- A refund is settled by itself and by the refunds after it. -/
theorem settled_cons_refund {t : Store} {event : ValidOrderEvent} {amountMinor : ℤ} {now : Time}
    {later : List (ValidOrderEvent × ℤ)}
    (stamped : (s'.view orderId).version .status =
      if isFresh ((s.view orderId).version .status) event.timestamp then some (event.stamp .status)
      else (s.view orderId).version .status)
    (settled : Settled s' orderId (refundedOrder order amountMinor now) later t) :
    Settled s orderId order ((event, amountMinor) :: later) t := by
  obtain ⟨⟨order', found, paid, refunded, status⟩, stamp⟩ := settled
  have sum : (refundedOrder order amountMinor now).refundedAmountMinor + total later =
      order.refundedAmountMinor + total ((event, amountMinor) :: later) := by
    rw [total_cons]
    simp only [refundedOrder]
    ring
  refine ⟨⟨order', found, paid, refunded.trans sum, ?_⟩, ?_⟩
  · rw [status, sum, if_neg (List.cons_ne_nil _ _)]
    split
    · rename_i last
      rw [last, total_cons]
      simp [refundedOrder, total]
    · rfl
  · intro version held
    have held : (s.view orderId).version .status = some version := held
    rw [held] at stamped
    have moved : ∃ version', (s'.view orderId).version .status = some version' ∧
        version'.lastEventTimestamp = max version.lastEventTimestamp event.timestamp := by
      by_cases newer : version.lastEventTimestamp < event.timestamp
      · refine ⟨event.stamp .status, ?_, (max_eq_right newer.le).symm⟩
        rw [stamped, if_pos (by simpa [isFresh] using newer)]
      · refine ⟨version, ?_, (max_eq_left (not_lt.mp newer)).symm⟩
        rw [stamped, if_neg (by simpa [isFresh] using newer)]
    obtain ⟨version', held', newest⟩ := moved
    obtain ⟨final, found', greatest⟩ := stamp version' held'
    rw [newest] at greatest
    exact ⟨final, found', greatest_stamp greatest⟩

/-- An update in between leaves it to the refunds. -/
theorem settled_cons_update {t : Store} {order' : OrderEntity} {later : List (ValidOrderEvent × ℤ)}
    (status : order'.status = order.status) (paid : order'.paidAmountMinor = order.paidAmountMinor)
    (refunded : order'.refundedAmountMinor = order.refundedAmountMinor)
    (stamped : (s'.view orderId).version .status = (s.view orderId).version .status)
    (settled : Settled s' orderId order' later t) : Settled s orderId order later t := by
  obtain ⟨⟨final, found, paid', refunded', status'⟩, stamp⟩ := settled
  refine ⟨⟨final, found, paid'.trans paid, by rw [refunded', refunded], ?_⟩, ?_⟩
  · rw [status', status, refunded]
    simp only [refundStatus, paid]
  · exact fun version held => stamp version (stamped.trans held)

/-- The refund at the head of a list is accepted, and what is left stays
admissible for the order it leaves. -/
theorem refund_head {event : ValidOrderEvent} {amountMinor : ℤ} (consistent : s.Consistent)
    (present : (s.view orderId).order = some order) (captured : Captured order)
    (admissible : Admissible s orderId order (call :: rest)) (asks : refundOf call.1 = some (event, amountMinor)) :
    ((∃ decision, (s.processed call.1 call.2).decisionOf call.1.id = some decision ∧ decision.decision = .accepted) ∧
      ((s.processed call.1 call.2).view orderId).order = some (refundedOrder order amountMinor call.2.now) ∧
      ((s.processed call.1 call.2).view orderId).version .status =
        if isFresh ((s.view orderId).version .status) event.timestamp then some (event.stamp .status)
        else (s.view orderId).version .status) ∧
      Admissible (s.processed call.1 call.2) orderId (refundedOrder order amountMinor call.2.now) rest := by
  obtain ⟨-, committed, called⟩ := call_head consistent admissible.queued
  obtain ⟨event', valid, own, -⟩ := admissible.kinds call List.mem_cons_self
  obtain rfl := EventValidation.valid.inj (valid.symm.trans (refundOf_eq_some.mp asks).1)
  have sum := admissible.covered
  rw [refunds_cons_refund asks, total_cons] at sum
  have covered : amountMinor ≤ refundableAmountMinor order := by
    have others := total_nonneg rest
    simp only at sum
    omega
  have left : total (refunds rest) ≤ refundableAmountMinor (refundedOrder order amountMinor call.2.now) := by
    unfold refundableAmountMinor at sum ⊢
    simp only [refundedOrder] at sum ⊢
    omega
  have claimable := admissible.fresh call List.mem_cons_self event' amountMinor asks
  exact ⟨refund_call committed called.undecided asks own claimable present captured covered,
    admissible_tail admissible called.outcome left⟩

/-- An update at the head of a list leaves the rest admissible. -/
theorem update_head (consistent : s.Consistent) (present : (s.view orderId).order = some order)
    (admissible : Admissible s orderId order (call :: rest)) (asks : refundOf call.1 = none) :
    ∃ order', ((s.processed call.1 call.2).view orderId).order = some order' ∧ order'.status = order.status ∧
      order'.paidAmountMinor = order.paidAmountMinor ∧ order'.refundedAmountMinor = order.refundedAmountMinor ∧
      ((s.processed call.1 call.2).view orderId).version .status = (s.view orderId).version .status ∧
      Admissible (s.processed call.1 call.2) orderId order' rest := by
  obtain ⟨-, -, called⟩ := call_head consistent admissible.queued
  obtain ⟨event, valid, -, kind⟩ := admissible.kinds call List.mem_cons_self
  have type : event.type = .orderUpdated := by
    rcases kind with update | refund
    · exact update
    · rw [asks] at refund
      cases refund
  obtain ⟨⟨order', present', status, paid, refunded⟩, stamped⟩ := update_call called.outcome valid type present
  have left : total (refunds rest) ≤ refundableAmountMinor order' := by
    have sum := admissible.covered
    rw [refunds_cons_other asks] at sum
    unfold refundableAmountMinor at sum ⊢
    omega
  exact ⟨order', present', status, paid, refunded, stamped, admissible_tail admissible called.outcome left⟩

/-- **Every covered refund is accepted, and the refunds add up**, whatever their
order and whatever updates come in between. -/
theorem processAll_settled (calls : List (RawIncomingEventEntity × Host)) {order : OrderEntity}
    (consistent : s.Consistent) (present : s.orders.find orderId = some order) (captured : Captured order)
    (admissible : Admissible s orderId order calls) :
    (∀ delivery ∈ refundDeliveries calls, ∃ decision,
      (processAll s calls).decisionOf delivery.id = some decision ∧ decision.decision = .accepted) ∧
    Settled s orderId order (refunds calls) (processAll s calls) := by
  induction calls generalizing s order with
  | nil =>
    refine ⟨by simp [refundDeliveries], ⟨order, present, rfl, by simp [refunds, refundDeliveries, total], rfl⟩, ?_⟩
    intro version held
    refine ⟨version, held, Set.mem_insert _ _, ?_⟩
    rintro timestamp (rfl | ⟨refund, member, -⟩)
    · exact le_rfl
    · cases member
  | cons call rest ih =>
    obtain ⟨split, -, called⟩ := call_head consistent admissible.queued
    have consistent' := consistent_call called
    rw [split]
    cases asks : refundOf call.1 with
    | some refund =>
      obtain ⟨⟨⟨decision, decided, accepted⟩, present', stamped⟩, tail⟩ :=
        refund_head consistent present captured admissible asks
      obtain ⟨all, settled⟩ := ih consistent' present' (captured_refundedOrder _ _ _) tail
      rw [refundDeliveries_cons_refund asks, refunds_cons_refund asks]
      refine ⟨?_, settled_cons_refund stamped settled⟩
      intro delivery member
      rcases List.mem_cons.mp member with rfl | later
      · have apart : ∀ later ∈ rest, call.1.id ≠ later.1.id := fun later member =>
          (admissible.queued.apart later.1 (List.mem_map_of_mem member)).symm
        refine ⟨decision, ?_, accepted⟩
        rw [decisionOf_processAll consistent' tail.queued apart]
        exact decided
      · exact all delivery later
    | none =>
      obtain ⟨order', present', status, paid, refunded, stamped, tail⟩ :=
        update_head consistent present admissible asks
      have captured' : Captured order' := by
        unfold Captured
        rw [status]
        exact captured
      rw [refundDeliveries_cons_other asks, refunds_cons_other asks]
      obtain ⟨all, settled⟩ := ih consistent' present' captured' tail
      exact ⟨all, settled_cons_update status paid refunded stamped settled⟩

/-! ## The guarantee -/

/-- What refunds change of an order: the refunded amount, the status, and the
timestamp of the status version. -/
def refundState (s : Store) (orderId : String) : Option (ℤ × OrderStatus) × Option ℚ :=
  ((s.orders.find orderId).map fun order => (order.refundedAmountMinor, order.status),
    (s.orderFieldVersions.find (orderId, .status)).map (·.lastEventTimestamp))

/-- What holds of two ways of processing the same refunds. -/
structure RefundsCommute (s : Store) (orderId : String) (order : OrderEntity)
    (calls calls' : List (RawIncomingEventEntity × Host)) : Prop where
  /-- Every refund is accepted. -/
  accepted : ∀ delivery ∈ refundDeliveries calls, ∃ decision,
    (processAll s calls).decisionOf delivery.id = some decision ∧ decision.decision = .accepted
  /-- The amounts add up, and the order is `REFUNDED` exactly when they use up
  what was left to refund. -/
  money : ∃ order', (processAll s calls).orders.find orderId = some order' ∧
    order'.refundedAmountMinor = order.refundedAmountMinor + total (refunds calls) ∧
    (order'.status = .refunded ↔ total (refunds calls) = refundableAmountMinor order)
  /-- The status version has the greatest timestamp there has been. -/
  stamp : ∃ version version', s.orderFieldVersions.find (orderId, .status) = some version ∧
    (processAll s calls).orderFieldVersions.find (orderId, .status) = some version' ∧
    IsGreatest (insert version.lastEventTimestamp (timestamps (refunds calls))) version'.lastEventTimestamp
  /-- Both ways end alike. -/
  same : refundState (processAll s calls) orderId = refundState (processAll s calls') orderId

/-- Settling permuted refunds leads to one state. -/
theorem refundState_of_settled {t t' : Store} {refunds refunds' : List (ValidOrderEvent × ℤ)}
    (same : refunds.Perm refunds') (stamped : (s.orderFieldVersions.find (orderId, .status)).isSome)
    (settled : Settled s orderId order refunds t) (settled' : Settled s orderId order refunds' t') :
    refundState t orderId = refundState t' orderId := by
  obtain ⟨version, held⟩ := Option.isSome_iff_exists.mp stamped
  obtain ⟨⟨final, found, -, refunded, status⟩, stamp⟩ := settled
  obtain ⟨⟨final', found', -, refunded', status'⟩, stamp'⟩ := settled'
  obtain ⟨newest, kept, greatest⟩ := stamp version held
  obtain ⟨newest', kept', greatest'⟩ := stamp' version held
  have sum : total refunds = total refunds' := (same.map _).sum_eq
  have none_left : refunds = [] ↔ refunds' = [] := by
    rw [← List.length_eq_zero_iff, ← List.length_eq_zero_iff, same.length_eq]
  have times : timestamps refunds = timestamps refunds' := by
    ext timestamp
    simp only [timestamps, same.mem_iff]
  rw [times] at greatest
  simp only [refundState, found, found', kept, kept', Option.map_some, refunded, refunded', status, status', sum,
    none_left, greatest.unique greatest']

/-- Refunds leave an order `REFUNDED` exactly when they use up what was left. -/
theorem refunded_iff (refundable : order.status = .paid ∨ order.status = .partiallyRefunded)
    (left : 0 < refundableAmountMinor order) {refunds : List (ValidOrderEvent × ℤ)} :
    (if refunds = [] then order.status else refundStatus order (order.refundedAmountMinor + total refunds)) =
        .refunded ↔ total refunds = refundableAmountMinor order := by
  by_cases nothing : refunds = []
  · have unrefunded : order.status ≠ .refunded := by
      rcases refundable with paid | partially <;> simp [*]
    have short : total refunds ≠ refundableAmountMinor order := by
      rw [nothing]
      exact left.ne
    simp [nothing, unrefunded, nothing ▸ short]
  · unfold refundStatus refundableAmountMinor
    rw [if_neg nothing]
    by_cases full : order.refundedAmountMinor + total refunds = order.paidAmountMinor
    · simp only [full, ↓reduceIte, true_iff]
      omega
    · simp only [full, ↓reduceIte, reduceCtorEq, false_iff]
      omega

/-- **Refunds commute.** -/
theorem refunds_commute {sys : System} (reachable : Reachable sys) {orderId : String} {order : OrderEntity}
    (stored : sys.store.orders.find orderId = some order)
    (refundable : order.status = .paid ∨ order.status = .partiallyRefunded)
    {calls calls' : List (RawIncomingEventEntity × Host)} (admissible : Admissible sys.store orderId order calls)
    (admissible' : Admissible sys.store orderId order calls')
    (same : (refundDeliveries calls).Perm (refundDeliveries calls')) :
    RefundsCommute sys.store orderId order calls calls' := by
  have consistent := reachable.consistent.store
  have captured : Captured order := by
    unfold Captured
    rcases refundable with paid | partially <;> simp [*]
  have left : 0 < refundableAmountMinor order := by
    obtain ⟨-, -, money⟩ := Money.balanced_history (history_reachable reachable orderId) order stored
    unfold refundableAmountMinor
    rcases refundable with paid | partially
    · rw [paid] at money
      simp only at money
      omega
    · rw [partially] at money
      simp only at money
      omega
  have stamped : (sys.store.orderFieldVersions.find (orderId, .status)).isSome := by
    apply (Freshness.stamped_reachable reachable orderId).present.mp
    exact Option.isSome_of_eq_some stored
  obtain ⟨accepted, settled⟩ := processAll_settled calls consistent stored captured admissible
  obtain ⟨-, settled'⟩ := processAll_settled calls' consistent stored captured admissible'
  refine ⟨accepted, ?_, ?_, refundState_of_settled (same.filterMap _) stamped settled settled'⟩
  · obtain ⟨order', found, -, refunded, status⟩ := settled.money
    refine ⟨order', found, refunded, ?_⟩
    rw [status]
    exact refunded_iff refundable left
  · obtain ⟨version, held⟩ := Option.isSome_iff_exists.mp stamped
    obtain ⟨version', found, greatest⟩ := settled.stamp version held
    exact ⟨version, version', held, found, greatest⟩

/-! ## Two refunds in both orders -/

/-- Two more refunds of the order arrive, one of them late. -/
def twoRefundsActions : List Action :=
  outOfOrderActions ++ [.enqueueBatch
    [postedItem "late" "o" .refundIssued 3 (amountPayload "refundAmount" 10),
      postedItem "new" "o" .refundIssued 6 (amountPayload "refundAmount" 20)] 30000]

def twoRefundsSystem : System := (execute step (.started 0) twoRefundsActions).get (by decide +kernel)

def lateRefund : RawIncomingEventEntity := (twoRefundsSystem.store.rawIncomingEvents.find 6).get (by decide +kernel)

def newRefund : RawIncomingEventEntity := (twoRefundsSystem.store.rawIncomingEvents.find 7).get (by decide +kernel)

def refundedSoFar : OrderEntity := (twoRefundsSystem.store.orders.find "o").get (by decide +kernel)

/-- A waiting refund whose event nobody has claimed. -/
structure Offers (s : Store) (delivery : RawIncomingEventEntity) (event : ValidOrderEvent) (amountMinor : ℤ) : Prop where
  asks : refundOf delivery = some (event, amountMinor)
  stored : s.rawIncomingEvents.find delivery.id = some delivery
  undecided : s.decisionOf delivery.id = none
  unclaimed : s.processedEventKeys.find event.eventId = none

/-- Two such refunds are admissible when the order covers both. -/
theorem admissible_pair {first second : RawIncomingEventEntity} {event event' : ValidOrderEvent}
    {amountMinor amountMinor' : ℤ} (former : Offers s first event amountMinor)
    (latter : Offers s second event' amountMinor') (own : event.orderId = orderId) (own' : event'.orderId = orderId)
    (apart : first.id ≠ second.id) (distinct : event.eventId ≠ event'.eventId)
    (covered : amountMinor + amountMinor' ≤ refundableAmountMinor order) (host host' : Host) :
    Admissible s orderId order [(first, host), (second, host')] := by
  have valid := (refundOf_eq_some.mp former.asks).1
  have valid' := (refundOf_eq_some.mp latter.asks).1
  refine ⟨⟨?_, ?_, by simpa using apart⟩, ?_, ?_, ?_, ?_⟩
  · simp [former.stored, latter.stored]
  · simp [former.undecided, latter.undecided]
  · simp only [List.mem_cons, List.not_mem_nil, or_false, forall_eq_or_imp, forall_eq]
    exact ⟨⟨event, valid, own, Or.inr (by rw [former.asks]; rfl)⟩,
      ⟨event', valid', own', Or.inr (by rw [latter.asks]; rfl)⟩⟩
  · simp only [List.mem_cons, List.not_mem_nil, or_false, forall_eq_or_imp, forall_eq, former.asks, latter.asks,
      Option.some.injEq, Prod.mk.injEq]
    refine ⟨?_, ?_⟩
    · rintro _ _ ⟨rfl, rfl⟩ key held
      cases former.unclaimed.symm.trans held
    · rintro _ _ ⟨rfl, rfl⟩ key held
      cases latter.unclaimed.symm.trans held
  · simp only [List.pairwise_cons, List.mem_singleton, forall_eq, List.not_mem_nil, false_implies, implies_true,
      List.Pairwise.nil, and_true]
    intro one other read read' _
    obtain rfl := EventValidation.valid.inj (valid.symm.trans read)
    obtain rfl := EventValidation.valid.inj (valid'.symm.trans read')
    exact distinct
  · rw [refunds_cons_refund former.asks, refunds_cons_refund latter.asks]
    simpa [total, refunds, refundDeliveries] using covered

/-- What a delivery that was posted as a refund offers. -/
theorem offers_posted {id : ℕ} {eventId : String} {amountMinor : ℤ}
    (found : s.rawIncomingEvents.find id = some delivery)
    (posted : (refundOf delivery).map (fun refund => (refund.1.eventId, refund.1.orderId, refund.2)) =
      some (eventId, orderId, amountMinor))
    (undecided : ¬ (s.decisionOf id).isSome) (unclaimed : s.processedEventKeys.find eventId = none) :
    ∃ event, Offers s delivery event amountMinor ∧ event.eventId = eventId ∧ event.orderId = orderId := by
  obtain ⟨⟨event, amount⟩, asks, read⟩ := Option.map_eq_some_iff.mp posted
  simp only [Prod.mk.injEq] at read
  obtain ⟨rfl, rfl, rfl⟩ := read
  obtain rfl : delivery.id = id := s.rawIncomingEvents.id_of_find found
  rw [Option.not_isSome_iff_eq_none] at undecided
  exact ⟨event, ⟨asks, found, undecided, unclaimed⟩, rfl, rfl⟩

theorem refunds_commute_late_refund :
    RefundsCommute twoRefundsSystem.store "o" refundedSoFar
      [(lateRefund, stoppedAt 30000), (newRefund, stoppedAt 30000)]
      [(newRefund, stoppedAt 30000), (lateRefund, stoppedAt 30000)] := by
  have run : Run step (.started 0) twoRefundsActions twoRefundsSystem := run_of_enabled _
  obtain ⟨late, offers, id, own⟩ := @offers_posted twoRefundsSystem.store lateRefund "o" 6 "late" 1000
    (Option.some_get _).symm (by decide +kernel) (by decide +kernel) (by decide +kernel)
  obtain ⟨new, offers', id', own'⟩ := @offers_posted twoRefundsSystem.store newRefund "o" 7 "new" 2000
    (Option.some_get _).symm (by decide +kernel) (by decide +kernel) (by decide +kernel)
  have apart : lateRefund.id ≠ newRefund.id := by decide +kernel
  have distinct : late.eventId ≠ new.eventId := by
    rw [id, id']
    decide
  have covered : 1000 + 2000 ≤ refundableAmountMinor refundedSoFar := by decide +kernel
  have partially : refundedSoFar.status = .partiallyRefunded := by decide +kernel
  refine refunds_commute (reachable_of_run run) (Option.some_get _).symm (Or.inr partially)
    (admissible_pair offers offers' own own' apart distinct covered _ _)
    (admissible_pair offers' offers own' own apart.symm distinct.symm (by rwa [add_comm]) _ _) ?_
  exact (List.Perm.swap _ _ []).filter _

end EventEngine.Refunds
