import EventEngine.Outcomes

/-! The life of a delivery. An undecided delivery is `PENDING` with no attempts
or `RETRY` with one or two; a decided one is `DONE` with the attempts its
decision allows. -/
namespace EventEngine
open Relational

/-! ## Inbox and audit log under each effect -/

section Frames
variable (s : Store)

@[simp] theorem decisionOf_postpone (delivery : RawIncomingEventEntity) (message : String) (at' : Time) (id : ℕ) :
    (s.postpone delivery message at').decisionOf id = s.decisionOf id := rfl

@[simp] theorem rawIncomingEvents_claim (eventId : String) (rawIncomingEventId : ℕ) :
    (s.claim eventId rawIncomingEventId).rawIncomingEvents = s.rawIncomingEvents := rfl

variable (record : EventDecisionEntity) (message : Option String) (count : Option ℕ)

@[simp] theorem stats_settle : (s.settle record message count).stats.isSome = s.stats.isSome := by
  simp [Store.settle]

@[simp] theorem rows_settle : (s.settle record message count).eventDecisions.rows =
    s.eventDecisions.rows ++ [{ record with id := s.eventDecisions.next }] := rfl

/-- A new decision is seen by the delivery it is about, unless that delivery
already had one. -/
theorem decisionOf_settle (id : ℕ) : (s.settle record message count).decisionOf id =
    (s.decisionOf id).or
      (if id = record.rawIncomingEventId then some { record with id := s.eventDecisions.next } else none) := by
  simp only [Store.decisionOf, rows_settle, List.find?_append, List.find?_singleton]
  congr 1
  by_cases same : id = record.rawIncomingEventId
  · simp [same]
  · simp [same, beq_false_of_ne (Ne.symm same)]

theorem decisionOf_settle_self (undecided : s.decisionOf record.rawIncomingEventId = none) :
    (s.settle record message count).decisionOf record.rawIncomingEventId =
      some { record with id := s.eventDecisions.next } := by
  rw [decisionOf_settle, undecided]
  simp

theorem decisionOf_settle_isSome :
    ((s.settle record message count).decisionOf record.rawIncomingEventId).isSome := by
  rw [decisionOf_settle]
  simp

theorem decisionOf_settle_of_ne {id : ℕ} (other : id ≠ record.rawIncomingEventId) :
    (s.settle record message count).decisionOf id = s.decisionOf id := by
  rw [decisionOf_settle]
  simp [other]

theorem findRow_settle (id : ℕ) : (s.settle record message count).rawIncomingEvents.find id =
    (s.rawIncomingEvents.find id).map fun row =>
      if id = record.rawIncomingEventId then row.settled record.createdAt message count else row :=
  s.rawIncomingEvents.find_modify (·.settled record.createdAt message count) (fun _ => rfl) id

theorem findRow_postpone (delivery : RawIncomingEventEntity) (errorMessage : String) (at' : Time) (id : ℕ) :
    (s.postpone delivery errorMessage at').rawIncomingEvents.find id =
      (s.rawIncomingEvents.find id).map fun row =>
        if id = delivery.id then row.postponed (delivery.attempts + 1) errorMessage at' else row :=
  s.rawIncomingEvents.find_modify (·.postponed (delivery.attempts + 1) errorMessage at') (fun _ => rfl) id

end Frames

/-! ## The inbox after a request -/

section Enqueue
variable {s : Store} {events : List JsonValue} {receivedAt : Time} {id : ℕ} {row : RawIncomingEventEntity}

@[simp] theorem decisionOf_enqueueBatch : (enqueueBatch s events receivedAt).decisionOf id = s.decisionOf id := rfl

@[simp] theorem view_enqueueBatch (orderId : String) :
    (enqueueBatch s events receivedAt).view orderId = s.view orderId := rfl

/-- A delivery already there is not touched. -/
theorem findRow_enqueueBatch (found : s.rawIncomingEvents.find id = some row) :
    (enqueueBatch s events receivedAt).rawIncomingEvents.find id = some row := by
  unfold enqueueBatch
  simp only
  generalize s.rawIncomingEvents = table at found
  induction events generalizing table with
  | nil => exact found
  | cons event rest ih => exact ih _ (table.find_insert _ _ found)

/-- A delivery that was not there before was made from one of the posted items. -/
theorem findRow_enqueueBatch_cases (found : (enqueueBatch s events receivedAt).rawIncomingEvents.find id = some row) :
    s.rawIncomingEvents.find id = some row ∨ s.rawIncomingEvents.find id = none ∧
      ∃ event ∈ events, row = createRawIncomingEvent event receivedAt id := by
  unfold enqueueBatch at found
  simp only at found
  generalize s.rawIncomingEvents = table at found ⊢
  induction events generalizing table with
  | nil => exact Or.inl found
  | cons event rest ih =>
    rcases ih _ found with before | ⟨fresh, posted, member, made⟩
    · by_cases new : id = table.next
      · subst new
        rw [SerialTable.find_insert_next, Option.some.injEq] at before
        exact Or.inr ⟨table.find_next, event, List.mem_cons_self, before.symm⟩
      · rw [SerialTable.find_insert_of_ne _ _ _ new] at before
        exact Or.inl before
    · by_cases new : id = table.next
      · subst new
        rw [SerialTable.find_insert_next] at fresh
        cases fresh
      · rw [SerialTable.find_insert_of_ne _ _ _ new] at fresh
        exact Or.inr ⟨fresh, posted, List.mem_cons_of_mem _ member, made⟩

end Enqueue

/-! ## Consistency -/

/-- The attempts a delivery has used when it receives the decision. -/
def attemptsAt (decision : EventDecisionEntity) (attempts : ℕ) : Prop :=
  if decision.decision = .failed then attempts = 2
  else if decision.decision = .rejected ∧ decision.reasonCode = .orderNotReady then attempts = 3
  else attempts ≤ 2

/-- A delivery that still waits: `PENDING` before its first attempt, `RETRY`
after its first or second. -/
def RawIncomingEventEntity.Waiting (row : RawIncomingEventEntity) : Prop :=
  row.processingStatus = .pending ∧ row.attempts = 0 ∨
    row.processingStatus = .retry ∧ 1 ≤ row.attempts ∧ row.attempts ≤ 2

/-- The bookkeeping of a delivery agrees with the decision it has or lacks. -/
def RawIncomingEventEntity.Tracks (row : RawIncomingEventEntity) : Option EventDecisionEntity → Prop
  | none => row.Waiting
  | some decision => row.processingStatus = .done ∧ attemptsAt decision row.attempts

/-- The store between two transactions. -/
structure Store.Consistent (s : Store) : Prop extends s.Operational where
  tracked : ∀ id row, s.rawIncomingEvents.find id = some row → row.Tracks (s.decisionOf id)
  delivered : ∀ decision ∈ s.eventDecisions.rows, (s.rawIncomingEvents.find decision.rawIncomingEventId).isSome
  decided_once : (s.eventDecisions.rows.map (·.rawIncomingEventId)).Nodup

theorem Store.Consistent.waiting {s : Store} (consistent : s.Consistent) {row : RawIncomingEventEntity}
    (stored : s.rawIncomingEvents.find row.id = some row) (undecided : s.decisionOf row.id = none) : row.Waiting := by
  have tracked := consistent.tracked _ _ stored
  rwa [undecided] at tracked

theorem Store.Consistent.done_iff {s : Store} (consistent : s.Consistent) {row : RawIncomingEventEntity}
    (stored : s.rawIncomingEvents.find row.id = some row) :
    row.processingStatus = .done ↔ (s.decisionOf row.id).isSome := by
  have tracked := consistent.tracked _ _ stored
  cases decided : s.decisionOf row.id with
  | none =>
    rw [decided] at tracked
    rcases tracked with ⟨pending, -⟩ | ⟨retry, -⟩ <;> simp [*]
  | some decision =>
    rw [decided] at tracked
    simp [tracked.1]

/-- What the polling query selects is what has no decision. -/
theorem Store.Consistent.undecided_iff {s : Store} (consistent : s.Consistent) {row : RawIncomingEventEntity}
    (stored : s.rawIncomingEvents.find row.id = some row) :
    s.decisionOf row.id = none ↔ row.processingStatus = .pending ∨ row.processingStatus = .retry := by
  rw [← Option.not_isSome_iff_eq_none, ← consistent.done_iff stored]
  cases row.processingStatus <;> simp

/-- The decision of a delivery is the one row of the log about it. -/
theorem decisionOf_eq_some {s : Store} (consistent : s.Consistent) {decision : EventDecisionEntity} {id : ℕ} :
    s.decisionOf id = some decision ↔ decision ∈ s.eventDecisions.rows ∧ decision.rawIncomingEventId = id := by
  constructor
  · intro found
    exact ⟨List.mem_of_find?_eq_some found, by simpa using List.find?_some found⟩
  · rintro ⟨member, rfl⟩
    cases found : s.decisionOf decision.rawIncomingEventId with
    | none =>
      have absent := List.find?_eq_none.mp found decision member
      simp at absent
    | some other =>
      have held := List.mem_of_find?_eq_some found
      have same : other.rawIncomingEventId = decision.rawIncomingEventId := by simpa using List.find?_some found
      rw [List.inj_on_of_nodup_map consistent.decided_once held member same]

/-- A delivery not in the inbox has no decision. -/
theorem Store.Consistent.undecided_of_absent {s : Store} (consistent : s.Consistent) {id : ℕ}
    (absent : s.rawIncomingEvents.find id = none) : s.decisionOf id = none := by
  rw [Store.decisionOf, List.find?_eq_none]
  intro decision member same
  have held := consistent.delivered decision member
  rw [beq_iff_eq.mp same, absent] at held
  cases held

theorem consistent_migrated (now : Time) : (Store.migrated now).Consistent where
  stats := rfl
  persisted := by
    intro orderId order found
    cases found
  tracked := by
    intro id row found
    cases found
  delivered := by
    intro decision member
    cases member
  decided_once := List.nodup_nil

theorem consistent_enqueueBatch {s : Store} (consistent : s.Consistent) (events : List JsonValue)
    (receivedAt : Time) : (enqueueBatch s events receivedAt).Consistent where
  stats := consistent.stats
  persisted := consistent.persisted
  tracked := by
    intro id row found
    rw [decisionOf_enqueueBatch]
    rcases findRow_enqueueBatch_cases found with before | ⟨absent, event, -, rfl⟩
    · exact consistent.tracked id row before
    · obtain ⟨pending, unattempted, -⟩ := createRawIncomingEvent_lifecycle event receivedAt id
      rw [consistent.undecided_of_absent absent]
      exact Or.inl ⟨pending, unattempted⟩
  delivered := by
    intro decision member
    obtain ⟨row, found⟩ := Option.isSome_iff_exists.mp (consistent.delivered decision member)
    rw [findRow_enqueueBatch found]
    rfl
  decided_once := consistent.decided_once

/-! ## Every outcome keeps the store consistent -/

variable {s s' : Store} {delivery : RawIncomingEventEntity} {host : Host}

theorem consistent_claim (consistent : s.Consistent) (eventId : String) (rawIncomingEventId : ℕ) :
    (s.claim eventId rawIncomingEventId).Consistent where
  stats := consistent.stats
  persisted := consistent.persisted
  tracked := consistent.tracked
  delivered := consistent.delivered
  decided_once := consistent.decided_once

theorem consistent_postpone (consistent : s.Consistent) (undecided : s.decisionOf delivery.id = none)
    (again : delivery.attempts + 1 < 3) (errorMessage : String) (availableAt : Time) :
    (s.postpone delivery errorMessage availableAt).Consistent where
  stats := consistent.stats
  persisted := consistent.persisted
  tracked := by
    intro id row found
    rw [findRow_postpone] at found
    obtain ⟨old, held, rfl⟩ := Option.map_eq_some_iff.mp found
    rw [decisionOf_postpone]
    split
    · rename_i same
      rw [same, undecided]
      right
      simp only [RawIncomingEventEntity.postponed, true_and]
      omega
    · exact consistent.tracked id old held
  delivered := by
    intro decision member
    rw [findRow_postpone, Option.isSome_map]
    exact consistent.delivered decision member
  decided_once := consistent.decided_once

theorem consistent_settle (consistent : s.Consistent) (record : EventDecisionEntity) {row : RawIncomingEventEntity}
    (stored : s.rawIncomingEvents.find record.rawIncomingEventId = some row)
    (undecided : s.decisionOf record.rawIncomingEventId = none) (count : Option ℕ)
    (attempted : attemptsAt record (count.getD row.attempts)) (message : Option String) :
    (s.settle record message count).Consistent where
  stats := (stats_settle s record message count).trans consistent.stats
  persisted := consistent.persisted
  tracked := by
    intro id row' found
    rw [findRow_settle] at found
    obtain ⟨old, held, rfl⟩ := Option.map_eq_some_iff.mp found
    split
    · rename_i same
      subst same
      rw [stored, Option.some.injEq] at held
      subst held
      rw [decisionOf_settle_self _ _ _ _ undecided]
      exact ⟨rfl, attempted⟩
    · rename_i other
      rw [decisionOf_settle_of_ne _ _ _ _ other]
      exact consistent.tracked id old held
  delivered := by
    intro decision member
    rw [findRow_settle, Option.isSome_map]
    rw [rows_settle, List.mem_append, List.mem_singleton] at member
    rcases member with old | rfl
    · exact consistent.delivered decision old
    · simp [stored]
  decided_once := by
    rw [rows_settle, List.map_append, List.nodup_append]
    refine ⟨consistent.decided_once, List.nodup_singleton _, ?_⟩
    intro id earlier id' last same
    obtain ⟨decision, member, rfl⟩ := List.mem_map.mp earlier
    rw [List.map_singleton, List.mem_singleton] at last
    rw [Store.decisionOf, List.find?_eq_none] at undecided
    exact undecided decision member (beq_iff_eq.mpr (same.trans last))

theorem consistent_write (consistent : s.Consistent) {event : ValidOrderEvent} {application : Application}
    {now : Time} (accepts : Accepts (s.view event.orderId) event now application) :
    (s.write event application).Consistent where
  stats := consistent.stats
  persisted := by
    intro orderId
    have own : application.order.orderId = event.orderId :=
      accepts.orderId fun _ found => orderId_of_view found
    rw [view_write _ _ _ own]
    split
    · intro order found
      rw [OrderView.apply, Option.some.injEq] at found
      rw [← found]
      exact accepts.persisted (consistent.persisted _)
    · exact consistent.persisted orderId
  tracked := consistent.tracked
  delivered := consistent.delivered
  decided_once := consistent.decided_once

/-- **Consistency is kept by every outcome of a call on an undecided delivery.** -/
theorem consistent_outcome (consistent : s.Consistent)
    (stored : s.rawIncomingEvents.find delivery.id = some delivery)
    (undecided : s.decisionOf delivery.id = none) (outcome : Outcome s delivery host s') : s'.Consistent := by
  have attempted : delivery.attempts ≤ 2 := by
    rcases consistent.waiting stored undecided with ⟨-, unattempted⟩ | ⟨-, -, retried⟩ <;> omega
  cases outcome with
  | retried errorMessage again => exact consistent_postpone consistent undecided again _ _
  | failed errorMessage exhausted =>
    refine consistent_settle consistent _ stored undecided none ?_ _
    simp only [attemptsAt, failedRecord, FinalDecisionInput.record, ↓reduceIte, Option.getD_none]
    unfold maxProcessingAttempts at exhausted
    omega
  | committed committed =>
    cases committed with
    | invalid invalid =>
      refine consistent_settle consistent _ stored undecided none ?_ _
      rcases invalid_reason invalid with rfl | rfl <;>
        simpa [attemptsAt, invalidRecord, FinalDecisionInput.record] using attempted
    | duplicate =>
      refine consistent_settle consistent _ stored undecided none ?_ _
      simpa [attemptsAt, duplicateRecord, FinalDecisionInput.record] using attempted
    | @deferred event valid claimable waits again =>
      exact consistent_postpone (consistent_claim consistent event.eventId delivery.id) undecided again _ _
    | @expired event valid claimable waits exhausted =>
      have claimed := consistent_claim consistent event.eventId delivery.id
      refine consistent_settle claimed (rejection ..) stored undecided _ ?_ _
      simp only [attemptsAt, rejection, FinalDecisionInput.record, reduceCtorEq, and_self, ↓reduceIte,
        Option.getD_some]
      unfold OrderApplicationDecision.maxRetryableAttempts at exhausted
      omega
    | @rejected event _ _ _ valid claimable judged =>
      have claimed := consistent_claim consistent event.eventId delivery.id
      refine consistent_settle claimed (rejection ..) stored undecided none ?_ _
      have reason := (refusal_of_judge judged).reason
      simpa [attemptsAt, rejection, FinalDecisionInput.record, reason] using attempted
    | @applied event application valid claimable judged =>
      have accepts := accepts_of_judge judged
      have written := consistent_write (consistent_claim consistent event.eventId delivery.id) accepts
      refine consistent_settle written (application.record delivery host) stored undecided none ?_ _
      rcases accepts.decision with accepted | merged <;>
        simp [attemptsAt, Application.record, FinalDecisionInput.record, *]

/-! ## Postponed or settled -/

/-- As far as the inbox and the audit log can tell, a call does one of two
things to its delivery. -/
inductive Disposition (s : Store) (delivery : RawIncomingEventEntity) (s' : Store) : Prop where
  | postponed (errorMessage : String) (availableAt : Time) (again : delivery.attempts + 1 < 3)
      (inbox : s'.rawIncomingEvents = (s.postpone delivery errorMessage availableAt).rawIncomingEvents)
      (log : s'.eventDecisions = s.eventDecisions)
  | settled (record : EventDecisionEntity) (message : Option String) (count : Option ℕ)
      (about : record.rawIncomingEventId = delivery.id)
      (inbox : s'.rawIncomingEvents = (s.settle record message count).rawIncomingEvents)
      (log : s'.eventDecisions = (s.settle record message count).eventDecisions)

theorem Outcome.disposition (outcome : Outcome s delivery host s') : Disposition s delivery s' := by
  cases outcome with
  | retried errorMessage again => exact .postponed _ _ again rfl rfl
  | failed errorMessage => exact .settled _ _ _ rfl rfl rfl
  | committed committed =>
    cases committed with
    | deferred _ _ _ again => exact .postponed _ _ again rfl rfl
    | invalid | duplicate | expired | rejected | applied => exact .settled _ _ _ rfl rfl rfl

/-- A delivery is left as it is by a call on another. -/
theorem findRow_outcome (outcome : Outcome s delivery host s') {id : ℕ} (other : id ≠ delivery.id) :
    s'.rawIncomingEvents.find id = s.rawIncomingEvents.find id := by
  cases outcome.disposition with
  | postponed message availableAt _ inbox =>
    rw [inbox, findRow_postpone]
    simp [other]
  | settled record message count about inbox =>
    rw [inbox, findRow_settle]
    simp [about, other]

theorem decisionOf_outcome (outcome : Outcome s delivery host s') {id : ℕ} (other : id ≠ delivery.id) :
    s'.decisionOf id = s.decisionOf id := by
  cases outcome.disposition with
  | postponed _ _ _ _ log => rw [Store.decisionOf, log, Store.decisionOf]
  | settled record message count about _ log =>
    have settled := decisionOf_settle_of_ne s record message count (about ▸ other)
    rwa [Store.decisionOf, ← log] at settled

/-! ## The event of a delivery -/

/-- The event a delivery validates with. -/
def Store.eventOf (s : Store) (rawIncomingEventId : ℕ) : Option ValidOrderEvent :=
  (s.rawIncomingEvents.find rawIncomingEventId).bind validEvent?

theorem eventOf_stored (stored : s.rawIncomingEvents.find delivery.id = some delivery) :
    s.eventOf delivery.id = validEvent? delivery := by
  rw [Store.eventOf, stored]
  rfl

/-- No call changes what a delivery validates with. -/
theorem eventOf_outcome (outcome : Outcome s delivery host s') (id : ℕ) : s'.eventOf id = s.eventOf id := by
  have same : ∀ change : RawIncomingEventEntity → RawIncomingEventEntity,
      (∀ row, (change row).rawEventJson = row.rawEventJson) →
      ((s.rawIncomingEvents.find id).map change).bind validEvent? = s.eventOf id := by
    intro change text
    unfold Store.eventOf
    cases s.rawIncomingEvents.find id with
    | none => rfl
    | some row =>
      simp only [Option.map_some, Option.bind_some, validEvent?]
      rw [validate_congr (text row)]
  cases outcome.disposition with
  | postponed message availableAt _ inbox =>
    rw [Store.eventOf, inbox, findRow_postpone]
    apply same
    intro row
    split <;> rfl
  | settled record message count _ inbox =>
    rw [Store.eventOf, inbox, findRow_settle]
    apply same
    intro row
    split <;> rfl

theorem eventOf_enqueueBatch {event : ValidOrderEvent} {id : ℕ} (known : s.eventOf id = some event)
    (events : List JsonValue) (receivedAt : Time) : (enqueueBatch s events receivedAt).eventOf id = some event := by
  obtain ⟨row, found, valid⟩ := Option.bind_eq_some_iff.mp known
  rw [Store.eventOf, findRow_enqueueBatch found]
  exact valid

/-- A request leaves the events of the deliveries already there alone. -/
theorem eventOf_enqueueBatch_of_found {id : ℕ} (found : (s.rawIncomingEvents.find id).isSome)
    (events : List JsonValue) (receivedAt : Time) : (enqueueBatch s events receivedAt).eventOf id = s.eventOf id := by
  obtain ⟨row, held⟩ := Option.isSome_iff_exists.mp found
  rw [Store.eventOf, findRow_enqueueBatch held, Store.eventOf, held]

/-! ## Applied or not -/

/-- As far as the orders can tell, a call does one of two things: it moves none
and logs at most a decision that says so, or it applies its delivery's event. -/
inductive Effect (s : Store) (delivery : RawIncomingEventEntity) (host : Host) (s' : Store) : Prop where
  | unapplied (orders : s'.orders = s.orders) (versions : s'.orderFieldVersions = s.orderFieldVersions)
      (log : s'.eventDecisions.rows = s.eventDecisions.rows ∨ ∃ record : EventDecisionEntity,
        s'.eventDecisions.rows = s.eventDecisions.rows ++ [record] ∧ record.rawIncomingEventId = delivery.id ∧
          record.decision ≠ .accepted ∧ record.decision ≠ .partiallyApplied)
  | applied {event : ValidOrderEvent} {application : Application} (valid : validate delivery = .valid event)
      (judged : judge (s.view event.orderId) event host.now = .applied application)
      (written : s' = ((s.claim event.eventId delivery.id).write event application).settle
        (application.record delivery host) none none)

theorem Outcome.effect (outcome : Outcome s delivery host s') : Effect s delivery host s' := by
  cases outcome with
  | retried => exact .unapplied rfl rfl (Or.inl rfl)
  | failed => exact .unapplied rfl rfl (Or.inr ⟨_, rfl, rfl, by simp [failedRecord, FinalDecisionInput.record]⟩)
  | committed committed =>
    cases committed with
    | deferred => exact .unapplied rfl rfl (Or.inl rfl)
    | invalid => exact .unapplied rfl rfl (Or.inr ⟨_, rfl, rfl, by simp [invalidRecord, FinalDecisionInput.record]⟩)
    | duplicate => exact .unapplied rfl rfl (Or.inr ⟨_, rfl, rfl, by simp [duplicateRecord, FinalDecisionInput.record]⟩)
    | expired | rejected => exact .unapplied rfl rfl (Or.inr ⟨_, rfl, rfl, by simp [rejection, FinalDecisionInput.record]⟩)
    | applied valid _ judged => exact .applied valid judged rfl

/-- An application of an event moves the view of its order, and of no other. -/
theorem view_applied {event : ValidOrderEvent} {application : Application}
    (judged : judge (s.view event.orderId) event host.now = .applied application) (orderId : String) :
    (((s.claim event.eventId delivery.id).write event application).settle (application.record delivery host) none
        none).view orderId =
      if orderId = event.orderId then (s.view orderId).apply event application else s.view orderId := by
  have own : application.order.orderId = event.orderId :=
    (accepts_of_judge judged).orderId fun _ found => orderId_of_view found
  exact view_write (s.claim event.eventId delivery.id) event application own orderId

/-- A call leaves the view of an order alone, or applies its delivery's event to it. -/
theorem view_outcome (outcome : Outcome s delivery host s') (orderId : String) :
    s'.view orderId = s.view orderId ∨
      ∃ event application, validate delivery = .valid event ∧ event.orderId = orderId ∧
        Accepts (s.view orderId) event host.now application ∧
        s'.view orderId = (s.view orderId).apply event application := by
  cases outcome.effect with
  | unapplied orders versions => exact Or.inl (by rw [Store.view, orders, versions, Store.view])
  | @applied event application valid judged written =>
    rw [written, view_applied judged]
    split
    · rename_i same
      subst same
      exact Or.inr ⟨event, application, valid, rfl, accepts_of_judge judged, rfl⟩
    · exact Or.inl rfl

/-- An order that exists keeps existing. -/
theorem order_kept (outcome : Outcome s delivery host s') {orderId : String}
    (present : (s.view orderId).order.isSome) : (s'.view orderId).order.isSome := by
  rcases view_outcome outcome orderId with same | ⟨event, application, -, -, -, applied⟩
  · rw [same]
    exact present
  · rw [applied]
    rfl

end EventEngine
