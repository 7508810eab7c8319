import EventEngine.Polling

/-! A delivery that is not applied leaves no trace in the order data. What is
left of it is where the delivery itself stands, and, when its processing threw
for the last time, one `FAILED` decision. -/
namespace EventEngine.Atomicity
open EventEngine Relational

/-- Two rows of the inbox that differ at most in where the delivery stands:
`processing_status`, `available_at`, `attempts` and `last_error_message`. -/
structure SameDelivery (row row' : RawIncomingEventEntity) : Prop where
  id : row'.id = row.id
  eventId : row'.eventId = row.eventId
  orderId : row'.orderId = row.orderId
  type : row'.type = row.type
  eventTimestamp : row'.eventTimestamp = row.eventTimestamp
  rawEventJson : row'.rawEventJson = row.rawEventJson
  receivedAt : row'.receivedAt = row.receivedAt

/-- A later inbox has the row of a delivery, with at most its standing changed. -/
def KeepsDeliveries (s t : Store) : Prop :=
  ∀ id row, s.rawIncomingEvents.find id = some row →
    ∃ row', t.rawIncomingEvents.find id = some row' ∧ SameDelivery row row'

/-- The order data is as it was, and of the inbox at most the standing of one
delivery has changed. -/
structure Traceless (s : Store) (delivery : RawIncomingEventEntity) (s' : Store) : Prop where
  orders : s'.orders = s.orders
  orderFieldVersions : s'.orderFieldVersions = s.orderFieldVersions
  inbox : ∃ delivery', SameDelivery delivery delivery' ∧ s'.rawIncomingEvents.rows =
    s.rawIncomingEvents.rows.map fun row => if row.id = delivery.id then delivery' else row

/-- The processing transaction throws. -/
def Throws (s : Store) (delivery : RawIncomingEventEntity) (host : Host) (fault : Option Fault) : Prop :=
  ∃ errorMessage, (transaction fault (processEventTransaction delivery host) s).1 = .error errorMessage

/-- The delivery ended `REJECTED` or `DUPLICATE`, or is deferred. -/
def Unapplied (s' : Store) (delivery : RawIncomingEventEntity) : Prop :=
  (∃ decision, s'.decisionOf delivery.id = some decision ∧
    (decision.decision = .rejected ∨ decision.decision = .duplicate)) ∨
  ∃ row, s'.rawIncomingEvents.find delivery.id = some row ∧ row.processingStatus = .retry

/-- What is left of an attempt whose processing transaction threw and whose
failure was recorded: the keys are as they were, and so are the audit log and
the statistics unless this was the third attempt. -/
structure FailureRecorded (s : Store) (delivery : RawIncomingEventEntity) (s' : Store) : Prop where
  keys : s'.processedEventKeys = s.processedEventKeys
  again : delivery.attempts + 1 < 3 → s'.eventDecisions = s.eventDecisions ∧ s'.stats = s.stats
  third : delivery.attempts + 1 = 3 → ∃ failed : EventDecisionEntity,
    s'.eventDecisions.rows = s.eventDecisions.rows ++ [failed] ∧
    failed.rawIncomingEventId = delivery.id ∧ failed.decision = .failed ∧
    ∃ stats stats', s.stats = some stats ∧ s'.stats = some stats' ∧
      stats'.processedEventsCount = stats.processedEventsCount + 1 ∧
      stats'.rejectedEventsCount = stats.rejectedEventsCount + 1 ∧
      stats'.validEventsCount = stats.validEventsCount ∧
      stats'.duplicateEventsCount = stats.duplicateEventsCount

variable {s s' : Store} {delivery : RawIncomingEventEntity} {host : Host}

/-! ## Rows of the inbox -/

theorem SameDelivery.refl (row : RawIncomingEventEntity) : SameDelivery row row :=
  ⟨rfl, rfl, rfl, rfl, rfl, rfl, rfl⟩

theorem SameDelivery.trans {first second third : RawIncomingEventEntity} (former : SameDelivery first second)
    (latter : SameDelivery second third) : SameDelivery first third where
  id := latter.id.trans former.id
  eventId := latter.eventId.trans former.eventId
  orderId := latter.orderId.trans former.orderId
  type := latter.type.trans former.type
  eventTimestamp := latter.eventTimestamp.trans former.eventTimestamp
  rawEventJson := latter.rawEventJson.trans former.rawEventJson
  receivedAt := latter.receivedAt.trans former.receivedAt

/-- Rewriting the row of a stored delivery puts one row in its place. -/
theorem modify_stored (stored : s.rawIncomingEvents.find delivery.id = some delivery)
    (change : RawIncomingEventEntity → RawIncomingEventEntity) :
    (s.rawIncomingEvents.rows.map fun row => if row.id = delivery.id then change row else row) =
      s.rawIncomingEvents.rows.map fun row => if row.id = delivery.id then change delivery else row := by
  apply List.map_congr_left
  intro row member
  split
  · rename_i same
    have held := (s.rawIncomingEvents.find_eq_some.mp stored).1
    rw [s.rawIncomingEvents.row_unique member held same]
  · rfl

/-- Whatever a call does, of the inbox it touches at most the standing of its
own delivery. -/
theorem inbox_outcome (stored : s.rawIncomingEvents.find delivery.id = some delivery)
    (outcome : Outcome s delivery host s') :
    ∃ delivery', SameDelivery delivery delivery' ∧ s'.rawIncomingEvents.rows =
      s.rawIncomingEvents.rows.map fun row => if row.id = delivery.id then delivery' else row := by
  cases outcome.disposition with
  | postponed message availableAt _ inbox =>
    refine ⟨delivery.postponed (delivery.attempts + 1) message availableAt, ⟨rfl, rfl, rfl, rfl, rfl, rfl, rfl⟩, ?_⟩
    rw [inbox]
    exact modify_stored stored _
  | settled record message count about inbox =>
    refine ⟨delivery.settled record.createdAt message count, ⟨rfl, rfl, rfl, rfl, rfl, rfl, rfl⟩, ?_⟩
    rw [inbox, ← modify_stored stored (·.settled record.createdAt message count), ← about]
    rfl

theorem keepsDeliveries_outcome (outcome : Outcome s delivery host s') : KeepsDeliveries s s' := by
  intro id row found
  cases outcome.disposition with
  | postponed message availableAt _ inbox =>
    rw [inbox, findRow_postpone, found]
    refine ⟨_, rfl, ?_⟩
    split <;> exact ⟨rfl, rfl, rfl, rfl, rfl, rfl, rfl⟩
  | settled record message count _ inbox =>
    rw [inbox, findRow_settle, found]
    refine ⟨_, rfl, ?_⟩
    split <;> exact ⟨rfl, rfl, rfl, rfl, rfl, rfl, rfl⟩

/-- **No operation of any run changes what a delivery is.** -/
theorem keepsDeliveries_reaches {permitted : Action → Prop} {start finish : System}
    (reached : Reaches permitted start finish) (consistent : start.Consistent) :
    KeepsDeliveries start.store finish.store := by
  apply store_relates KeepsDeliveries reached consistent
  · exact fun s id row found => ⟨row, found, .refl row⟩
  · intro s t u former latter id row found
    obtain ⟨row', found', same⟩ := former id row found
    obtain ⟨row'', found'', same'⟩ := latter id row' found'
    exact ⟨row'', found'', same.trans same'⟩
  · exact fun s events receivedAt _ _ id row found => ⟨row, findRow_enqueueBatch found, .refl row⟩
  · exact fun s delivery host s' call => keepsDeliveries_outcome call.outcome

/-! ## Calls that apply nothing -/

/-- A call that moves an order leaves the delivery `DONE`, with a decision that
says it was applied. -/
theorem orders_unapplied (outcome : Outcome s delivery host s')
    (undecided : s.decisionOf delivery.id = none) (unapplied : Unapplied s' delivery) :
    s'.orders = s.orders ∧ s'.orderFieldVersions = s.orderFieldVersions := by
  cases outcome.effect with
  | unapplied orders versions => exact ⟨orders, versions⟩
  | @applied event application _ judged written =>
    have verdict := (accepts_of_judge judged).decision
    subst written
    rcases unapplied with ⟨decision, decided, refused⟩ | ⟨row, found, waits⟩
    · have logged := decisionOf_settle_self ((s.claim event.eventId delivery.id).write event application)
        (application.record delivery host) none none undecided
      obtain rfl := Option.some.inj (logged.symm.trans decided)
      rcases verdict with accepted | merged <;> rcases refused with refused | refused
      · cases accepted.symm.trans refused
      · cases accepted.symm.trans refused
      · cases merged.symm.trans refused
      · cases merged.symm.trans refused
    · rw [findRow_settle] at found
      obtain ⟨old, -, rfl⟩ := Option.map_eq_some_iff.mp found
      simp only [Application.record, FinalDecisionInput.record, ↓reduceIte] at waits
      cases waits

/-- A call whose processing transaction throws records the failure, or changes
nothing at all. -/
theorem processEvent_throws (consistent : s.Consistent) (undecided : s.decisionOf delivery.id = none)
    {fault : Option Fault} (throws : Throws s delivery host fault) (recordingFault : Option Fault) :
    (∃ errorMessage,
      processEvent delivery host fault recordingFault s = (.ok (), s.failed delivery errorMessage host)) ∨
    ∃ errorMessage, recordingFault.isSome ∧
      processEvent delivery host fault recordingFault s = (.error errorMessage, s) := by
  obtain ⟨message, thrown⟩ := throws
  unfold processEvent
  rcases transaction_cases fault (processEventTransaction delivery host) s with
    ⟨message', failed⟩ | ⟨value, t, -, returned⟩
  · have recorded := handleUnexpectedFailure_run undecided consistent.stats message' host
    rw [failed]
    simp only
    rcases transaction_cases recordingFault (handleUnexpectedFailure delivery message' host) s with
      ⟨message'', lost⟩ | ⟨value, t, same, done⟩
    · refine Or.inr ⟨message'', ?_, lost⟩
      cases recordingFault with
      | none => rw [transaction_of_run recorded] at lost; cases lost
      | some _ => rfl
    · rw [recorded] at same
      cases same
      exact Or.inl ⟨message', done⟩
  · rw [returned] at thrown
    cases thrown

theorem failureRecorded (consistent : s.Consistent)
    (stored : s.rawIncomingEvents.find delivery.id = some delivery) (errorMessage : String) :
    FailureRecorded s delivery (s.failed delivery errorMessage host) := by
  obtain ⟨stats, counted⟩ := Option.isSome_iff_exists.mp consistent.stats
  unfold Store.failed
  rw [stored]
  by_cases exhausted : maxProcessingAttempts ≤ delivery.attempts + 1
  · simp only [exhausted, ↓reduceIte]
    refine ⟨rfl, fun again => absurd again (not_lt.mpr exhausted), fun _ => ?_⟩
    have recounted : (s.settle (failedRecord delivery host errorMessage) (some errorMessage) none).stats =
        some (stats.counted .failed host.processingTimeMs host.now) := by
      simp [Store.settle, counted, failedRecord, FinalDecisionInput.record]
    exact ⟨_, rfl, rfl, rfl, stats, _, counted, recounted, rfl, rfl, rfl, rfl⟩
  · simp only [exhausted, ↓reduceIte]
    exact ⟨rfl, fun _ => ⟨rfl, rfl⟩, fun third => absurd third.ge exhausted⟩

/-- A recorded failure moves no order. -/
theorem orders_failed (errorMessage : String) :
    (s.failed delivery errorMessage host).orders = s.orders ∧
      (s.failed delivery errorMessage host).orderFieldVersions = s.orderFieldVersions := by
  unfold Store.failed
  split
  · exact ⟨rfl, rfl⟩
  · split <;> exact ⟨rfl, rfl⟩

/-! ## The guarantee -/

/-- What processing one waiting delivery leaves behind when it does not apply it. -/
structure LeavesNoTrace (s : Store) (delivery : RawIncomingEventEntity) (host : Host)
    (fault recordingFault : Option Fault) (result : Except String Unit) (s' : Store) : Prop where
  /-- The order data, and every other delivery, are as before. -/
  traceless : Unapplied s' delivery ∨ Throws s delivery host fault → Traceless s delivery s'
  /-- A throw whose recording succeeds, and one whose recording throws as well. -/
  thrown : Throws s delivery host fault →
    (result = .ok () → FailureRecorded s delivery s') ∧
    (∀ errorMessage, result = .error errorMessage → recordingFault.isSome ∧ s' = s)

theorem leavesNoTrace (consistent : s.Consistent)
    (stored : s.rawIncomingEvents.find delivery.id = some delivery)
    (undecided : s.decisionOf delivery.id = none) (host : Host) (fault recordingFault : Option Fault)
    {result : Except String Unit} (ran : processEvent delivery host fault recordingFault s = (result, s')) :
    LeavesNoTrace s delivery host fault recordingFault result s' := by
  have untouched : Traceless s delivery s := by
    have same := modify_stored stored id
    simp only [id_eq, ite_self, List.map_id'] at same
    exact ⟨rfl, rfl, delivery, .refl delivery, same⟩
  refine ⟨?_, ?_⟩
  · rintro (unapplied | throws)
    · rcases processEvent_outcome consistent.toOperational undecided stored host fault recordingFault with
        ⟨t, done, outcome⟩ | ⟨message, -, lost⟩
      · obtain ⟨-, rfl⟩ := Prod.mk.inj (done.symm.trans ran)
        obtain ⟨orders, versions⟩ := orders_unapplied outcome undecided unapplied
        exact ⟨orders, versions, inbox_outcome stored outcome⟩
      · obtain ⟨-, rfl⟩ := Prod.mk.inj (lost.symm.trans ran)
        exact untouched
    · rcases processEvent_throws consistent undecided throws recordingFault with ⟨message, done⟩ | ⟨message, -, lost⟩
      · obtain ⟨-, rfl⟩ := Prod.mk.inj (done.symm.trans ran)
        obtain ⟨orders, versions⟩ := @orders_failed s delivery host message
        exact ⟨orders, versions, inbox_outcome stored (@failed_outcome s delivery host stored message)⟩
      · obtain ⟨-, rfl⟩ := Prod.mk.inj (lost.symm.trans ran)
        exact untouched
  · intro throws
    rcases processEvent_throws consistent undecided throws recordingFault with ⟨message, done⟩ | ⟨message, faulty, lost⟩
    · obtain ⟨rfl, rfl⟩ := Prod.mk.inj (done.symm.trans ran)
      exact ⟨fun _ => failureRecorded consistent stored message, fun _ absurd => by cases absurd⟩
    · obtain ⟨rfl, rfl⟩ := Prod.mk.inj (lost.symm.trans ran)
      exact ⟨fun absurd => (by cases absurd), fun _ _ => ⟨faulty, rfl⟩⟩

/-- **A delivery that is not applied leaves no trace in the order data**, and
no operation of any run changes what a delivery is. -/
theorem unapplied_leaves_no_trace {sys : System} (reachable : Reachable sys) :
    (∀ delivery ∈ sys.store.rawIncomingEvents.rows,
      delivery.processingStatus = .pending ∨ delivery.processingStatus = .retry →
      ∀ (host : Host) (fault recordingFault : Option Fault) (result : Except String Unit) (s' : Store),
        processEvent delivery host fault recordingFault sys.store = (result, s') →
        LeavesNoTrace sys.store delivery host fault recordingFault result s') ∧
      ∀ later, Reaches (fun _ => True) sys later → KeepsDeliveries sys.store later.store := by
  have consistent := reachable.consistent
  refine ⟨?_, fun later reached => keepsDeliveries_reaches reached consistent⟩
  intro delivery member waits host fault recordingFault result s' ran
  have stored := sys.store.rawIncomingEvents.find_self member
  have undecided := (consistent.store.undecided_iff stored).mpr waits
  exact leavesNoTrace consistent.store stored undecided host fault recordingFault ran

/-- A payment is in the inbox, and nothing else has happened. -/
def postedPayment : System :=
  (execute step (.started 0) (outOfOrderActions.take 1)).get (by decide +kernel)

def waitingPayment : RawIncomingEventEntity := (postedPayment.store.rawIncomingEvents.find 1).get (by decide +kernel)

/-- The first attempt on the payment, in a database that fails on the way. -/
def interruptedPayment : Except String Unit × Store :=
  processEvent waitingPayment (stoppedAt 0) (some ⟨3, "SQLITE_BUSY: database is locked"⟩) none postedPayment.store

theorem unapplied_leaves_no_trace_interrupted_payment :
    Traceless postedPayment.store waitingPayment interruptedPayment.2 ∧
      FailureRecorded postedPayment.store waitingPayment interruptedPayment.2 := by
  have run : Run step (.started 0) (outOfOrderActions.take 1) postedPayment := run_of_enabled _
  have stored : waitingPayment ∈ postedPayment.store.rawIncomingEvents.rows :=
    (postedPayment.store.rawIncomingEvents.find_eq_some.mp (Option.some_get _).symm).1
  have pending : waitingPayment.processingStatus = .pending := by decide +kernel
  have throws : Throws postedPayment.store waitingPayment (stoppedAt 0) (some ⟨3, "SQLITE_BUSY: database is locked"⟩) :=
    ⟨"SQLITE_BUSY: database is locked", by decide +kernel⟩
  have recorded : interruptedPayment.1 = .ok () := by decide +kernel
  have trace := (unapplied_leaves_no_trace (reachable_of_run run)).1 waitingPayment stored (Or.inl pending)
    (stoppedAt 0) (some ⟨3, "SQLITE_BUSY: database is locked"⟩) none interruptedPayment.1 interruptedPayment.2 rfl
  exact ⟨trace.traceless (Or.inr throws), (trace.thrown throws).1 recorded⟩

end EventEngine.Atomicity
