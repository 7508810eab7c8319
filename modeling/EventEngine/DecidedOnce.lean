import EventEngine.Polling

/-! Every delivery is decided exactly once, within three attempts: the two
retry paths share one counter, and a decision, once written, is final. -/
namespace EventEngine.DecidedOnce
open EventEngine Relational

/-- Whatever the action makes throw, it is not the recording of a failure. -/
def RecordsFailures : Action → Prop
  | .process _ _ _ recordingFault => recordingFault = none
  | _ => True

/-- How often a sequence of actions calls `processEvent` on a delivery. -/
def callsOn (id : ℕ) : System → List Action → ℕ
  | _, [] => 0
  | sys, action :: rest =>
    (if calledDelivery sys action = some id then 1 else 0) +
      match step sys action with
      | some sys' => callsOn id sys' rest
      | none => 0

/-! ## Calls -/

/-- A call finalises its delivery, or uses one of its attempts. -/
theorem attempt_of_call {s s' : Store} {delivery : RawIncomingEventEntity} {host : Host}
    (call : Call s delivery host s') :
    ∃ row, s'.rawIncomingEvents.find delivery.id = some row ∧
      ((s'.decisionOf delivery.id).isSome ∧ row.processingStatus = .done ∨
        s'.decisionOf delivery.id = none ∧ row.processingStatus = .retry ∧
          row.attempts = delivery.attempts + 1) := by
  cases call.outcome.disposition with
  | postponed message availableAt again inbox log =>
    have undecided : s'.decisionOf delivery.id = none := by
      rw [Store.decisionOf, log]
      exact call.undecided
    refine ⟨delivery.postponed (delivery.attempts + 1) message availableAt, ?_, Or.inr ⟨undecided, rfl, rfl⟩⟩
    rw [inbox, findRow_postpone, call.stored]
    simp only [Option.map_some, ↓reduceIte]
  | settled record message count about inbox log =>
    have decided : (s'.decisionOf delivery.id).isSome := by
      have settled := decisionOf_settle_self s record message count (about ▸ call.undecided)
      rw [about] at settled
      rw [Store.decisionOf, log, ← Store.decisionOf, settled]
      rfl
    refine ⟨delivery.settled record.createdAt message count, ?_, Or.inl ⟨decided, rfl⟩⟩
    rw [inbox, findRow_settle, call.stored]
    simp only [about, Option.map_some, ↓reduceIte]

theorem callsOn_append {start sys : System} {actions : List Action} (run : Run step start actions sys) (id : ℕ)
    (more : List Action) : callsOn id start (actions ++ more) = callsOn id start actions + callsOn id sys more := by
  induction run generalizing more with
  | nil => simp [callsOn]
  | @snoc prior action before after _ taken ih =>
    rw [List.append_assoc, ih, ih]
    simp [callsOn, taken]
    omega

/-- The attempts of a waiting delivery are the calls made on it; a decided one
has had at most three. -/
def Counted (s : Store) (calls : ℕ → ℕ) : Prop :=
  (∀ id, s.rawIncomingEvents.find id = none → calls id = 0) ∧
    ∀ id row, s.rawIncomingEvents.find id = some row →
      if (s.decisionOf id).isSome then calls id ≤ 3 else calls id = row.attempts

theorem counted_enqueueBatch {s : Store} {calls : ℕ → ℕ} (consistent : s.Consistent) (counted : Counted s calls)
    (events : List JsonValue) (receivedAt : Time) : Counted (enqueueBatch s events receivedAt) calls := by
  refine ⟨?_, ?_⟩
  · intro id absent
    apply counted.1
    cases found : s.rawIncomingEvents.find id with
    | none => rfl
    | some row => rw [findRow_enqueueBatch found] at absent; cases absent
  · intro id row found
    rw [decisionOf_enqueueBatch]
    rcases findRow_enqueueBatch_cases found with before | ⟨absent, event, -, rfl⟩
    · exact counted.2 id row before
    · have uncalled : calls id = 0 := counted.1 id absent
      have unattempted := (createRawIncomingEvent_lifecycle event receivedAt id).2.1
      simp [consistent.undecided_of_absent absent, uncalled, unattempted]

/-- A call finalises its delivery, or uses up one of its attempts. -/
theorem counted_call {s s' : Store} {delivery : RawIncomingEventEntity} {host : Host} {calls : ℕ → ℕ}
    (call : Call s delivery host s') (counted : Counted s calls) :
    Counted s' fun id => calls id + if delivery.id = id then 1 else 0 := by
  have before := counted.2 delivery.id delivery call.stored
  simp only [call.undecided, Option.isSome_none, Bool.false_eq_true, ↓reduceIte] at before
  refine ⟨?_, ?_⟩
  · intro id absent
    by_cases same : delivery.id = id
    · obtain ⟨row, held, -⟩ := attempt_of_call call
      rw [same, absent] at held
      cases held
    · rw [findRow_outcome call.outcome (Ne.symm same)] at absent
      simp [same, counted.1 id absent]
  · intro id row found
    by_cases same : delivery.id = id
    · subst same
      obtain ⟨row', held, finalised | ⟨waits, -, attempted⟩⟩ := attempt_of_call call
      · have attempts : delivery.attempts ≤ 2 := by
          rcases call.consistent.waiting call.stored call.undecided with ⟨-, unattempted⟩ | ⟨-, -, retried⟩ <;> omega
        simp only [finalised.1, ↓reduceIte]
        omega
      · rw [found, Option.some.injEq] at held
        subst held
        simp only [waits, Option.isSome_none, Bool.false_eq_true, ↓reduceIte]
        omega
    · rw [findRow_outcome call.outcome (Ne.symm same)] at found
      rw [decisionOf_outcome call.outcome (Ne.symm same)]
      simpa [same] using counted.2 id row found

theorem counted_step {sys sys' : System} {action : Action} {calls : ℕ → ℕ} (consistent : sys.Consistent)
    (counted : Counted sys.store calls) (recorded : RecordsFailures action)
    (taken : step sys action = some sys') :
    Counted sys'.store fun id => calls id + if calledDelivery sys action = some id then 1 else 0 := by
  cases moves_of_step consistent taken with
  | enqueued events receivedAt =>
    simp only [calledDelivery, reduceCtorEq, ↓reduceIte, Nat.add_zero]
    exact counted_enqueueBatch consistent.store counted events receivedAt
  | processed working stored undecided ran outcome =>
    simp only [calledDelivery, working, List.getElem?_cons_zero, Option.some.injEq]
    exact counted_call ⟨consistent.store, stored, undecided, outcome⟩ counted
  | aborted working unrecorded =>
    rw [recorded] at unrecorded
    cases unrecorded
  | skipped | opened | read | readFailed | finished =>
    simpa [calledDelivery] using counted

theorem counted_run {now : Time} {actions : List Action} {sys : System} (run : Run step (.started now) actions sys)
    (recorded : ∀ action ∈ actions, RecordsFailures action) :
    Counted sys.store fun id => callsOn id (.started now) actions := by
  induction run with
  | nil =>
    refine ⟨fun _ _ => rfl, ?_⟩
    intro id row found
    cases found
  | @snoc prior action before after run taken ih =>
    have earlier := fun a member => recorded a (List.mem_append_left [action] member)
    have consistent := (reachable_of_run run).consistent
    have counted := counted_step consistent (ih earlier) (recorded action (by simp)) taken
    have same : (fun id => callsOn id (.started now) (prior ++ [action])) =
        fun id => callsOn id (.started now) prior + if calledDelivery before action = some id then 1 else 0 := by
      funext id
      rw [callsOn_append run]
      simp [callsOn, taken]
    rw [same]
    exact counted

/-! ## The guarantee -/

/-- What holds of every delivery at the end of a run. -/
structure EveryDeliveryDecidedOnce (start : System) (actions : List Action) (sys : System) : Prop where
  /-- No delivery has two decisions. -/
  at_most_one : (sys.store.eventDecisions.rows.map (·.rawIncomingEventId)).Nodup
  /-- A delivery is `DONE` exactly when it has one. -/
  done_iff_decided : ∀ row ∈ sys.store.rawIncomingEvents.rows,
    row.processingStatus = .done ↔
      ∃ decision ∈ sys.store.eventDecisions.rows, decision.rawIncomingEventId = row.id
  /-- However the run goes on, a `DONE` delivery and its decision stay as they are. -/
  final : ∀ more sys', Run step sys more sys' → ∀ row ∈ sys.store.rawIncomingEvents.rows,
    row.processingStatus = .done → row ∈ sys'.store.rawIncomingEvents.rows ∧
      sys'.store.decisionOf row.id = sys.store.decisionOf row.id
  /-- A further call on a `DONE` delivery, with any snapshot of it, changes
  nothing when its transaction does not throw. -/
  idempotent : ∀ row ∈ sys.store.rawIncomingEvents.rows, row.processingStatus = .done →
    ∀ (stale : RawIncomingEventEntity) (host : Host) (fault recordingFault : Option Fault), stale.id = row.id →
      (transaction fault (processEventTransaction stale host) sys.store).1 = .ok () →
      processEvent stale host fault recordingFault sys.store = (.ok (), sys.store)
  /-- A call made by a poll is on a delivery that is `PENDING` or `RETRY`, and
  finalises it or uses exactly one of its attempts. -/
  progress : ∀ index host fault sys', step sys (.process index host fault none) = some sys' →
    ∃ row row', calledDelivery sys (.process index host fault none) = some row.id ∧
      sys.store.rawIncomingEvents.find row.id = some row ∧
      (row.processingStatus = .pending ∨ row.processingStatus = .retry) ∧
      sys'.store.rawIncomingEvents.find row.id = some row' ∧
      (row'.processingStatus = .done ∨
        row'.processingStatus = .retry ∧ row'.attempts = row.attempts + 1)
  /-- No delivery has had more than three calls, and after three it is `DONE`. -/
  three_calls : ∀ row ∈ sys.store.rawIncomingEvents.rows,
    callsOn row.id start actions ≤ 3 ∧ (callsOn row.id start actions = 3 → row.processingStatus = .done)
  /-- The attempts of every delivery. -/
  attempts : ∀ row ∈ sys.store.rawIncomingEvents.rows,
    (row.processingStatus = .pending → row.attempts = 0) ∧
    (row.processingStatus = .retry → row.attempts = 1 ∨ row.attempts = 2) ∧
    ∀ decision ∈ sys.store.eventDecisions.rows, decision.rawIncomingEventId = row.id →
      (decision.decision = .failed → row.attempts = 2) ∧
      (decision.decision = .rejected ∧ decision.reasonCode = .orderNotReady → row.attempts = 3) ∧
      (decision.decision ≠ .failed ∧ ¬ (decision.decision = .rejected ∧ decision.reasonCode = .orderNotReady) →
        row.attempts ≤ 2)

theorem idempotent_of_done {s : Store} (consistent : s.Consistent) {row stale : RawIncomingEventEntity}
    (stored : s.rawIncomingEvents.find row.id = some row) (done : row.processingStatus = .done)
    (same : stale.id = row.id) (host : Host) (fault recordingFault : Option Fault)
    (returned : (transaction fault (processEventTransaction stale host) s).1 = .ok ()) :
    processEvent stale host fault recordingFault s = (.ok (), s) := by
  obtain ⟨decision, decided⟩ := Option.isSome_iff_exists.mp ((consistent.done_iff stored).mp done)
  rw [← same] at decided
  have ran := processEventTransaction_run consistent.toOperational stale host
  rw [processed_of_decided decided] at ran
  rcases transaction_cases fault (processEventTransaction stale host) s with
    ⟨message, thrown⟩ | ⟨value, s', result, committed⟩
  · rw [thrown] at returned
    cases returned
  · rw [ran] at result
    cases result
    simp only [processEvent, committed]

theorem progress_of_step {sys sys' : System} (consistent : sys.Consistent) {index : ℕ} {host : Host}
    {fault : Option Fault} (taken : step sys (.process index host fault none) = some sys') :
    ∃ row row', calledDelivery sys (.process index host fault none) = some row.id ∧
      sys.store.rawIncomingEvents.find row.id = some row ∧
      (row.processingStatus = .pending ∨ row.processingStatus = .retry) ∧
      sys'.store.rawIncomingEvents.find row.id = some row' ∧
      (row'.processingStatus = .done ∨ row'.processingStatus = .retry ∧ row'.attempts = row.attempts + 1) := by
  cases moves_of_step consistent taken with
  | @processed event rest _ _ _ s' working stored undecided ran outcome =>
    have call : Call sys.store event host s' := ⟨consistent.store, stored, undecided, outcome⟩
    obtain ⟨row', held, effect⟩ := attempt_of_call call
    have waits := (consistent.store.undecided_iff stored).mp undecided
    refine ⟨event, row', by simp [calledDelivery, working], stored, waits, held, ?_⟩
    rcases effect with ⟨-, done⟩ | ⟨-, retry, attempted⟩
    · exact Or.inl done
    · exact Or.inr ⟨retry, attempted⟩
  | aborted working unrecorded => cases unrecorded

/-- The attempts that go with a decision, case by case. -/
theorem attempts_by_decision {decision : EventDecisionEntity} {attempts : ℕ} (attempted : attemptsAt decision attempts) :
    (decision.decision = .failed → attempts = 2) ∧
      (decision.decision = .rejected ∧ decision.reasonCode = .orderNotReady → attempts = 3) ∧
      (decision.decision ≠ .failed ∧ ¬ (decision.decision = .rejected ∧ decision.reasonCode = .orderNotReady) →
        attempts ≤ 2) := by
  unfold attemptsAt at attempted
  split at attempted
  · rename_i failed
    simpa [failed] using attempted
  · rename_i failed
    split at attempted
    · rename_i waited
      simpa [waited.1, waited.2] using attempted
    · rename_i settled
      exact ⟨fun absurd => (failed absurd).elim, fun absurd => (settled absurd).elim, fun _ => attempted⟩

theorem attempts_of_consistent {s : Store} (consistent : s.Consistent) {row : RawIncomingEventEntity}
    (stored : s.rawIncomingEvents.find row.id = some row) :
    (row.processingStatus = .pending → row.attempts = 0) ∧
    (row.processingStatus = .retry → row.attempts = 1 ∨ row.attempts = 2) ∧
    ∀ decision ∈ s.eventDecisions.rows, decision.rawIncomingEventId = row.id →
      (decision.decision = .failed → row.attempts = 2) ∧
      (decision.decision = .rejected ∧ decision.reasonCode = .orderNotReady → row.attempts = 3) ∧
      (decision.decision ≠ .failed ∧ ¬ (decision.decision = .rejected ∧ decision.reasonCode = .orderNotReady) →
        row.attempts ≤ 2) := by
  have tracked := consistent.tracked _ row stored
  cases decided : s.decisionOf row.id with
  | none =>
    rw [decided] at tracked
    have undecided : ∀ decision ∈ s.eventDecisions.rows, decision.rawIncomingEventId ≠ row.id := by
      intro decision member same
      rw [(decisionOf_eq_some consistent).mpr ⟨member, same⟩] at decided
      cases decided
    refine ⟨?_, ?_, fun decision member same => absurd same (undecided decision member)⟩
    · intro pending
      rcases tracked with ⟨-, unattempted⟩ | ⟨retry, -⟩
      · exact unattempted
      · rw [pending] at retry
        cases retry
    · intro retry
      rcases tracked with ⟨pending, -⟩ | ⟨-, retried⟩
      · rw [retry] at pending
        cases pending
      · omega
  | some decision =>
    rw [decided] at tracked
    obtain ⟨done, attempted⟩ := tracked
    refine ⟨fun pending => ?_, fun retry => ?_, ?_⟩
    · rw [done] at pending
      cases pending
    · rw [done] at retry
      cases retry
    · intro other member same
      obtain rfl : decision = other :=
        Option.some.inj (decided.symm.trans ((decisionOf_eq_some consistent).mpr ⟨member, same⟩))
      exact attempts_by_decision attempted

/-- **Every delivery is decided exactly once, within three attempts**, in every
run in which failures, whenever they happen, can be recorded. -/
theorem every_delivery_decided_once {now : Time} {actions : List Action} {sys : System}
    (run : Run step (.started now) actions sys) (recorded : ∀ action ∈ actions, RecordsFailures action) :
    EveryDeliveryDecidedOnce (.started now) actions sys := by
  have consistent := (reachable_of_run run).consistent
  have stored : ∀ row ∈ sys.store.rawIncomingEvents.rows, sys.store.rawIncomingEvents.find row.id = some row :=
    fun row member => sys.store.rawIncomingEvents.find_self member
  have tracked := fun row member => consistent.store.tracked _ row (stored row member)
  refine ⟨consistent.store.decided_once, ?_, ?_, ?_, fun _ _ _ _ taken => progress_of_step consistent taken, ?_, ?_⟩
  · intro row member
    rw [consistent.store.done_iff (stored row member), Option.isSome_iff_exists]
    simp only [decisionOf_eq_some consistent.store]
  · intro more sys' rest row member done
    obtain ⟨decision, decided⟩ :=
      Option.isSome_iff_exists.mp ((consistent.store.done_iff (stored row member)).mp done)
    have reached : Reaches (fun _ => True) sys sys' := ⟨more, fun _ _ => trivial, rest⟩
    obtain ⟨kept, decided'⟩ := keepsDecided_reaches reached consistent _ row decision (stored row member) decided
    rw [decided, decided']
    exact ⟨(sys'.store.rawIncomingEvents.find_eq_some.mp kept).1, rfl⟩
  · intro row member done stale host fault recordingFault same returned
    exact idempotent_of_done consistent.store (stored row member) done same host fault recordingFault returned
  · intro row member
    have counted := (counted_run run recorded).2 row.id row (stored row member)
    have finished := consistent.store.done_iff (stored row member)
    have tracked := tracked row member
    cases decided : sys.store.decisionOf row.id with
    | none =>
      rw [decided] at counted tracked
      simp only [Option.isSome_none, Bool.false_eq_true, ↓reduceIte] at counted
      rcases tracked with ⟨-, unattempted⟩ | ⟨-, -, retried⟩ <;> omega
    | some decision =>
      rw [decided] at counted finished
      exact ⟨counted, fun _ => finished.mpr rfl⟩
  · intro row member
    exact attempts_of_consistent consistent.store (stored row member)

theorem every_delivery_decided_once_out_of_order :
    EveryDeliveryDecidedOnce (.started 0) outOfOrderActions outOfOrderSystem :=
  every_delivery_decided_once outOfOrder_run (by simp [outOfOrderActions, RecordsFailures])

end EventEngine.DecidedOnce
