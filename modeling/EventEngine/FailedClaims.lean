import EventEngine.Atomicity
import EventEngine.Deduplication

/-! The key of a delivery that failed. A processing transaction that throws
gives its claim back with everything else it wrote, but a deferral has already
committed it: a delivery that waits for its order and then fails technically
keeps the key of an event that was never evaluated. -/
namespace EventEngine.FailedClaims
open EventEngine Relational Atomicity

/-- No key is held by a delivery that ended `FAILED`. -/
def Released (s : Store) : Prop :=
  ∀ eventId key, s.processedEventKeys.find eventId = some key →
    ∀ decision, s.decisionOf key.firstRawIncomingEventId = some decision → decision.decision ≠ .failed

/-- A technical failure blocks no event. -/
structure NeverBlocks (s : Store) : Prop where
  released : Released s
  /-- A waiting delivery is not discarded as the duplicate of one that failed. -/
  merits : ∀ delivery event, s.rawIncomingEvents.find delivery.id = some delivery →
    s.decisionOf delivery.id = none → validate delivery = .valid event →
    (∀ key, s.processedEventKeys.find event.eventId = some key → key.firstRawIncomingEventId = delivery.id ∨
      ∃ failed, s.decisionOf key.firstRawIncomingEventId = some failed ∧ failed.decision = .failed) →
    ∀ host decision, (processEvent delivery host none none s).2.decisionOf delivery.id = some decision →
      decision.decision ≠ .duplicate

/-- The engine gives up on a delivery that holds its event's key: on the third
attempt the processing transaction throws, and the failure is recorded. -/
structure GivesUp (s : Store) (delivery : RawIncomingEventEntity) (host : Host)
    (fault recordingFault : Option Fault) : Prop where
  third : maxProcessingAttempts ≤ delivery.attempts + 1
  holds : ∃ event, validate delivery = .valid event ∧
    s.processedEventKeys.find event.eventId = some ⟨event.eventId, delivery.id⟩
  throws : ∃ errorMessage,
    (transaction fault (processEventTransaction delivery host) s).1 = .error errorMessage ∧
    (transaction recordingFault (handleUnexpectedFailure delivery errorMessage host) s).1 = .ok ()

/-- The step gives up on a delivery that holds its event's key. -/
def GivesUpHolding (sys : System) (action : Action) : Prop :=
  ∃ index host fault recordingFault delivery rest, action = .process index host fault recordingFault ∧
    sys.polls[index]? = some (.processing (delivery :: rest)) ∧
    GivesUp sys.store delivery host fault recordingFault

variable {s s' : Store} {delivery : RawIncomingEventEntity} {host : Host} {fault recordingFault : Option Fault}

/-! ## When a delivery ends `FAILED` -/

/-- The verdict on a delivery that has just been settled is the record's. -/
theorem verdict_of_settled {record decision : EventDecisionEntity} {message : Option String} {count : Option ℕ}
    {id : ℕ} (decided : (s.settle record message count).decisionOf id = some decision)
    (about : record.rawIncomingEventId = id) (undecided : s.decisionOf id = none) :
    decision.decision = record.decision := by
  subst about
  rw [decisionOf_settle_self s record message count undecided] at decided
  rw [← Option.some.inj decided]

/-- A committed transaction decides nothing `FAILED`, and a `DUPLICATE` only
where another delivery holds the event's key. -/
theorem verdict_of_committed (committed : Committed s delivery host s')
    (undecided : s.decisionOf delivery.id = none) {decision : EventDecisionEntity}
    (decided : s'.decisionOf delivery.id = some decision) :
    decision.decision ≠ .failed ∧ (decision.decision = .duplicate →
      ∃ event key, validate delivery = .valid event ∧ s.processedEventKeys.find event.eventId = some key ∧
        key.firstRawIncomingEventId ≠ delivery.id) := by
  cases committed with
  | deferred =>
    rw [decisionOf_postpone] at decided
    cases undecided.symm.trans decided
  | invalid =>
    rw [verdict_of_settled decided rfl undecided]
    exact ⟨fun absurd => (by cases absurd), fun absurd => (by cases absurd)⟩
  | duplicate valid held other =>
    rw [verdict_of_settled decided rfl undecided]
    exact ⟨fun absurd => (by cases absurd), fun _ => ⟨_, _, valid, held, other⟩⟩
  | expired | rejected =>
    rw [verdict_of_settled decided rfl undecided]
    exact ⟨fun absurd => (by cases absurd), fun absurd => (by cases absurd)⟩
  | @applied event application _ _ judged =>
    rw [verdict_of_settled decided rfl undecided]
    rcases (accepts_of_judge judged).decision with accepted | merged
    · simp [Application.record, FinalDecisionInput.record, accepted]
    · simp [Application.record, FinalDecisionInput.record, merged]

/-- A call that gives up leaves its delivery `FAILED`. -/
theorem failed_of_givesUp (consistent : s.Consistent) (stored : s.rawIncomingEvents.find delivery.id = some delivery)
    (undecided : s.decisionOf delivery.id = none) (gives : GivesUp s delivery host fault recordingFault) :
    ∃ errorMessage, processEvent delivery host fault recordingFault s =
      (.ok (), s.settle (failedRecord delivery host errorMessage) (some errorMessage) none) := by
  obtain ⟨message, thrown, recorded⟩ := gives.throws
  have written := handleUnexpectedFailure_run undecided consistent.stats message host
  have settled : s.failed delivery message host =
      s.settle (failedRecord delivery host message) (some message) none := by
    simp only [Store.failed, stored, gives.third, ↓reduceIte]
  refine ⟨message, ?_⟩
  unfold processEvent
  rcases transaction_cases fault (processEventTransaction delivery host) s with
    ⟨message', failed⟩ | ⟨value, t, -, returned⟩
  · rw [failed] at thrown ⊢
    obtain rfl := Except.error.inj thrown
    simp only
    rcases transaction_cases recordingFault (handleUnexpectedFailure delivery message' host) s with
      ⟨message'', lost⟩ | ⟨value, t, same, done⟩
    · rw [lost] at recorded
      cases recorded
    · rw [written] at same
      cases same
      rw [done, settled]
  · rw [returned] at thrown
    cases thrown

/-- A call that leaves its delivery `FAILED` was the third attempt, and its
processing transaction threw. -/
theorem givesUp_of_failed (consistent : s.Consistent) (stored : s.rawIncomingEvents.find delivery.id = some delivery)
    (undecided : s.decisionOf delivery.id = none) {result : Except String Unit}
    (ran : processEvent delivery host fault recordingFault s = (result, s')) {decision : EventDecisionEntity}
    (decided : s'.decisionOf delivery.id = some decision) (failed : decision.decision = .failed)
    (holds : ∃ event, validate delivery = .valid event ∧
      s.processedEventKeys.find event.eventId = some ⟨event.eventId, delivery.id⟩) :
    GivesUp s delivery host fault recordingFault := by
  have processed := processEventTransaction_run consistent.toOperational delivery host
  unfold processEvent at ran
  rcases transaction_cases fault (processEventTransaction delivery host) s with
    ⟨message, thrown⟩ | ⟨value, t, same, returned⟩
  · have written := handleUnexpectedFailure_run undecided consistent.stats message host
    rw [thrown] at ran
    simp only at ran
    rcases transaction_cases recordingFault (handleUnexpectedFailure delivery message host) s with
      ⟨message', lost⟩ | ⟨value, t, same, done⟩
    · obtain ⟨-, rfl⟩ := Prod.mk.inj (lost.symm.trans ran)
      cases undecided.symm.trans decided
    · rw [written] at same
      cases same
      obtain ⟨-, rfl⟩ := Prod.mk.inj (done.symm.trans ran)
      refine ⟨?_, holds, message, by rw [thrown], by rw [done]⟩
      by_contra again
      simp only [Store.failed, stored, again, ↓reduceIte, decisionOf_postpone] at decided
      cases undecided.symm.trans decided
  · rw [processed] at same
    cases same
    rw [returned] at ran
    obtain ⟨-, rfl⟩ := Prod.mk.inj ran
    exact absurd failed (verdict_of_committed (processed_committed host undecided) undecided decided).1

/-! ## Keys under a step -/

/-- A call that gives up on no delivery holding its key keeps the keys free of
failed deliveries. -/
theorem released_call (call : Call s delivery host s') (released : Released s)
    (spared : ∀ decision, s'.decisionOf delivery.id = some decision → decision.decision = .failed →
      ¬ ∃ event, validate delivery = .valid event ∧
        s.processedEventKeys.find event.eventId = some ⟨event.eventId, delivery.id⟩)
    (claimed : ∀ eventId key, s.processedEventKeys.find eventId = some key → key.firstRawIncomingEventId = delivery.id →
      ∃ event, validate delivery = .valid event ∧ event.eventId = eventId) : Released s' := by
  intro eventId key held decision decided failed
  by_cases own : key.firstRawIncomingEventId = delivery.id
  · rw [own] at decided
    have outcome := call.outcome
    cases outcome with
    | retried =>
      rw [decisionOf_postpone] at decided
      cases call.undecided.symm.trans decided
    | committed committed => exact (verdict_of_committed committed call.undecided decided).1 failed
    | failed errorMessage =>
      obtain ⟨event, valid, rfl⟩ := claimed eventId key held own
      have named : key.eventId = event.eventId := KeyedTable.key_of_find held
      refine spared decision decided failed ⟨event, valid, ?_⟩
      rw [← named, ← own]
      rw [← named] at held
      exact held
  · rcases Deduplication.key_of_outcome call.outcome held with before | ⟨first, -⟩
    · rw [decisionOf_outcome call.outcome own] at decided
      exact released eventId key before decision decided failed
    · exact own first

theorem released_step {sys sys' : System} {action : Action} (reachable : Reachable sys)
    (released : Released sys.store) (spared : ¬ GivesUpHolding sys action) (taken : step sys action = some sys') :
    Released sys'.store := by
  have consistent := reachable.consistent
  cases moves_of_step consistent taken with
  | @processed delivery rest host fault recordingFault s' working stored undecided ran outcome =>
    refine released_call ⟨consistent.store, stored, undecided, outcome⟩ released ?_ ?_
    · intro decision decided failed holds
      refine spared ⟨0, host, fault, recordingFault, delivery, rest, rfl, by rw [working]; rfl, ?_⟩
      exact givesUp_of_failed consistent.store stored undecided ran decided failed holds
    · intro eventId key held own
      obtain ⟨event, known, named⟩ := (Deduplication.claimed_reachable reachable).held eventId key held
      rw [own, eventOf_stored stored, validEvent?_eq_some] at known
      exact ⟨event, known, named⟩
  | enqueued | skipped | opened | read | aborted | readFailed | finished => exact released

/-! ## Runs -/

theorem released_run {now : Time} {actions : List Action} {sys : System} (run : Run step (.started now) actions sys)
    (spared : ∀ earlier action later before, actions = earlier ++ action :: later →
      Run step (.started now) earlier before → ¬ GivesUpHolding before action) : Released sys.store := by
  induction run with
  | nil =>
    intro eventId key held
    cases held
  | @snoc prior action before after run taken ih =>
    refine released_step (reachable_of_run run) (ih ?_) (spared prior action [] before rfl run) taken
    intro earlier action' later before' split
    exact spared earlier action' (later ++ [action]) before' (by rw [split, List.append_assoc, List.cons_append])

theorem neverBlocks_of_released (consistent : s.Consistent) (released : Released s) : NeverBlocks s := by
  refine ⟨released, ?_⟩
  intro delivery event stored undecided valid others host decision decided duplicate
  rw [processEvent_clean consistent.toOperational] at decided
  obtain ⟨event', key, valid', held, other⟩ :=
    (verdict_of_committed (processed_committed host undecided) undecided decided).2 duplicate
  obtain rfl := EventValidation.valid.inj (valid.symm.trans valid')
  rcases others key held with own | ⟨failed, decided', verdict⟩
  · exact other own
  · exact released _ key held failed decided' verdict

/-- Giving up on a delivery that holds its key leaves the key with a failed delivery. -/
theorem blocked_of_givesUpHolding {sys : System} {action : Action} (reachable : Reachable sys)
    (gives : GivesUpHolding sys action) : ∃ sys', step sys action = some sys' ∧ ¬ Released sys'.store := by
  have consistent := reachable.consistent
  obtain ⟨index, host, fault, recordingFault, delivery, rest, rfl, working, gives⟩ := gives
  have queued := consistent.queued _ (only_poll consistent working).2
  have stored := queued.stored delivery List.mem_cons_self
  have undecided := queued.undecided delivery List.mem_cons_self
  obtain ⟨message, ran⟩ := failed_of_givesUp consistent.store stored undecided gives
  obtain ⟨event, -, held⟩ := gives.holds
  refine ⟨_, by simp only [step, working, ran]; rfl, ?_⟩
  intro released
  have decided := decisionOf_settle_self sys.store (failedRecord delivery host message) (some message) none undecided
  exact released event.eventId ⟨event.eventId, delivery.id⟩ held _ decided rfl

/-- **When a technical failure blocks no event**: it blocks none in any state
of a run exactly when no step of the run gives up on a delivery that holds its
event's key. -/
theorem failures_never_block_iff (now : Time) (actions : List Action) :
    (∀ earlier later reached, actions = earlier ++ later → Run step (.started now) earlier reached →
      NeverBlocks reached.store) ↔
    ∀ earlier action later before, actions = earlier ++ action :: later → Run step (.started now) earlier before →
      ¬ GivesUpHolding before action := by
  constructor
  · intro never earlier action later before split reached gives
    obtain ⟨after, taken, blocked⟩ := blocked_of_givesUpHolding (reachable_of_run reached) gives
    refine blocked (never (earlier ++ [action]) later after ?_ (reached.snoc taken)).released
    rw [split, List.append_assoc, List.singleton_append]
  · intro spared earlier later reached split prior
    refine neverBlocks_of_released (reachable_of_run prior).consistent.store (released_run prior ?_)
    intro first action rest before split' reached'
    exact spared first action (rest ++ later) before (by rw [split, split', List.append_assoc, List.cons_append]) reached'

/-! ## Where a held key comes from -/

/-- What a call does that finds a delivery waiting for its order: it claims the
key of the event, and commits the claim with the retry. -/
def Defers (s : Store) (id : ℕ) (eventId : String) (s' : Store) : Prop :=
  ∃ (delivery : RawIncomingEventEntity) (event : ValidOrderEvent) (host : Host),
    delivery.id = id ∧ validate delivery = .valid event ∧ event.eventId = eventId ∧
    judge (s.view event.orderId) event host.now = .notReady ∧
    s' = (s.claim event.eventId delivery.id).postpone delivery notReadyMessage host.nextAvailableAt

/-- The system has deferred the delivery along the way. -/
def WasDeferred (now : Time) (actions : List Action) (id : ℕ) (eventId : String) : Prop :=
  ∃ earlier action later before after, actions = earlier ++ action :: later ∧ Run step (.started now) earlier before ∧
    step before action = some after ∧ Defers before.store id eventId after.store

theorem WasDeferred.snoc {now : Time} {actions : List Action} {id : ℕ} {eventId : String}
    (deferred : WasDeferred now actions id eventId) (action : Action) :
    WasDeferred now (actions ++ [action]) id eventId := by
  obtain ⟨earlier, deferral, later, before, after, split, run, taken, defers⟩ := deferred
  exact ⟨earlier, deferral, later ++ [action], before, after, by rw [split, List.append_assoc, List.cons_append], run,
    taken, defers⟩

/-- A call that leaves its delivery undecided, with a key it had not before, deferred it. -/
theorem defers_of_claimed (outcome : Outcome s delivery host s') {eventId : String}
    (undecided : s'.decisionOf delivery.id = none)
    (unheld : s.processedEventKeys.find eventId ≠ some ⟨eventId, delivery.id⟩)
    (held : s'.processedEventKeys.find eventId = some ⟨eventId, delivery.id⟩) : Defers s delivery.id eventId s' := by
  have settled : ∀ (t : Store) (record : EventDecisionEntity) (message : Option String) (count : Option ℕ),
      record.rawIncomingEventId = delivery.id → (t.settle record message count).decisionOf delivery.id ≠ none := by
    intro t record message count about
    rw [← about]
    exact Option.isSome_iff_ne_none.mp (decisionOf_settle_isSome t record message count)
  cases outcome with
  | retried => exact absurd held unheld
  | failed => exact absurd undecided (settled _ _ _ _ rfl)
  | committed committed =>
    cases committed with
    | invalid | duplicate | expired | rejected | applied => exact absurd undecided (settled _ _ _ _ rfl)
    | @deferred event valid _ waits =>
      have moved : (s.claim event.eventId delivery.id).processedEventKeys.find eventId =
          some ⟨eventId, delivery.id⟩ := held
      rw [find_claim] at moved
      split at moved
      · rename_i same
        exact ⟨delivery, event, host, rfl, valid, same.symm, waits, rfl⟩
      · exact absurd moved unheld

/-- **An undecided delivery that holds a key was deferred**: an earlier attempt
found no order, and committed the claim. -/
theorem wasDeferred_of_held {now : Time} {actions : List Action} {sys : System}
    (run : Run step (.started now) actions sys) {id : ℕ} {eventId : String}
    (undecided : sys.store.decisionOf id = none)
    (held : sys.store.processedEventKeys.find eventId = some ⟨eventId, id⟩) : WasDeferred now actions id eventId := by
  induction run with
  | nil => cases held
  | @snoc actions action before after run taken ih =>
    cases moves_of_step (reachable_of_run run).consistent taken with
    | enqueued | skipped | opened | read | aborted | readFailed | finished => exact (ih undecided held).snoc _
    | @processed delivery rest host fault recordingFault s' working stored unmade ran outcome =>
      by_cases before' : before.store.processedEventKeys.find eventId = some ⟨eventId, id⟩
      · refine (ih ?_ before').snoc _
        by_cases own : id = delivery.id
        · rw [own]
          exact unmade
        · rw [← decisionOf_outcome outcome own]
          exact undecided
      · rcases Deduplication.key_of_outcome outcome held with earlier | ⟨own, -⟩
        · exact absurd earlier before'
        · have own : id = delivery.id := own
          subst own
          exact ⟨actions, _, [], before, _, rfl, run, taken, defers_of_claimed outcome undecided before' held⟩

/-- So was one that the engine gives up on while it holds its event's key. -/
theorem wasDeferred_of_givesUpHolding {now : Time} {actions : List Action} {sys : System} {action : Action}
    (run : Run step (.started now) actions sys) (gives : GivesUpHolding sys action) :
    ∃ id eventId, calledDelivery sys action = some id ∧ WasDeferred now actions id eventId := by
  obtain ⟨index, host, fault, recordingFault, delivery, rest, rfl, working, gives⟩ := gives
  have consistent := (reachable_of_run run).consistent
  have undecided := (consistent.queued _ (only_poll consistent working).2).undecided delivery List.mem_cons_self
  obtain ⟨event, -, held⟩ := gives.holds
  exact ⟨delivery.id, event.eventId, by simp only [calledDelivery, working], wasDeferred_of_held run undecided held⟩

/-! ## An abandoned payment -/

/-- A payment is deferred twice, since its order does not exist, and its third
attempt meets a busy database. Then the order is created, and the payment is
posted again. -/
def abandonedActions : List Action :=
  [.enqueueBatch [postedItem "p" "o" .paymentCaptured 2 (amountPayload "amount" 50)] 0,
    .poll, .read 0 0, .process 0 (stoppedAt 0) none none, .finish 0,
    .poll, .read 0 10000, .process 0 (stoppedAt 10000) none none, .finish 0,
    .poll, .read 0 20000, .process 0 (stoppedAt 20000) (some ⟨0, "SQLITE_BUSY: database is locked"⟩) none, .finish 0,
    .enqueueBatch
      [postedItem "c" "o" .orderCreated 1 (amountPayload "amount" 50),
        postedItem "p" "o" .paymentCaptured 2 (amountPayload "amount" 50)] 20000,
    .poll, .read 0 20000, .process 0 (stoppedAt 20000) none none, .process 0 (stoppedAt 20000) none none, .finish 0]

def abandonedSystem : System := (execute step (.started 0) abandonedActions).get (by decide +kernel)

/-- The payment is never evaluated: it failed, and its copy is discarded. -/
example : (abandonedSystem.store.eventDecisions.rows.map fun decision =>
    (decision.rawIncomingEventId, decision.decision)) = [(1, .failed), (2, .accepted), (3, .duplicate)] := by
  decide +kernel

/-- A delivery that was deferred and then failed keeps its event's key. -/
theorem abandoned_payment_blocks : ¬ ∀ sys : System, Reachable sys → NeverBlocks sys.store := by
  intro never
  have run : Run step (.started 0) abandonedActions abandonedSystem := run_of_enabled _
  have held : abandonedSystem.store.processedEventKeys.find "p" = some ⟨"p", 1⟩ := by decide +kernel
  have verdict : (abandonedSystem.store.decisionOf 1).map (·.decision) = some .failed := by decide +kernel
  obtain ⟨decision, decided, failed⟩ := Option.map_eq_some_iff.mp verdict
  exact (never abandonedSystem (reachable_of_run run)).released "p" ⟨"p", 1⟩ held decision decided failed

end EventEngine.FailedClaims
