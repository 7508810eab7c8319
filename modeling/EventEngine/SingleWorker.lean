import EventEngine.AwaitPoints
import EventEngine.Polling
import EventEngine.Requests

/-! The polling guard gives one worker with fresh snapshots. Every state of the
server at its await points is matched by states of the system that processes a
delivery in one step: the one its committed store is in, and the one its open
transaction began from once the requests made meanwhile are counted first.
What holds of the system then holds of the server. -/
namespace EventEngine.SingleWorker
open EventEngine Relational AwaitPoints

/-- The system reaches the store with these polls past its guard. -/
def Reached (s : Store) (polls : List EventEngine.Poll) : Prop := EventEngine.Reachable ⟨s, !polls.isEmpty, polls⟩

/-- An open transaction began from a store of the system, where the program has
led to the store the connection sees; a rollback returns to another. -/
structure Within (program : Tx Store Unit) (polls : List EventEngine.Poll) (s : Store) (transaction : OpenTransaction)
    (base : Store) : Prop where
  reached : Reached base polls
  rollback : Reached transaction.rollback polls
  advances : Tx.Advances program base transaction.program s
  begun : transaction.executed = 0 → s = base

/-- Where the system is when a poll of the server awaits something. -/
inductive Follows (s : Store) : AwaitPoints.Poll → Prop where
  | finding (reached : Reached s [.reading]) : Follows s .finding
  /-- The clock has not been read yet. -/
  | filtering {events : List RawIncomingEventEntity}
      (reached : ∀ now, Reached s [.processing (filterAvailableEvents events now)]) : Follows s (.filtering events)
  | looping {events : List RawIncomingEventEntity} (reached : Reached s [.processing events]) :
      Follows s (.looping events)
  | starting {event : RawIncomingEventEntity} {rest : List RawIncomingEventEntity}
      (reached : Reached s [.processing (event :: rest)]) : Follows s (.calling event rest .starting)
  | processing {event : RawIncomingEventEntity} {rest : List RawIncomingEventEntity} {host : Host}
      {transaction : OpenTransaction} {base : Store}
      (within : Within (processEventTransaction event host) [.processing (event :: rest)] s transaction base) :
      Follows s (.calling event rest (.processing transaction))
  | caught {event : RawIncomingEventEntity} {rest : List RawIncomingEventEntity} {errorMessage : String}
      (reached : Reached s [.processing (event :: rest)]) : Follows s (.calling event rest (.caught errorMessage))
  | recording {event : RawIncomingEventEntity} {rest : List RawIncomingEventEntity} {host : Host}
      {errorMessage : String} {transaction : OpenTransaction} {base : Store}
      (within : Within (handleUnexpectedFailure event errorMessage host) [.processing (event :: rest)] s transaction
        base) :
      Follows s (.calling event rest (.recording transaction))

/-- The server refines the system: idle with it, or with its one poll. -/
inductive Refines : Server → Prop where
  | idle {s : Store} (reached : Reached s []) : Refines ⟨s, false, []⟩
  | polling {s : Store} {poll : AwaitPoints.Poll} (follows : Follows s poll) : Refines ⟨s, true, [poll]⟩

/-! ## Steps of the system -/

variable {s s' : Store} {events rest : List RawIncomingEventEntity} {event : RawIncomingEventEntity} {host : Host}

theorem reached_request {polls : List EventEngine.Poll} (reached : Reached s polls) (items : List JsonValue)
    (receivedAt : Time) : Reached (enqueueBatch s items receivedAt) polls :=
  @EventEngine.Reachable.step _ _ (.enqueueBatch items receivedAt) reached rfl

theorem reached_poll (reached : Reached s []) : Reached s [.reading] :=
  @EventEngine.Reachable.step _ _ (.poll) reached rfl

theorem reached_read (reached : Reached s [.reading]) (now : Time) :
    Reached s [.processing (filterAvailableEvents (findPendingOrRetry s) now)] :=
  @EventEngine.Reachable.step _ _ (.read 0 now) reached rfl

theorem reached_readFails (reached : Reached s [.reading]) : Reached s [] :=
  @EventEngine.Reachable.step _ _ (.readFails 0) reached rfl

theorem reached_finish (reached : Reached s [.processing []]) : Reached s [] :=
  @EventEngine.Reachable.step _ _ (.finish 0) reached rfl

theorem reached_processed (reached : Reached s [.processing (event :: rest)]) {fault recordingFault : Option Fault}
    (ran : processEvent event host fault recordingFault s = (.ok (), s')) : Reached s' [.processing rest] := by
  refine @EventEngine.Reachable.step _ _ (.process 0 host fault recordingFault) reached ?_
  simp only [EventEngine.step, List.getElem?_cons_zero, ran]
  rfl

theorem reached_aborted (reached : Reached s [.processing (event :: rest)]) {fault recordingFault : Option Fault}
    {errorMessage : String} (ran : processEvent event host fault recordingFault s = (.error errorMessage, s)) :
    Reached s [] := by
  refine @EventEngine.Reachable.step _ _ (.process 0 host fault recordingFault) reached ?_
  simp only [EventEngine.step, List.getElem?_cons_zero, ran]
  rfl

theorem stored_of_reached (reached : Reached s [.processing (event :: rest)]) :
    s.rawIncomingEvents.find event.id = some event :=
  (reached.consistent.queued _ rfl).stored event List.mem_cons_self

/-! ## Calls, transaction by transaction -/

theorem processEvent_committed (advances : Tx.Advances (processEventTransaction event host) s (.done ()) s') :
    processEvent event host none none s = (.ok (), s') := by
  have ran := transaction_of_run (advances.run_eq.trans rfl)
  simp only [processEvent, ran]

theorem processEvent_recorded {errorMessage : String}
    (advances : Tx.Advances (handleUnexpectedFailure event errorMessage host) s (.done ()) s') :
    processEvent event host (some ⟨0, errorMessage⟩) none s = (.ok (), s') := by
  rw [processEvent_thrown]
  exact transaction_of_run (advances.run_eq.trans rfl)

theorem processEvent_aborted (errorMessage errorMessage' : String) :
    processEvent event host (some ⟨0, errorMessage⟩) (some ⟨0, errorMessage'⟩) s = (.error errorMessage', s) := rfl

/-! ## Steps of the server -/

variable {program : Tx Store Unit} {transaction : OpenTransaction} {base : Store}

theorem within_begin (reached : Reached s [.processing (event :: rest)]) :
    Within program [.processing (event :: rest)] s (.begin program s) s :=
  ⟨reached, reached, .begun, fun _ => rfl⟩

/-- A statement takes an open transaction on. -/
theorem within_resumed {polls : List EventEngine.Poll} {transaction' : OpenTransaction}
    (within : Within program polls s transaction base)
    (resumed : transaction.resume s = .ok (some transaction', s')) : Within program polls s' transaction' base := by
  have advances := within.advances
  unfold OpenTransaction.resume at resumed
  split at resumed
  · cases resumed
  · cases resumed
  · rename_i exec next remaining
    rw [remaining] at advances
    split at resumed
    · rename_i reply t ran
      simp only [Except.ok.injEq, Prod.mk.injEq, Option.some.injEq] at resumed
      obtain ⟨rfl, rfl⟩ := resumed
      exact ⟨within.reached, within.rollback, advances.advanced ran, fun unexecuted => by cases unexecuted⟩
    · cases resumed

/-- A transaction commits when its program has ended. -/
theorem advances_committed {polls : List EventEngine.Poll} (within : Within program polls s transaction base)
    (resumed : transaction.resume s = .ok (none, s')) : Tx.Advances program base (.done ()) s' := by
  have advances := within.advances
  unfold OpenTransaction.resume at resumed
  split at resumed
  · rename_i value remaining
    obtain ⟨-, rfl⟩ := Prod.mk.inj (Except.ok.inj resumed)
    rwa [remaining] at advances
  · cases resumed
  · split at resumed <;> simp at resumed

/-- A request may come at any point of a transaction, whether it joins it or not. -/
theorem within_request (within : Within program [.processing (event :: rest)] s transaction base)
    (admits : AdmitsRequests event.id program) (items : List JsonValue) (receivedAt : Time)
    {transaction' : OpenTransaction} (executed : transaction'.executed = transaction.executed)
    (remaining : transaction'.program = transaction.program)
    (rollback : transaction'.rollback = transaction.rollback ∨
      transaction'.rollback = enqueueBatch transaction.rollback items receivedAt) :
    Within program [.processing (event :: rest)] (enqueueBatch s items receivedAt) transaction'
      (enqueueBatch base items receivedAt) := by
  have received : base.Received event.id := by
    rw [Store.Received, stored_of_reached within.reached]
    rfl
  refine ⟨reached_request within.reached _ _, ?_, ?_, ?_⟩
  · rcases rollback with same | kept
    · rw [same]
      exact within.rollback
    · rw [kept]
      exact reached_request within.rollback _ _
  · rw [remaining]
    exact (within.advances.changed (admits items receivedAt) received).1
  · intro unexecuted
    rw [within.begun (executed.symm.trans unexecuted)]

theorem follows_request {joins : Bool} {poll : AwaitPoints.Poll} (follows : Follows s poll) (items : List JsonValue)
    (receivedAt : Time) :
    Follows (enqueueBatch s items receivedAt) (if joins then poll else poll.keeping items receivedAt) := by
  cases follows with
  | finding reached => cases joins <;> exact .finding (reached_request reached _ _)
  | filtering reached => cases joins <;> exact .filtering fun now => reached_request (reached now) _ _
  | looping reached => cases joins <;> exact .looping (reached_request reached _ _)
  | starting reached => cases joins <;> exact .starting (reached_request reached _ _)
  | caught reached => cases joins <;> exact .caught (reached_request reached _ _)
  | processing within =>
    have admits := AdmitsRequests.processEventTransaction
    cases joins with
    | true => exact .processing (within_request within (admits _ _) _ _ rfl rfl (Or.inl rfl))
    | false => exact .processing (within_request within (admits _ _) _ _ rfl rfl (Or.inr rfl))
  | recording within =>
    have admits := AdmitsRequests.handleUnexpectedFailure
    cases joins with
    | true => exact .recording (within_request within (admits _ _ _) _ _ rfl rfl (Or.inl rfl))
    | false => exact .recording (within_request within (admits _ _ _) _ _ rfl rfl (Or.inr rfl))

theorem refines_resume {poll : AwaitPoints.Poll} (follows : Follows s poll) (host : Host) :
    Refines (Server.resume ⟨s, true, [poll]⟩ 0 host poll) := by
  cases follows with
  | finding reached => exact .polling (.filtering (reached_read reached))
  | filtering reached => exact .polling (.looping (reached host.now))
  | @looping events reached =>
    cases events with
    | nil => exact .idle (reached_finish reached)
    | cons event rest => exact .polling (.starting reached)
  | starting reached => exact .polling (@Follows.processing _ _ _ host _ _ (within_begin reached))
  | caught reached => exact .polling (@Follows.recording _ _ _ host _ _ _ (within_begin reached))
  | @processing event rest _ transaction base within =>
    simp only [Server.resume]
    split
    · rename_i resumed
      exact .polling (.processing (within_resumed within resumed))
    · rename_i resumed
      have ran := processEvent_committed (advances_committed within resumed)
      exact .polling (.looping (reached_processed within.reached ran))
    · exact .polling (.caught within.rollback)
  | @recording event rest _ errorMessage transaction base within =>
    simp only [Server.resume]
    split
    · rename_i resumed
      exact .polling (.recording (within_resumed within resumed))
    · rename_i resumed
      have ran := processEvent_recorded (advances_committed within resumed)
      exact .polling (.looping (reached_processed within.reached ran))
    · exact .idle (reached_aborted within.rollback (@processEvent_aborted _ event host errorMessage errorMessage))

theorem refines_interrupt {poll : AwaitPoints.Poll} (follows : Follows s poll) {errorMessage : String} {server : Server}
    (thrown : Server.interrupt ⟨s, true, [poll]⟩ 0 errorMessage poll = some server) : Refines server := by
  cases follows with
  | filtering | looping => cases thrown
  | finding reached =>
    obtain rfl := Option.some.inj thrown
    exact .idle (reached_readFails reached)
  | starting reached =>
    obtain rfl := Option.some.inj thrown
    exact .polling (.caught reached)
  | processing within =>
    obtain rfl := Option.some.inj thrown
    exact .polling (.caught within.rollback)
  | @caught event rest message reached =>
    obtain rfl := Option.some.inj thrown
    exact .idle (reached_aborted reached (@processEvent_aborted _ event (stoppedAt 0) message errorMessage))
  | @recording event rest host message transaction base within =>
    obtain rfl := Option.some.inj thrown
    exact .idle (reached_aborted within.rollback (@processEvent_aborted _ event host message errorMessage))

/-- **Every step of the server is matched by the system.** -/
theorem refines_step {joins : Bool} {server server' : Server} {action : AwaitPoints.Action} (refines : Refines server)
    (taken : AwaitPoints.step joins server action = some server') : Refines server' := by
  cases refines with
  | idle reached =>
    cases action with
    | enqueueBatch items receivedAt =>
      obtain rfl := Option.some.inj taken
      cases joins <;> exact .idle (reached_request reached _ _)
    | onModuleInit | handlePollingInterval =>
      obtain rfl := Option.some.inj taken
      exact .polling (.finding (reached_poll reached))
    | resumes | throws => cases taken
  | @polling s poll follows =>
    cases action with
    | enqueueBatch items receivedAt =>
      obtain rfl := Option.some.inj taken
      have matched := @follows_request s joins poll follows items receivedAt
      cases joins <;> exact .polling matched
    | onModuleInit | handlePollingInterval =>
      obtain rfl := Option.some.inj taken
      exact .polling follows
    | resumes index host =>
      cases index with
      | succ index => cases taken
      | zero =>
        obtain rfl := Option.some.inj taken
        exact refines_resume follows host
    | throws index errorMessage =>
      cases index with
      | succ index => cases taken
      | zero => exact refines_interrupt follows taken

theorem refines_reachable {joins : Bool} {server : Server} (reachable : AwaitPoints.Reachable joins server) :
    Refines server := by
  obtain ⟨now, actions, run⟩ := reachable
  have started : Refines (.started now) := .idle ⟨now, [], by simp, .nil⟩
  have permitted : ∀ action ∈ actions, (fun _ : AwaitPoints.Action => True) action := fun _ _ => trivial
  exact run.invariant permitted started fun _ _ _ before _ taken => refines_step before taken

/-- **What holds of the system holds of the server**: with no transaction open,
its store is one that the system reaches. -/
theorem store_of_reachable {joins : Bool} {server : Server} (reachable : AwaitPoints.Reachable joins server)
    (closed : ∀ event rest attempt, .calling event rest attempt ∈ server.polls → attempt.open? = none) :
    ∃ sys, EventEngine.Reachable sys ∧ sys.store = server.store := by
  cases refines_reachable reachable with
  | idle reached => exact ⟨_, reached, rfl⟩
  | polling follows =>
    cases follows with
    | finding reached | looping reached | starting reached | caught reached => exact ⟨_, reached, rfl⟩
    | filtering reached => exact ⟨_, reached 0, rfl⟩
    | processing | recording => cases closed _ _ _ (List.mem_singleton.mpr rfl)

/-! ## The guarantee -/

/-- One worker, with a fresh snapshot of what it processes. -/
structure OneFreshWorker (server : Server) : Prop where
  /-- At most one poll is past the guard. -/
  one_poll : server.polls.length ≤ 1
  /-- No delivery is inside two calls of `processEvent`. -/
  one_call : (server.polls.filterMap Poll.called).Nodup
  /-- For as long as a call lasts, the database holds its delivery exactly as the
  snapshot does: with that status, those attempts and that availability. -/
  fresh : ∀ event rest attempt, .calling event rest attempt ∈ server.polls →
    (attempt.committed server.store).rawIncomingEvents.find event.id = some event
  /-- A transaction of the call finds it so as well, and the row that
  `handleUnexpectedFailure` reads again is the one of the snapshot. -/
  reread : ∀ event rest attempt transaction, .calling event rest attempt ∈ server.polls →
    attempt.open? = some transaction → transaction.executed = 0 →
    server.store.rawIncomingEvents.find event.id = some event
  /-- When no poll is in progress the guard is free, and the next tick gets past it. -/
  free : server.polls = [] → server.isPolling = false ∧ server.pollPendingOrRetryEvents.polls = [.finding]

theorem fresh_of_follows {attempt : Attempt} (follows : Follows s (.calling event rest attempt)) :
    (attempt.committed s).rawIncomingEvents.find event.id = some event := by
  cases follows with
  | starting reached | caught reached => exact stored_of_reached reached
  | processing within | recording within => exact stored_of_reached within.rollback

/-- Before its first statement, a transaction is in the store it began from. -/
theorem reread_of_follows {attempt : Attempt} (follows : Follows s (.calling event rest attempt))
    (opened : attempt.open? = some transaction) (unexecuted : transaction.executed = 0) :
    s.rawIncomingEvents.find event.id = some event := by
  cases follows with
  | starting | caught => cases opened
  | processing within | recording within =>
    obtain rfl := Option.some.inj opened
    rw [within.begun unexecuted]
    exact stored_of_reached within.reached

/-- **The polling guard gives one worker with fresh snapshots**, however
requests, ticks and throws fall between its awaits. -/
theorem one_worker_with_fresh_snapshots {joins : Bool} {server : Server}
    (reachable : AwaitPoints.Reachable joins server) : OneFreshWorker server := by
  cases refines_reachable reachable with
  | idle =>
    refine ⟨Nat.zero_le _, List.nodup_nil, ?_, ?_, fun _ => ⟨rfl, rfl⟩⟩
    · intro event rest attempt member
      cases member
    · intro event rest attempt transaction member
      cases member
  | @polling s poll follows =>
    refine ⟨le_rfl, ?_, ?_, ?_, fun idle => by cases idle⟩
    · cases called : poll.called with
      | none => simp [called]
      | some id => simp [called]
    · intro event rest attempt member
      obtain rfl := List.mem_singleton.mp member
      exact fresh_of_follows follows
    · intro event rest attempt transaction member
      obtain rfl := List.mem_singleton.mp member
      exact reread_of_follows follows

/-- A payment is posted before the module starts. While its processing
transaction is open another arrives, and a tick finds the guard taken; then the
transaction throws, and its failure is about to be recorded. -/
def overlappingActions : List AwaitPoints.Action :=
  [.enqueueBatch [postedItem "p" "o" .paymentCaptured 2 (amountPayload "amount" 50)] 0, .onModuleInit,
    .resumes 0 (stoppedAt 0), .resumes 0 (stoppedAt 0), .resumes 0 (stoppedAt 0), .resumes 0 (stoppedAt 0),
    .resumes 0 (stoppedAt 0), .enqueueBatch [postedItem "q" "o" .paymentCaptured 1 (amountPayload "amount" 50)] 0,
    .handlePollingInterval, .resumes 0 (stoppedAt 0), .throws 0 "SQLITE_BUSY: database is locked",
    .resumes 0 (stoppedAt 0)]

def overlappingServer : Server :=
  (execute (AwaitPoints.step false) (.started 0) overlappingActions).get (by decide +kernel)

theorem one_worker_with_fresh_snapshots_overlapping : OneFreshWorker overlappingServer :=
  one_worker_with_fresh_snapshots ⟨0, overlappingActions, run_of_enabled _⟩

example : overlappingServer.polls.filterMap Poll.called = [1] ∧
    overlappingServer.store.rawIncomingEvents.rows.length = 2 := by decide +kernel

end EventEngine.SingleWorker
