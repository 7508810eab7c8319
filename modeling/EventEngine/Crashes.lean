import EventEngine.Growth
import EventEngine.SingleWorker

/-! Crashes. The process may die at any of its await points and be started
again. What was committed is still there, whatever is found on disk is a store
that the engine reaches without ever crashing, and no decision is taken twice. -/
namespace EventEngine.Crashes
open EventEngine Relational AwaitPoints SingleWorker Growth

/-! ## The server and its crashes -/

/-- What the database holds while a poll awaits something. -/
def committedBy (s : Store) : AwaitPoints.Poll → Store
  | .calling _ _ attempt => attempt.committed s
  | .finding | .filtering _ | .looping _ => s

/-- What the database file holds: an open transaction has not changed it yet. -/
def committed (server : Server) : Store := server.polls.foldl committedBy server.store

/-- The process dies and is started again. The database rolls an open
transaction back, the guard and the polls were in memory, and the migrations
find their tables and change nothing. -/
def crashed (server : Server) : Server := ⟨committed server, false, []⟩

inductive Happening where
  | acts (action : AwaitPoints.Action)
  | crashes

/-- One step of a server that may crash. -/
def stepOrCrash (joins : Bool) (server : Server) : Happening → Option Server
  | .acts action => AwaitPoints.step joins server action
  | .crashes => some (crashed server)

/-- A state the server can reach, crashes included, after its migrations have run. -/
def Reachable (joins : Bool) (server : Server) : Prop :=
  ∃ now happenings, Run (stepOrCrash joins) (.started now) happenings server

/-! ## Open transactions -/

variable {joins : Bool} {s s' base : Store} {event : RawIncomingEventEntity} {rest : List RawIncomingEventEntity}
  {host : Host} {fault recordingFault : Option Fault} {program : Tx Store Unit}
  {transaction transaction' : OpenTransaction}

/-- An open transaction began from what the database holds, and from the
requests that joined it meanwhile. -/
structure Began (joins : Bool) (program : Tx Store Unit) (event : RawIncomingEventEntity)
    (rest : List RawIncomingEventEntity) (s : Store) (transaction : OpenTransaction) (base : Store) : Prop where
  within : Within program [.processing (event :: rest)] s transaction base
  grows : Grows transaction.rollback base
  alone : joins = false → base = transaction.rollback

/-- The transaction that a call has open, if it has one, began so. -/
def Tracked (joins : Bool) (s : Store) : AwaitPoints.Poll → Prop
  | .calling event rest (.processing transaction) =>
    ∃ host base, Began joins (processEventTransaction event host) event rest s transaction base
  | .calling event rest (.recording transaction) =>
    ∃ errorMessage host base, Began joins (handleUnexpectedFailure event errorMessage host) event rest s transaction base
  | _ => True

/-- The server is where the system can be, and its transactions began there. -/
structure Stands (joins : Bool) (server : Server) : Prop where
  refines : Refines server
  tracked : ∀ poll ∈ server.polls, Tracked joins server.store poll

theorem began_begin (reached : Reached s [.processing (event :: rest)]) :
    Began joins program event rest s (.begin program s) s :=
  ⟨within_begin reached, .refl _, fun _ => rfl⟩

theorem rollback_of_resumed (resumed : transaction.resume s = .ok (some transaction', s')) :
    transaction'.rollback = transaction.rollback := by
  unfold OpenTransaction.resume at resumed
  split at resumed
  · cases resumed
  · cases resumed
  · split at resumed
    · cases resumed
      rfl
    · cases resumed

theorem began_resumed (began : Began joins program event rest s transaction base)
    (resumed : transaction.resume s = .ok (some transaction', s')) :
    Began joins program event rest s' transaction' base := by
  have same := rollback_of_resumed resumed
  exact ⟨within_resumed began.within resumed, same ▸ began.grows, same ▸ began.alone⟩

/-- A request joins an open transaction, or is kept beside it. -/
theorem began_request (began : Began joins program event rest s transaction base)
    (admits : AdmitsRequests event.id program) (items : List JsonValue) (receivedAt : Time) :
    Began joins program event rest (enqueueBatch s items receivedAt)
      (if joins then transaction else transaction.keeping items receivedAt) (enqueueBatch base items receivedAt) := by
  cases joins with
  | true =>
    refine ⟨within_request began.within admits items receivedAt rfl rfl (Or.inl rfl), ?_, nofun⟩
    exact began.grows.trans (grows_enqueueBatch items receivedAt)
  | false =>
    refine ⟨within_request began.within admits items receivedAt rfl rfl (Or.inr rfl), ?_, ?_⟩
    · rw [began.alone rfl]
      exact .refl _
    · intro _
      rw [began.alone rfl]
      rfl

/-- A call that returned without throwing is a call of the system. -/
theorem call_of_processed (reached : Reached s [.processing (event :: rest)])
    (ran : processEvent event host fault recordingFault s = (.ok (), s')) : Call s event host s' := by
  have queued := reached.consistent.queued _ rfl
  have stored := queued.stored event List.mem_cons_self
  have undecided := queued.undecided event List.mem_cons_self
  refine ⟨reached.consistent.store, stored, undecided, ?_⟩
  rcases processEvent_outcome reached.consistent.store.toOperational undecided stored host fault recordingFault with
    ⟨t, done, outcome⟩ | ⟨message, -, thrown⟩
  · rw [ran] at done
    cases done
    exact outcome
  · rw [ran] at thrown
    cases thrown

/-- What a transaction commits continues what the database held. -/
theorem began_committed (began : Began joins program event rest s transaction base)
    (ran : processEvent event host fault recordingFault base = (.ok (), s')) : Grows transaction.rollback s' :=
  began.grows.trans (grows_call (historied_reachable began.within.reached) (call_of_processed began.within.reached ran))

/-! ## One step -/

/-- A poll leaves with what it has done so far. -/
theorem reached_abandoned {events : List RawIncomingEventEntity} (reached : Reached s [.processing events]) :
    Reached s [] := by
  cases events with
  | nil => exact reached_finish reached
  | cons event rest => exact reached_aborted reached (@processEvent_aborted s event (stoppedAt 0) "" "")

/-- What is on disk is a store that the system reaches, and rests in. -/
theorem reached_committed {poll : AwaitPoints.Poll} (follows : Follows s poll) : Reached (committedBy s poll) [] := by
  cases follows with
  | finding reached => exact reached_readFails reached
  | filtering reached => exact reached_abandoned (reached 0)
  | looping reached | starting reached | caught reached => exact reached_abandoned reached
  | processing within | recording within => exact reached_abandoned within.rollback

/-- What one step makes of the server and of what is on disk. -/
def Continues (joins : Bool) (server server' : Server) : Prop :=
  Stands joins server' ∧ Grows (committed server) (committed server')

theorem stands_idle (reached : Reached s []) : Stands joins ⟨s, false, []⟩ :=
  ⟨.idle reached, fun _ member => by cases member⟩

theorem stands_polling {poll : AwaitPoints.Poll} (follows : Follows s poll) (tracked : Tracked joins s poll) :
    Stands joins ⟨s, true, [poll]⟩ :=
  ⟨.polling follows, fun _ member => by rwa [List.mem_singleton.mp member]⟩

theorem continues_crash {server : Server} (stands : Stands joins server) :
    Continues joins server (crashed server) := by
  refine ⟨?_, .refl _⟩
  cases stands.refines with
  | idle reached => exact stands_idle reached
  | polling follows => exact stands_idle (reached_committed follows)

/-- A poll after a request, which joins an open transaction or does not. -/
def requested (joins : Bool) (items : List JsonValue) (receivedAt : Time) (poll : AwaitPoints.Poll) :
    AwaitPoints.Poll := if joins then poll else poll.keeping items receivedAt

theorem tracked_request {poll : AwaitPoints.Poll} (tracked : Tracked joins s poll) (items : List JsonValue)
    (receivedAt : Time) : Tracked joins (enqueueBatch s items receivedAt) (requested joins items receivedAt poll) := by
  cases poll with
  | finding | filtering | looping => cases joins <;> trivial
  | calling event rest attempt =>
    cases attempt with
    | starting | caught => cases joins <;> trivial
    | processing transaction =>
      obtain ⟨host, base, began⟩ := tracked
      have later := began_request began (AdmitsRequests.processEventTransaction event host) items receivedAt
      cases joins <;> exact ⟨host, _, later⟩
    | recording transaction =>
      obtain ⟨message, host, base, began⟩ := tracked
      have later := began_request began (AdmitsRequests.handleUnexpectedFailure event message host) items receivedAt
      cases joins <;> exact ⟨message, host, _, later⟩

/-- A request made of the server now would be no part of an open transaction:
the connection keeps it apart, or none is open. -/
def StandsAlone (joins : Bool) (server : Server) : Prop :=
  joins = false ∨ ∀ poll ∈ server.polls, poll.open? = none

/-- A request is on disk at once, unless it joined an open transaction. -/
theorem committed_request (s : Store) (poll : AwaitPoints.Poll) (items : List JsonValue) (receivedAt : Time) :
    committedBy (enqueueBatch s items receivedAt) (requested joins items receivedAt poll) =
        enqueueBatch (committedBy s poll) items receivedAt ∨
      (joins = true ∧ poll.open? ≠ none) ∧
        committedBy (enqueueBatch s items receivedAt) (requested joins items receivedAt poll) = committedBy s poll := by
  cases poll with
  | finding | filtering | looping => cases joins <;> exact Or.inl rfl
  | calling event rest attempt =>
    cases joins with
    | false => cases attempt <;> exact Or.inl rfl
    | true =>
      cases attempt with
      | starting | caught => exact Or.inl rfl
      | processing | recording => exact Or.inr ⟨⟨rfl, Option.some_ne_none _⟩, rfl⟩

theorem continues_request {server server' : Server} (stands : Stands joins server) (items : List JsonValue)
    (receivedAt : Time) (taken : AwaitPoints.step joins server (.enqueueBatch items receivedAt) = some server') :
    Continues joins server server' ∧
      (StandsAlone joins server → committed server' = enqueueBatch (committed server) items receivedAt) := by
  obtain rfl := Option.some.inj taken
  cases stands.refines with
  | idle reached =>
    have requested := reached_request reached items receivedAt
    cases joins <;> exact ⟨⟨stands_idle requested, grows_enqueueBatch items receivedAt⟩, fun _ => rfl⟩
  | @polling s poll follows =>
    have follows' := @follows_request s joins poll follows items receivedAt
    have tracked := tracked_request (stands.tracked poll (List.mem_singleton.mpr rfl)) items receivedAt
    have same : (if joins then [poll] else [poll].map (Poll.keeping items receivedAt)) =
        [requested joins items receivedAt poll] := by
      cases joins <;> rfl
    simp only [same]
    have disk := @committed_request joins s poll items receivedAt
    refine ⟨⟨stands_polling follows' tracked, ?_⟩, ?_⟩
    · rcases disk with kept | ⟨-, unchanged⟩
      · exact (congrArg (Grows (committedBy s poll)) kept).mpr (grows_enqueueBatch items receivedAt)
      · exact (congrArg (Grows (committedBy s poll)) unchanged).mpr (.refl _)
    · intro alone
      refine disk.resolve_right fun joined => ?_
      rcases alone with separate | unopened
      · cases joined.1.1.symm.trans separate
      · exact joined.1.2 (unopened poll (List.mem_singleton.mpr rfl))

theorem continues_resume {poll : AwaitPoints.Poll} (follows : Follows s poll) (tracked : Tracked joins s poll)
    (host : Host) : Continues joins ⟨s, true, [poll]⟩ (Server.resume ⟨s, true, [poll]⟩ 0 host poll) := by
  cases follows with
  | finding reached => exact ⟨stands_polling (.filtering (reached_read reached)) trivial, .refl _⟩
  | filtering reached => exact ⟨stands_polling (.looping (reached host.now)) trivial, .refl _⟩
  | @looping events reached =>
    cases events with
    | nil => exact ⟨stands_idle (reached_finish reached), .refl _⟩
    | cons event rest => exact ⟨stands_polling (.starting reached) trivial, .refl _⟩
  | starting reached =>
    have follows := @Follows.processing _ _ _ host _ _ (within_begin reached)
    exact ⟨stands_polling follows ⟨host, s, began_begin reached⟩, .refl _⟩
  | @caught event rest message reached =>
    have follows := @Follows.recording _ _ _ host message _ _ (within_begin reached)
    exact ⟨stands_polling follows ⟨message, host, s, began_begin reached⟩, .refl _⟩
  | @processing event rest _ transaction _ within =>
    obtain ⟨host', base, began⟩ := tracked
    simp only [Server.resume]
    split
    · rename_i transaction' s' resumed
      have later := began_resumed began resumed
      refine ⟨stands_polling (.processing later.within) ⟨host', base, later⟩, ?_⟩
      exact (congrArg (Grows transaction.rollback) (rollback_of_resumed resumed)).mpr (.refl _)
    · rename_i s' resumed
      have ran := processEvent_committed (advances_committed began.within resumed)
      exact ⟨stands_polling (.looping (reached_processed began.within.reached ran)) trivial, began_committed began ran⟩
    · exact ⟨stands_polling (.caught within.rollback) trivial, .refl _⟩
  | @recording event rest _ _ transaction _ within =>
    obtain ⟨message, host', base, began⟩ := tracked
    simp only [Server.resume]
    split
    · rename_i transaction' s' resumed
      have later := began_resumed began resumed
      refine ⟨stands_polling (.recording later.within) ⟨message, host', base, later⟩, ?_⟩
      exact (congrArg (Grows transaction.rollback) (rollback_of_resumed resumed)).mpr (.refl _)
    · rename_i s' resumed
      have ran := processEvent_recorded (advances_committed began.within resumed)
      exact ⟨stands_polling (.looping (reached_processed began.within.reached ran)) trivial, began_committed began ran⟩
    · exact ⟨stands_idle (reached_abandoned within.rollback), .refl _⟩

/-- A throw takes back what was not committed, and nothing else. -/
theorem continues_interrupt {poll : AwaitPoints.Poll} (follows : Follows s poll) {errorMessage : String}
    {server : Server} (thrown : Server.interrupt ⟨s, true, [poll]⟩ 0 errorMessage poll = some server) :
    Continues joins ⟨s, true, [poll]⟩ server := by
  cases follows with
  | filtering | looping => cases thrown
  | finding reached =>
    obtain rfl := Option.some.inj thrown
    exact ⟨stands_idle (reached_readFails reached), .refl _⟩
  | starting reached =>
    obtain rfl := Option.some.inj thrown
    exact ⟨stands_polling (.caught reached) trivial, .refl _⟩
  | processing within =>
    obtain rfl := Option.some.inj thrown
    exact ⟨stands_polling (.caught within.rollback) trivial, .refl _⟩
  | caught reached =>
    obtain rfl := Option.some.inj thrown
    exact ⟨stands_idle (reached_abandoned reached), .refl _⟩
  | recording within =>
    obtain rfl := Option.some.inj thrown
    exact ⟨stands_idle (reached_abandoned within.rollback), .refl _⟩

theorem continues_step {server server' : Server} {happening : Happening} (stands : Stands joins server)
    (taken : stepOrCrash joins server happening = some server') : Continues joins server server' := by
  cases happening with
  | crashes =>
    obtain rfl := Option.some.inj taken
    exact continues_crash stands
  | acts action =>
    cases action with
    | enqueueBatch items receivedAt => exact (continues_request stands items receivedAt taken).1
    | onModuleInit | handlePollingInterval =>
      obtain rfl := Option.some.inj taken
      cases stands.refines with
      | idle reached => exact ⟨stands_polling (.finding (reached_poll reached)) trivial, .refl _⟩
      | polling follows => exact ⟨stands, .refl _⟩
    | resumes index host =>
      cases stands.refines with
      | idle => cases taken
      | @polling s poll follows =>
        cases index with
        | succ index => cases taken
        | zero =>
          obtain rfl := Option.some.inj taken
          exact continues_resume follows (stands.tracked poll (List.mem_singleton.mpr rfl)) host
    | throws index errorMessage =>
      cases stands.refines with
      | idle => cases taken
      | polling follows =>
        cases index with
        | succ index => cases taken
        | zero => exact continues_interrupt follows taken

/-! ## Runs -/

theorem stands_reachable {server : Server} (reachable : Reachable joins server) : Stands joins server := by
  obtain ⟨now, happenings, run⟩ := reachable
  have started : Stands joins (.started now) := stands_idle ⟨now, [], by simp, .nil⟩
  have permitted : ∀ happening ∈ happenings, (fun _ : Happening => True) happening := fun _ _ => trivial
  exact run.invariant permitted started fun _ _ _ before _ taken => (continues_step before taken).1

/-- What a server that crashes owes to those who saw it before. -/
structure Durable (joins : Bool) (server server' : Server) : Prop where
  /-- Whatever was on disk, what is there now continues it. -/
  grows : Grows (committed server) (committed server')
  /-- And it is a store that the engine reaches, and rests in, without crashing. -/
  uncrashed : EventEngine.Reachable ⟨committed server', false, []⟩
  /-- A request is on disk when it is answered, unless it became part of an open
  transaction. -/
  accepted : StandsAlone joins server' → ∀ items receivedAt server'',
    AwaitPoints.step joins server' (.enqueueBatch items receivedAt) = some server'' →
      committed server'' = enqueueBatch (committed server') items receivedAt

theorem uncrashed_of_stands {server : Server} (stands : Stands joins server) : Reached (committed server) [] := by
  cases stands.refines with
  | idle reached => exact reached
  | polling follows => exact reached_committed follows

/-- **Crashes take nothing back**, at whatever awaits they fall and however many
there are. -/
theorem crashes_take_nothing_back {server server' : Server} {happenings : List Happening}
    (reachable : Reachable joins server) (run : Run (stepOrCrash joins) server happenings server') :
    Durable joins server server' := by
  have stands := stands_reachable reachable
  have permitted : ∀ happening ∈ happenings, (fun _ : Happening => True) happening := fun _ _ => trivial
  have stands' : Stands joins server' :=
    run.invariant permitted stands fun _ _ _ before _ taken => (continues_step before taken).1
  refine ⟨?_, uncrashed_of_stands stands', ?_⟩
  · exact @Run.relates _ _ _ _ _ _ (Stands joins) _ (fun before after => Grows (committed before) (committed after)) run
      permitted stands (fun _ _ _ before _ taken => (continues_step before taken).1) (fun _ => .refl _)
      (fun _ _ _ => .trans) fun _ _ _ before _ taken => (continues_step before taken).2
  · intro alone items receivedAt server'' taken
    exact (continues_request stands' items receivedAt taken).2 alone

/-- The process dies while the failure of a payment is being recorded, starts
again, and reads its inbox. -/
def crashingHappenings : List Happening :=
  [.acts (.resumes 0 (stoppedAt 0)), .crashes, .acts .onModuleInit, .acts (.resumes 0 (stoppedAt 0))]

def restartedServer : Server :=
  (execute (stepOrCrash false) overlappingServer crashingHappenings).get (by decide +kernel)

theorem overlapping_reachable : Reachable false overlappingServer :=
  ⟨0, overlappingActions.map .acts, run_of_execute (by rfl)⟩

theorem crashes_take_nothing_back_restarted : Durable false overlappingServer restartedServer :=
  crashes_take_nothing_back overlapping_reachable (run_of_enabled _)

end EventEngine.Crashes
