import EventEngine.Scheduler

/-! The server at its await points. Here a poll is suspended at every `await`,
inside the transactions of `processEvent` included, and requests, further
ticks and throws come in between; the system of `Scheduler` takes each call of
`processEvent` as one step. -/
namespace EventEngine.AwaitPoints
open EventEngine Relational

/-- An open transaction: the statements it has executed, what remains of its
program, and the store a rollback returns to. -/
structure OpenTransaction where
  executed : ℕ
  program : Tx Store Unit
  rollback : Store

/-- The transaction that `BEGIN` opens. -/
def OpenTransaction.begin (program : Tx Store Unit) (s : Store) : OpenTransaction := ⟨0, program, s⟩

/-- What a call of `processEvent` awaits. -/
inductive Attempt where
  /-- `BEGIN` of the processing transaction. -/
  | starting
  /-- A statement of it, or its `COMMIT`. -/
  | processing (transaction : OpenTransaction)
  /-- In the `catch` block, `BEGIN` of the recording transaction. -/
  | caught (errorMessage : String)
  | recording (transaction : OpenTransaction)

/-- What a call of `pollPendingOrRetryEvents` past the guard awaits. -/
inductive Poll where
  /-- The repository's answer. -/
  | finding
  /-- `Promise.resolve()` in `filterAvailableEvents`. -/
  | filtering (events : List RawIncomingEventEntity)
  /-- Its turn, between two calls of `processEvent`. -/
  | looping (events : List RawIncomingEventEntity)
  | calling (event : RawIncomingEventEntity) (rest : List RawIncomingEventEntity) (attempt : Attempt)

/-- The server: the store its one connection sees, the guard, and the polls past it. -/
structure Server where
  store : Store
  isPolling : Bool
  polls : List Poll

def Server.started (now : Time) : Server := ⟨Store.migrated now, false, []⟩

/-- What can happen next. A poll at an index resumes when what it awaits is
there, reading the clock if it has to, or what it awaits throws. -/
inductive Action where
  | enqueueBatch (events : List JsonValue) (receivedAt : Time)
  | onModuleInit
  | handlePollingInterval
  | resumes (index : ℕ) (host : Host)
  | throws (index : ℕ) (errorMessage : String)

/-! ## A request -/

/-- A request that stands on its own survives the rollback of a transaction
open at the time. -/
def OpenTransaction.keeping (transaction : OpenTransaction) (events : List JsonValue) (receivedAt : Time) :
    OpenTransaction :=
  { transaction with rollback := enqueueBatch transaction.rollback events receivedAt }

def Poll.keeping (events : List JsonValue) (receivedAt : Time) : Poll → Poll
  | .calling event rest (.processing transaction) =>
    .calling event rest (.processing (transaction.keeping events receivedAt))
  | .calling event rest (.recording transaction) =>
    .calling event rest (.recording (transaction.keeping events receivedAt))
  | poll => poll

/-! ## A poll -/

/-- The head of `pollPendingOrRetryEvents`, up to its first `await`. -/
def Server.pollPendingOrRetryEvents (server : Server) : Server :=
  if server.isPolling then server
  else { server with isPolling := true, polls := server.polls ++ [.finding] }

/-- The poll at an index goes on to its next `await`. -/
def Server.goOn (server : Server) (index : ℕ) (poll : Poll) (s : Store) : Server :=
  { server with store := s, polls := server.polls.set index poll }

/-- The poll at an index ends: the `finally` block frees the guard. -/
def Server.endPoll (server : Server) (index : ℕ) (s : Store) : Server :=
  ⟨s, false, server.polls.eraseIdx index⟩

/-- The next statement of a transaction, or its `COMMIT` when none is left. -/
def OpenTransaction.resume (transaction : OpenTransaction) (s : Store) :
    Except String (Option OpenTransaction × Store) :=
  match transaction.program with
  | .done _ => .ok (none, s)
  | .throw errorMessage => .error errorMessage
  | .statement exec next =>
    match exec s with
    | .ok (reply, s') => .ok (some ⟨transaction.executed + 1, next reply, transaction.rollback⟩, s')
    | .error errorMessage => .error errorMessage

/-- What a poll awaits is there. -/
def Server.resume (server : Server) (index : ℕ) (host : Host) : Poll → Server
  | .finding => server.goOn index (.filtering (findPendingOrRetry server.store)) server.store
  | .filtering events => server.goOn index (.looping (filterAvailableEvents events host.now)) server.store
  | .looping [] => server.endPoll index server.store
  | .looping (event :: rest) => server.goOn index (.calling event rest .starting) server.store
  | .calling event rest .starting =>
    let transaction := OpenTransaction.begin (processEventTransaction event host) server.store
    server.goOn index (.calling event rest (.processing transaction)) server.store
  | .calling event rest (.processing transaction) =>
    match transaction.resume server.store with
    | .ok (some transaction', s) => server.goOn index (.calling event rest (.processing transaction')) s
    | .ok (none, s) => server.goOn index (.looping rest) s
    | .error errorMessage => server.goOn index (.calling event rest (.caught errorMessage)) transaction.rollback
  | .calling event rest (.caught errorMessage) =>
    let transaction := OpenTransaction.begin (handleUnexpectedFailure event errorMessage host) server.store
    server.goOn index (.calling event rest (.recording transaction)) server.store
  | .calling event rest (.recording transaction) =>
    match transaction.resume server.store with
    | .ok (some transaction', s) => server.goOn index (.calling event rest (.recording transaction')) s
    | .ok (none, s) => server.goOn index (.looping rest) s
    | .error _ => server.endPoll index transaction.rollback

/-- What a poll awaits throws: `BEGIN`, a statement or `COMMIT`, or the query
for the snapshot. A promise that is already resolved does not. -/
def Server.interrupt (server : Server) (index : ℕ) (errorMessage : String) : Poll → Option Server
  | .finding => some (server.endPoll index server.store)
  | .filtering _ | .looping _ => none
  | .calling event rest .starting =>
    some (server.goOn index (.calling event rest (.caught errorMessage)) server.store)
  | .calling event rest (.processing transaction) =>
    some (server.goOn index (.calling event rest (.caught errorMessage)) transaction.rollback)
  | .calling _ _ (.caught _) => some (server.endPoll index server.store)
  | .calling _ _ (.recording transaction) => some (server.endPoll index transaction.rollback)

/-! ## The server -/

/-- One step of the server, when the action is enabled. Whether a request made
while a transaction is open becomes part of it, `joins`, is up to the database
connection. A request is one step, from its `BEGIN` to its `COMMIT`: that a
poll's transaction begins in between, on the same connection, is left out. -/
def step (joins : Bool) (server : Server) : Action → Option Server
  | .enqueueBatch events receivedAt =>
    some { server with
      store := EventEngine.enqueueBatch server.store events receivedAt
      polls := if joins then server.polls else server.polls.map (Poll.keeping events receivedAt) }
  | .onModuleInit | .handlePollingInterval => some server.pollPendingOrRetryEvents
  | .resumes index host => (server.polls[index]?).map (server.resume index host)
  | .throws index errorMessage => (server.polls[index]?).bind (server.interrupt index errorMessage)

/-- A state the server can reach after its migrations have run. -/
def Reachable (joins : Bool) (server : Server) : Prop :=
  ∃ now actions, Run (step joins) (.started now) actions server

/-- The delivery a poll is processing. -/
def Poll.called : Poll → Option ℕ
  | .calling event _ _ => some event.id
  | _ => none

/-- What the database holds while a call is under way: an open transaction has
not changed it yet. -/
def Attempt.committed (s : Store) : Attempt → Store
  | .starting | .caught _ => s
  | .processing transaction | .recording transaction => transaction.rollback

/-- The transaction a call has open. -/
def Attempt.open? : Attempt → Option OpenTransaction
  | .starting | .caught _ => none
  | .processing transaction | .recording transaction => some transaction

/-- The transaction a poll has open. -/
def Poll.open? : Poll → Option OpenTransaction
  | .calling _ _ attempt => attempt.open?
  | .finding | .filtering _ | .looping _ => none

end EventEngine.AwaitPoints
