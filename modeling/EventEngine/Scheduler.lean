import EventEngine.Processing
import EventEngine.Relational.Runs
import Mathlib.Data.List.Sort

/-! The running system: requests that append to the inbox, and polls that work
through it. A poll takes the guard, reads the inbox once, processes what is
available in order, and gives the guard back however it ends. -/
namespace EventEngine
open Relational

/-- The order of the polling query, `eventTimestamp ASC NULLS LAST, id ASC`. -/
def queuedBefore (first second : RawIncomingEventEntity) : Bool :=
  match first.eventTimestamp, second.eventTimestamp with
  | some earlier, some later => earlier < later || (earlier == later && first.id ≤ second.id)
  | some _, none => true
  | none, some _ => false
  | none, none => first.id ≤ second.id

/-- The query of `pollPendingOrRetryEvents`. -/
def findPendingOrRetry (s : Store) : List RawIncomingEventEntity :=
  (s.rawIncomingEvents.rows.filter fun event =>
    event.processingStatus = .pending ∨ event.processingStatus = .retry).insertionSort (fun first second => queuedBefore first second)

/-- `EventProcessingSchedulerService.filterAvailableEvents`. -/
def filterAvailableEvents (events : List RawIncomingEventEntity) (now : Time) : List RawIncomingEventEntity :=
  events.filter (·.availableAt ≤ now)

/-- A poll past the guard: about to read the inbox, or with the snapshot it
still has to process. -/
inductive Poll where
  | reading
  | processing (events : List RawIncomingEventEntity)

/-- The server: its database, the scheduler's guard, and the polls past it. -/
structure System where
  store : Store
  isPolling : Bool
  polls : List Poll

def System.started (now : Time) : System := ⟨Store.migrated now, false, []⟩

/-- What can happen next. `poll` is a call of `pollPendingOrRetryEvents`, from
module initialisation or from an interval tick; the actions with an index
continue the poll at that position. -/
inductive Action where
  | enqueueBatch (events : List JsonValue) (receivedAt : Time)
  | poll
  | read (index : ℕ) (now : Time)
  | readFails (index : ℕ)
  | process (index : ℕ) (host : Host) (fault recordingFault : Option Fault)
  | finish (index : ℕ)

/-- The poll at an index ends: the `finally` block frees the guard. -/
def System.endPoll (sys : System) (index : ℕ) : System :=
  { sys with isPolling := false, polls := sys.polls.eraseIdx index }

/-- One step of the system, when the action is enabled. -/
def step (sys : System) : Action → Option System
  | .enqueueBatch events receivedAt => some { sys with store := EventEngine.enqueueBatch sys.store events receivedAt }
  | .poll =>
    if sys.isPolling then some sys
    else some { sys with isPolling := true, polls := sys.polls ++ [.reading] }
  | .read index now =>
    match sys.polls[index]? with
    | some .reading =>
      let events := filterAvailableEvents (findPendingOrRetry sys.store) now
      some { sys with polls := sys.polls.set index (.processing events) }
    | _ => none
  | .readFails index =>
    match sys.polls[index]? with
    | some .reading => some (sys.endPoll index)
    | _ => none
  | .process index host fault recordingFault =>
    match sys.polls[index]? with
    | some (.processing (event :: rest)) =>
      match processEvent event host fault recordingFault sys.store with
      | (.ok _, store) => some { sys with store, polls := sys.polls.set index (.processing rest) }
      | (.error _, store) => some ({ sys with store }.endPoll index)
    | _ => none
  | .finish index =>
    match sys.polls[index]? with
    | some (.processing []) => some (sys.endPoll index)
    | _ => none

/-- The states of a run that performs only permitted actions. -/
def Reaches (permitted : Action → Prop) (start finish : System) : Prop :=
  ∃ actions, (∀ action ∈ actions, permitted action) ∧ Run step start actions finish

/-- A state the server can reach after its migrations have run. -/
def Reachable (sys : System) : Prop := ∃ now, Reaches (fun _ => True) (.started now) sys

/-! ## A run -/

/-- An item as a client posts it. -/
def postedItem (eventId orderId : String) (type : SupportedEventType) (timestamp : ℚ) (payload : JsonObject) :
    JsonValue :=
  .object [("eventId", .string eventId), ("orderId", .string orderId), ("type", .string type.text),
    ("timestamp", .number (.finite timestamp)), ("payload", .object payload)]

/-- A host whose clock stands still, with the default retry delay. -/
def stoppedAt (now : Time) : Host := ⟨now, now, .nan⟩

def amountPayload (name : String) (value : ℚ) : JsonObject := [(name, .number (.finite value))]

/-- The payload of a creation or an update. -/
def fieldsPayload (amount : ℚ) (currency : String) : JsonObject :=
  [("amount", .number (.finite amount)), ("currency", .string currency)]

/-- A payment is polled before its order exists and waits. Once its delay is
over, the order is created, a copy of the creation meets a busy database, and
the payment, an update and a refund follow in event order. -/
def outOfOrderActions : List Action :=
  [.enqueueBatch [postedItem "p" "o" .paymentCaptured 2 (amountPayload "amount" 50)] 0,
    .poll, .read 0 0, .process 0 (stoppedAt 0) none none, .finish 0,
    .enqueueBatch
      [postedItem "c" "o" .orderCreated 1 (fieldsPayload 50 " PLN "),
        postedItem "r" "o" .refundIssued 4 (amountPayload "refundAmount" 20),
        postedItem "c" "o" .orderCreated 1 (fieldsPayload 50 " PLN "),
        postedItem "u" "o" .orderUpdated 3 (fieldsPayload 60 "EUR")] 100,
    .poll, .read 0 20000, .process 0 (stoppedAt 20000) none none,
    .process 0 (stoppedAt 20000) (some ⟨1, "SQLITE_BUSY: database is locked"⟩) none,
    .process 0 (stoppedAt 20000) none none, .process 0 (stoppedAt 20000) none none,
    .process 0 (stoppedAt 20000) none none, .finish 0]

theorem outOfOrderActions_enabled : (execute step (.started 0) outOfOrderActions).isSome := by decide +kernel

/-- Where that run ends. -/
def outOfOrderSystem : System := (execute step (.started 0) outOfOrderActions).get outOfOrderActions_enabled

theorem outOfOrder_run : Run step (.started 0) outOfOrderActions outOfOrderSystem :=
  run_of_enabled outOfOrderActions_enabled

example : (outOfOrderSystem.store.eventDecisions.rows.map fun decision =>
    (decision.rawIncomingEventId, decision.decision)) =
    [(2, .accepted), (1, .accepted), (5, .accepted), (3, .accepted)] := by decide +kernel

end EventEngine
