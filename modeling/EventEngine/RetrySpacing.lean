import EventEngine.DecidedOnce

/-! Retries are spaced. A delivery that is to be attempted again waits for a
poll that reads the inbox when its delay is over, whichever of the two retry
paths put it off, and whatever else is polled in the meantime. -/
namespace EventEngine.RetrySpacing
open EventEngine Relational

variable {sys before after : System} {host : Host} {id : ℕ}

/-! ## Waiting outside the poll -/

/-- The delivery is not in the snapshot under way. -/
def Outside (id : ℕ) (sys : System) : Prop :=
  ∀ events, sys.polls = [.processing events] → ∀ event ∈ events, event.id ≠ id

/-- The delivery stands as it did, and is not in the snapshot under way. -/
structure PutOff (row : RawIncomingEventEntity) (sys : System) : Prop where
  stored : sys.store.rawIncomingEvents.find row.id = some row
  outside : Outside row.id sys

/-- A call is on the first delivery of the snapshot under way. -/
theorem called_of_polls (consistent : sys.Consistent) {action : Action} (called : calledDelivery sys action = some id) :
    ∃ event rest, sys.polls = [.processing (event :: rest)] ∧ event.id = id := by
  cases action with
  | process index =>
    simp only [calledDelivery] at called
    split at called
    · rename_i event rest found
      rcases consistent.guarded with ⟨idle, -⟩ | ⟨poll, single, -⟩
      · simp [idle] at found
      · rw [single] at found ⊢
        cases index with
        | zero =>
          rw [List.getElem?_cons_zero, Option.some.injEq] at found
          exact ⟨event, rest, by rw [found], Option.some.inj called⟩
        | succ index => simp at found
    · cases called
  | enqueueBatch | poll | read | readFails | finish => cases called

/-- A delivery that is put off stays so until a poll reads the inbox at a time
when it is available. -/
theorem putOff_step {row : RawIncomingEventEntity} {action : Action} (consistent : sys.Consistent)
    (putOff : PutOff row sys) (taken : step sys action = some after) :
    PutOff row after ∨ ∃ index now, action = .read index now ∧ row.availableAt ≤ now := by
  obtain ⟨stored, outside⟩ := putOff
  cases moves_of_step consistent taken with
  | enqueued => exact Or.inl ⟨findRow_enqueueBatch stored, outside⟩
  | skipped => exact Or.inl ⟨stored, outside⟩
  | opened | aborted | readFailed | finished => exact Or.inl ⟨stored, nofun⟩
  | read now =>
    by_cases available : row.availableAt ≤ now
    · exact Or.inr ⟨0, now, rfl, available⟩
    · refine Or.inl ⟨stored, ?_⟩
      rintro events snapshot event member same
      obtain rfl : filterAvailableEvents (findPendingOrRetry sys.store) now = events := by simpa using snapshot
      obtain ⟨listed, early⟩ := List.mem_filter.mp member
      have held : sys.store.rawIncomingEvents.find event.id = some event :=
        sys.store.rawIncomingEvents.find_self (mem_findPendingOrRetry.mp listed).1
      rw [same, stored] at held
      obtain rfl := Option.some.inj held
      exact available (by simpa using early)
  | @processed event rest _ _ _ _ working _ _ _ outcome =>
    have other : row.id ≠ event.id := fun same => outside _ working event List.mem_cons_self same.symm
    refine Or.inl ⟨(findRow_outcome outcome other).trans stored, ?_⟩
    rintro events left later member
    obtain rfl : rest = events := by simpa using left
    exact outside _ working later (List.mem_cons_of_mem event member)

theorem putOff_run {row : RawIncomingEventEntity} {actions : List Action} (consistent : before.Consistent)
    (putOff : PutOff row before) (run : Run step before actions after) :
    PutOff row after ∨ ∃ index now, Action.read index now ∈ actions ∧ row.availableAt ≤ now := by
  induction run with
  | nil => exact Or.inl putOff
  | @snoc prior action middle after run taken ih =>
    rcases ih with putOff | ⟨index, now, read, available⟩
    · have reached : Reaches (fun _ => True) before middle := ⟨prior, fun _ _ => trivial, run⟩
      rcases putOff_step (consistent_reaches reached consistent) putOff taken with putOff | ⟨index, now, rfl, available⟩
      · exact Or.inl putOff
      · exact Or.inr ⟨index, now, by simp, available⟩
    · exact Or.inr ⟨index, now, List.mem_append_left _ read, available⟩

/-! ## After an attempt -/

/-- A call decides its delivery, or makes it wait out its delay. -/
theorem decided_or_put_off {s s' : Store} {delivery : RawIncomingEventEntity} (call : Call s delivery host s') :
    (s'.decisionOf delivery.id).isSome ∨ ∃ row, s'.rawIncomingEvents.find delivery.id = some row ∧
      row.availableAt = host.nextAvailableAt := by
  have postponed : ∀ (t : Store) (message : String), t.rawIncomingEvents = s.rawIncomingEvents →
      ∃ row, (t.postpone delivery message host.nextAvailableAt).rawIncomingEvents.find delivery.id = some row ∧
        row.availableAt = host.nextAvailableAt := by
    intro t message inbox
    refine ⟨delivery.postponed (delivery.attempts + 1) message host.nextAvailableAt, ?_, rfl⟩
    rw [findRow_postpone, inbox, call.stored]
    simp
  cases call.outcome with
  | retried message => exact Or.inr (postponed s message rfl)
  | failed => exact Or.inl (decisionOf_settle_isSome s _ _ _)
  | committed committed =>
    cases committed with
    | deferred => exact Or.inr (postponed _ _ rfl)
    | invalid | duplicate | expired | rejected | applied => exact Or.inl (decisionOf_settle_isSome _ _ _ _)

/-- **Retries are spaced**: between two attempts on a delivery a poll read the
inbox no earlier than the retry delay after the first, unless the first left
nothing behind because its failure could not be recorded. -/
theorem retries_are_spaced (reachable : Reachable sys) {index : ℕ} {fault recordingFault : Option Fault}
    (called : calledDelivery sys (.process index host fault recordingFault) = some id)
    (taken : step sys (.process index host fault recordingFault) = some before) {actions : List Action}
    (run : Run step before actions after) {action : Action} (again : calledDelivery after action = some id) :
    before.store = sys.store ∨ ∃ index now, Action.read index now ∈ actions ∧
      host.now + getEventRetryDelayMs host.configuredRetryDelayMs ≤ now ∧ host.now < now := by
  have consistent := reachable.consistent
  have consistent' := consistent_step consistent taken
  have reached : Reaches (fun _ => True) before after := ⟨actions, fun _ _ => trivial, run⟩
  obtain ⟨retried, rest', working', same⟩ := called_of_polls (consistent_reaches reached consistent') again
  cases moves_of_step consistent taken with
  | aborted => exact Or.inl rfl
  | @processed event rest _ _ _ s' working stored undecided _ outcome =>
    right
    obtain rfl : event.id = id := by simpa [calledDelivery, working] using called
    have call : Call sys.store event host s' := ⟨consistent.store, stored, undecided, outcome⟩
    have queued := (consistent_reaches reached consistent').queued _ working'
    have waits : after.store.decisionOf event.id = none := same ▸ queued.undecided retried List.mem_cons_self
    rcases decided_or_put_off call with decided | ⟨row, found, delayed⟩
    · obtain ⟨decision, decided⟩ := Option.isSome_iff_exists.mp decided
      obtain ⟨row, found, -⟩ := DecidedOnce.attempt_of_call call
      have kept := (keepsDecided_reaches reached consistent' _ row decision found decided).2
      cases kept.symm.trans waits
    · have named : row.id = event.id := s'.rawIncomingEvents.id_of_find found
      have putOff : PutOff row { sys with store := s', polls := [.processing rest] } := by
        refine ⟨named.symm ▸ found, ?_⟩
        rintro events left later member
        obtain rfl : rest = events := by simpa using left
        rw [named]
        exact (consistent.queued _ working).apart later member
      rcases putOff_run consistent' putOff run with putOff | ⟨index, now, read, available⟩
      · exact absurd (same.trans named.symm) (putOff.outside _ working' retried List.mem_cons_self)
      · rw [delayed] at available
        have delay := getEventRetryDelayMs_pos host.configuredRetryDelayMs
        exact ⟨index, now, read, available, (Int.lt_add_of_pos_right host.now delay).trans_le available⟩

/-- The system of a run out of order before its first attempt, on a payment
whose order does not exist yet. -/
def waitingSystem : System := (execute step (.started 0) (outOfOrderActions.take 3)).get (by decide +kernel)

def firstAttempt : Action := .process 0 (stoppedAt 0) none none

theorem firstAttempt_enabled : (step waitingSystem firstAttempt).isSome := by decide +kernel

def attemptedSystem : System := (step waitingSystem firstAttempt).get firstAttempt_enabled

/-- What happens until the payment is attempted again. -/
def meanwhile : List Action := (outOfOrderActions.drop 4).take 6

theorem meanwhile_enabled : (execute step attemptedSystem meanwhile).isSome := by decide +kernel

def retryingSystem : System := (execute step attemptedSystem meanwhile).get meanwhile_enabled

theorem retries_are_spaced_out_of_order : attemptedSystem.store = waitingSystem.store ∨
    ∃ index now, Action.read index now ∈ meanwhile ∧
      (stoppedAt 0).now + getEventRetryDelayMs (stoppedAt 0).configuredRetryDelayMs ≤ now ∧
      (stoppedAt 0).now < now := by
  have reachable : Reachable waitingSystem := reachable_of_run (run_of_enabled _)
  have called : calledDelivery waitingSystem firstAttempt = some 1 := by decide +kernel
  have taken : step waitingSystem firstAttempt = some attemptedSystem := (Option.some_get _).symm
  have again : calledDelivery retryingSystem firstAttempt = some 1 := by decide +kernel
  exact retries_are_spaced reachable called taken (run_of_enabled meanwhile_enabled) again

end EventEngine.RetrySpacing
