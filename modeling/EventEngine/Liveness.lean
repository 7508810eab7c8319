import EventEngine.DecidedOnce
import EventEngine.PollOrder
import EventEngine.Relational.Behaviours
import Mathlib.Order.Filter.AtTopBot.Basic
import Mathlib.Order.Filter.Finite

/-! Nothing waits for ever. The interval ticks, a poll under way goes on, time
passes, and from some moment on the database can be read and failures can be
recorded. Then every delivery is decided in the end, whatever is posted in the
meantime and however often processing transactions throw. -/
namespace EventEngine.Liveness
open EventEngine Relational DecidedOnce PollOrder

/-! ## Fairness -/

/-- An action that takes the poll under way further. -/
def GoesOn : Action → Prop
  | .read _ _ | .readFails _ | .process _ _ _ _ | .finish _ => True
  | .enqueueBatch _ _ | .poll => False

/-- At most a processing transaction throws. -/
def Mended : Action → Prop
  | .readFails _ => False
  | .process _ _ _ recordingFault => recordingFault = none
  | _ => True

structure Fair (b : Behaviour step) : Prop where
  /-- The interval keeps ticking. -/
  ticks : ∀ n, ∃ m, n ≤ m ∧ b.action m = .poll
  /-- A poll under way is not suspended for good. -/
  resumes : WeaklyFair (fun n => (b.state n).polls ≠ []) fun n => GoesOn (b.action n)
  /-- Every time comes: later polls read their clock after it. -/
  clock : ∀ time, ∃ n, ∀ m, n ≤ m → ∀ index now, b.action m = .read index now → time ≤ now
  /-- Reading the inbox and recording a failure succeed from some moment on. -/
  mends : ∃ n, ∀ m, n ≤ m → Mended (b.action m)

variable {b : Behaviour step} {n N : ℕ} {row : RawIncomingEventEntity}

/-! ## Deliveries -/

/-- The delivery stands as it did, undecided. -/
def Waits (s : Store) (row : RawIncomingEventEntity) : Prop :=
  s.rawIncomingEvents.find row.id = some row ∧ s.decisionOf row.id = none

/-- The delivery is decided, or has used another attempt. -/
def Advanced (s : Store) (row : RawIncomingEventEntity) : Prop :=
  (s.decisionOf row.id).isSome ∨
    ∃ row', s.rawIncomingEvents.find row.id = some row' ∧ s.decisionOf row.id = none ∧ row.attempts < row'.attempts

theorem advanced_of_call {s s' : Store} {host : Host} (call : Call s row host s') : Advanced s' row := by
  obtain ⟨row', found, ⟨decided, -⟩ | ⟨undecided, -, attempted⟩⟩ := attempt_of_call call
  · exact Or.inl decided
  · exact Or.inr ⟨row', found, undecided, by omega⟩

theorem waits_or_advanced_call {s s' : Store} {delivery : RawIncomingEventEntity} {host : Host}
    (call : Call s delivery host s') (waits : Waits s row) : Waits s' row ∨ Advanced s' row := by
  by_cases own : row.id = delivery.id
  · have same := call.stored
    rw [← own, waits.1, Option.some.injEq] at same
    subst same
    exact Or.inr (advanced_of_call call)
  · left
    rw [Waits, findRow_outcome call.outcome own, decisionOf_outcome call.outcome own]
    exact waits

theorem advanced_call {s s' : Store} {delivery : RawIncomingEventEntity} {host : Host} (call : Call s delivery host s')
    (advanced : Advanced s row) : Advanced s' row := by
  by_cases own : row.id = delivery.id
  · rcases advanced with decided | ⟨row', found, undecided, more⟩
    · rw [own, call.undecided] at decided
      cases decided
    · rw [own] at found
      obtain rfl := Option.some.inj (call.stored.symm.trans found)
      rcases advanced_of_call call with decided | ⟨row'', found', undecided', more'⟩
      · exact Or.inl (own ▸ decided)
      · exact Or.inr ⟨row'', own ▸ found', own ▸ undecided', more.trans more'⟩
  · rw [Advanced, findRow_outcome call.outcome own, decisionOf_outcome call.outcome own]
    exact advanced

/-- A delivery that waits goes on waiting until it has advanced, and has advanced for good. -/
theorem waits_or_advanced {permitted : Action → Prop} {start finish : System} (reached : Reaches permitted start finish)
    (consistent : start.Consistent) (waits : Waits start.store row) :
    Waits finish.store row ∨ Advanced finish.store row := by
  apply store_invariant (fun s => Waits s row ∨ Advanced s row) reached consistent (Or.inl waits)
  · rintro s events receivedAt - - (⟨found, undecided⟩ | decided | ⟨row', found, undecided, more⟩)
    · exact Or.inl ⟨findRow_enqueueBatch found, undecided⟩
    · exact Or.inr (Or.inl decided)
    · exact Or.inr (Or.inr ⟨row', findRow_enqueueBatch found, undecided, more⟩)
  · rintro s delivery host s' call (waits | advanced)
    · exact waits_or_advanced_call call waits
    · exact Or.inr (advanced_call call advanced)

/-! ## One step of a poll -/

variable {sys sys' : System} {action : Action}

/-- With no poll under way the guard is free, and a tick begins one. -/
theorem free_step (consistent : sys.Consistent) (taken : step sys action = some sys') (free : sys.polls = []) :
    action ≠ .poll ∧ sys'.polls = [] ∨ action = .poll ∧ sys'.polls = [.reading] := by
  cases moves_of_step consistent taken with
  | enqueued => exact Or.inl ⟨nofun, free⟩
  | skipped => cases (busy_of_skipped taken).symm.trans (consistent.free free)
  | opened => exact Or.inr ⟨rfl, rfl⟩
  | read _ other | readFailed other | finished other | processed other | aborted other => simp [free] at other

theorem reading_step (moves : Moves sys action sys') (mended : Mended action) (reading : sys.polls = [.reading]) :
    ¬ GoesOn action ∧ sys'.polls = [.reading] ∨ GoesOn action ∧ ∃ index now, action = .read index now ∧
      sys'.polls = [.processing (filterAvailableEvents (findPendingOrRetry sys'.store) now)] := by
  cases moves with
  | enqueued | skipped => exact Or.inl ⟨id, reading⟩
  | opened idle => simp [reading] at idle
  | read now => exact Or.inr ⟨trivial, 0, now, rfl, rfl⟩
  | readFailed => exact mended.elim
  | finished other | processed other | aborted other => simp [reading] at other

theorem working_step (consistent : sys.Consistent) (moves : Moves sys action sys') (mended : Mended action)
    {rest : List RawIncomingEventEntity} (working : sys.polls = [.processing rest]) :
    ¬ GoesOn action ∧ sys'.polls = [.processing rest] ∨ GoesOn action ∧
      (rest = [] ∧ sys'.polls = [] ∨ ∃ event rest' host, rest = event :: rest' ∧ sys'.polls = [.processing rest'] ∧
        Call sys.store event host sys'.store) := by
  cases moves with
  | enqueued | skipped => exact Or.inl ⟨id, working⟩
  | opened idle => simp [working] at idle
  | read _ other | readFailed other => simp [working] at other
  | @processed event rest' host _ _ s' queue stored undecided ran outcome =>
    rw [working] at queue
    obtain rfl : rest = event :: rest' := by simpa using queue
    exact Or.inr ⟨trivial, Or.inr ⟨event, rest', host, rfl, rfl, consistent.store, stored, undecided, outcome⟩⟩
  | aborted _ unrecorded =>
    rw [mended] at unrecorded
    cases unrecorded
  | finished done =>
    rw [working] at done
    obtain rfl : rest = [] := by simpa using done
    exact Or.inr ⟨trivial, Or.inl ⟨rfl, rfl⟩⟩

/-! ## A poll ends, and another begins -/

/-- From a moment on, nothing but processing transactions throws, and the clock
has passed a time. -/
structure Steady (b : Behaviour step) (N : ℕ) (time : Time) : Prop where
  reachable : ∀ n, Reachable (b.state n)
  mended : ∀ n, N ≤ n → Mended (b.action n)
  late : ∀ n, N ≤ n → ∀ index now, b.action n = .read index now → time ≤ now

variable {time : Time}

theorem Steady.moves (steady : Steady b N time) (n : ℕ) : Moves (b.state n) (b.action n) (b.state (n + 1)) :=
  moves_of_step (steady.reachable n).consistent (b.taken n)

/-- How much of its snapshot a poll has still to process. -/
def remaining (sys : System) : ℕ :=
  match sys.polls with
  | [.processing events] => events.length
  | _ => 0

theorem opens (fair : Fair b) (steady : Steady b N time) :
    LeadsTo (fun n => N ≤ n ∧ (b.state n).polls = []) fun n => N ≤ n ∧ (b.state n).polls = [.reading] := by
  have ticks : WeaklyFair (fun _ => True) fun n => b.action n = .poll := fun n _ => fair.ticks n
  refine .of_fair ticks ?_ (fun _ _ => trivial) ?_
  · rintro n ⟨later, free⟩ quiet
    rcases free_step (steady.reachable n).consistent (b.taken n) free with ⟨-, free⟩ | ⟨tick, -⟩
    · exact Or.inr ⟨by omega, free⟩
    · exact absurd tick quiet
  · rintro n ⟨later, free⟩ tick
    rcases free_step (steady.reachable n).consistent (b.taken n) free with ⟨quiet, -⟩ | ⟨-, reading⟩
    · exact absurd tick quiet
    · exact ⟨by omega, reading⟩

/-- A poll that is about to read takes its snapshot, late enough. -/
theorem takes_snapshot (fair : Fair b) (steady : Steady b N time) :
    LeadsTo (fun n => N ≤ n ∧ (b.state n).polls = [.reading]) fun n => N ≤ n ∧ ∃ now, time ≤ now ∧
      (b.state n).polls = [.processing (filterAvailableEvents (findPendingOrRetry (b.state n).store) now)] := by
  refine .of_fair fair.resumes ?_ (fun n holds => by simp [holds.2]) ?_
  · rintro n ⟨later, reading⟩ rests
    rcases reading_step (steady.moves n) (steady.mended n later) reading with ⟨-, reading⟩ | ⟨goes, -⟩
    · exact Or.inr ⟨by omega, reading⟩
    · exact absurd goes rests
  · rintro n ⟨later, reading⟩ goes
    rcases reading_step (steady.moves n) (steady.mended n later) reading with
      ⟨rests, -⟩ | ⟨-, index, now, read, snapshot⟩
    · exact absurd goes rests
    · exact ⟨by omega, now, steady.late n later index now read, snapshot⟩

/-- A poll that processes its snapshot comes to the end of it. -/
theorem ends (fair : Fair b) (steady : Steady b N time) :
    LeadsTo (fun n => N ≤ n ∧ ∃ rest, (b.state n).polls = [.processing rest])
      fun n => N ≤ n ∧ (b.state n).polls = [] := by
  refine .of_rank (fun n => remaining (b.state n)) fun k => ?_
  refine .of_fair fair.resumes ?_ (fun n ⟨⟨_, rest, working⟩, _⟩ => by simp [working]) ?_
  · rintro n ⟨⟨later, rest, working⟩, ranked⟩ rests
    rcases working_step (steady.reachable n).consistent (steady.moves n) (steady.mended n later) working with
      ⟨-, working'⟩ | ⟨goes, -⟩
    · exact Or.inr ⟨⟨by omega, rest, working'⟩, by simpa [remaining, working, working'] using ranked⟩
    · exact absurd goes rests
  · rintro n ⟨⟨later, rest, working⟩, ranked⟩ goes
    rcases working_step (steady.reachable n).consistent (steady.moves n) (steady.mended n later) working with
      ⟨rests, -⟩ | ⟨-, ⟨-, free⟩ | ⟨event, rest', host, rfl, working', -⟩⟩
    · exact absurd goes rests
    · exact Or.inl ⟨by omega, free⟩
    · refine Or.inr ⟨⟨by omega, rest', working'⟩, ?_⟩
      simp only [remaining, working, working', List.length_cons] at ranked ⊢
      omega

theorem frees (fair : Fair b) (steady : Steady b N time) :
    LeadsTo (fun n => N ≤ n) fun n => N ≤ n ∧ (b.state n).polls = [] := by
  intro n later
  rcases (steady.reachable n).consistent.guarded with ⟨free, -⟩ | ⟨poll, single, -⟩
  · exact ⟨n, le_rfl, later, free⟩
  · have ended := ends fair steady
    cases poll with
    | processing rest => exact ended n ⟨later, rest, single⟩
    | reading =>
      obtain ⟨m, later', late, now, -, working⟩ := takes_snapshot fair steady n ⟨later, single⟩
      obtain ⟨k, later'', freed⟩ := ended m ⟨late, _, working⟩
      exact ⟨k, later'.trans later'', freed⟩

/-! ## Every delivery is decided -/

theorem later_waits (steady : Steady b N time) {m : ℕ} (later : n ≤ m) (waits : Waits (b.state n).store row) :
    Waits (b.state m).store row ∨ Advanced (b.state m).store row := by
  obtain ⟨actions, run⟩ := b.run later
  exact waits_or_advanced ⟨actions, fun _ _ => trivial, run⟩ (steady.reachable n).consistent waits

/-- A delivery in the snapshot of a poll is reached by it. -/
theorem reached_by_poll (fair : Fair b) (steady : Steady b N time) :
    LeadsTo (fun n => N ≤ n ∧ Waits (b.state n).store row ∧ ∃ rest, (b.state n).polls = [.processing rest] ∧ row ∈ rest)
      fun n => Advanced (b.state n).store row := by
  refine .of_rank (fun n => remaining (b.state n)) fun k => ?_
  refine .of_fair fair.resumes ?_ (fun n ⟨⟨_, _, rest, working, _⟩, _⟩ => by simp [working]) ?_
  · rintro n ⟨⟨later, waits, rest, working, member⟩, ranked⟩ rests
    rcases working_step (steady.reachable n).consistent (steady.moves n) (steady.mended n later) working with
      ⟨-, working'⟩ | ⟨goes, -⟩
    · rcases later_waits steady n.le_succ waits with waits' | advanced
      · exact Or.inr ⟨⟨by omega, waits', rest, working', member⟩, by simpa [remaining, working, working'] using ranked⟩
      · exact Or.inl (Or.inl advanced)
    · exact absurd goes rests
  · rintro n ⟨⟨later, waits, rest, working, member⟩, ranked⟩ goes
    rcases working_step (steady.reachable n).consistent (steady.moves n) (steady.mended n later) working with
      ⟨rests, -⟩ | ⟨-, ⟨rfl, -⟩ | ⟨event, rest', host, rfl, working', call⟩⟩
    · exact absurd goes rests
    · cases member
    · rcases waits_or_advanced_call call waits with waits' | advanced
      · rcases List.mem_cons.mp member with rfl | member
        · exact Or.inl (advanced_of_call call)
        · refine Or.inr ⟨⟨by omega, waits', rest', working', member⟩, ?_⟩
          simp only [remaining, working, working', List.length_cons] at ranked ⊢
          omega
      · exact Or.inl advanced

/-- A delivery that waits is called upon in some poll to come. -/
theorem advances (fair : Fair b) (steady : Steady b N row.availableAt) :
    LeadsTo (fun n => Waits (b.state n).store row) fun n => Advanced (b.state n).store row := by
  intro n waits
  -- the poll under way ends, and the next one begins late enough to find the delivery
  have chain := ((frees fair steady).trans (opens fair steady)).trans (takes_snapshot fair steady)
  obtain ⟨k, later, later', now, available, working⟩ := chain (max n N) (le_max_right n N)
  rcases later_waits steady (show n ≤ k by omega) waits with waits | advanced
  · have member : row ∈ filterAvailableEvents (findPendingOrRetry (b.state k).store) now :=
      mem_snapshot (steady.reachable k).consistent.store waits.1 waits.2 available
    obtain ⟨l, later'', advanced⟩ := reached_by_poll fair steady k ⟨later', waits, _, working, member⟩
    exact ⟨l, by omega, advanced⟩
  · exact ⟨k, by omega, advanced⟩

theorem reachable_state {now : Time} (started : b.state 0 = .started now) (n : ℕ) : Reachable (b.state n) := by
  obtain ⟨actions, run⟩ := b.run n.zero_le
  rw [started] at run
  exact reachable_of_run run

theorem steady_of_fair (fair : Fair b) (reachable : ∀ n, Reachable (b.state n)) (time : Time) :
    ∃ N, Steady b N time := by
  obtain ⟨mended, mends⟩ := fair.mends
  obtain ⟨late, clock⟩ := fair.clock time
  exact ⟨max mended late, reachable, fun n later => mends n (le_of_max_le_left later),
    fun n later => clock n (le_of_max_le_right later)⟩

/-- The attempts that a delivery has left. -/
def attemptsLeft (s : Store) (id : ℕ) : ℕ := ((s.rawIncomingEvents.find id).map fun row => 3 - row.attempts).getD 0

/-- An undecided delivery is decided in the end: it has at most three attempts. -/
theorem decided_in_the_end (fair : Fair b) (reachable : ∀ n, Reachable (b.state n)) (id : ℕ) :
    LeadsTo (fun n => ((b.state n).store.rawIncomingEvents.find id).isSome ∧ (b.state n).store.decisionOf id = none)
      fun n => ((b.state n).store.decisionOf id).isSome := by
  refine .of_rank (fun n => attemptsLeft (b.state n).store id) fun k => ?_
  rintro n ⟨⟨known, undecided⟩, ranked⟩
  obtain ⟨row, found⟩ := Option.isSome_iff_exists.mp known
  obtain rfl : row.id = id := (b.state n).store.rawIncomingEvents.id_of_find found
  obtain ⟨N, steady⟩ := steady_of_fair fair reachable row.availableAt
  obtain ⟨m, later, advanced⟩ := advances fair steady n ⟨found, undecided⟩
  refine ⟨m, later, ?_⟩
  rcases advanced with decided | ⟨row', found', undecided', more⟩
  · exact Or.inl decided
  · have named : row'.id = row.id := (b.state m).store.rawIncomingEvents.id_of_find found'
    have waiting := (reachable m).consistent.store.waiting (named ▸ found') (named ▸ undecided')
    refine Or.inr ⟨⟨by rw [found']; rfl, undecided'⟩, ?_⟩
    simp only [attemptsLeft, found, found', Option.map_some, Option.getD_some] at ranked ⊢
    rcases waiting with ⟨-, unattempted⟩ | ⟨-, -, few⟩ <;> omega

theorem stays_decided (reachable : ∀ n, Reachable (b.state n)) {m k id : ℕ} (later : m ≤ k)
    {decision : EventDecisionEntity} (decided : (b.state m).store.decisionOf id = some decision) :
    (b.state k).store.decisionOf id = some decision := by
  have consistent := (reachable m).consistent
  obtain ⟨logged, about⟩ := (decisionOf_eq_some consistent.store).mp decided
  obtain ⟨row, found⟩ := Option.isSome_iff_exists.mp (consistent.store.delivered decision logged)
  obtain ⟨actions, run⟩ := b.run later
  rw [about] at found
  exact (keepsDecided_reaches ⟨actions, fun _ _ => trivial, run⟩ consistent id row decision found decided).2

theorem decided_for_good (fair : Fair b) (reachable : ∀ n, Reachable (b.state n)) {id : ℕ}
    (stored : (b.state n).store.rawIncomingEvents.find id = some row) :
    ∃ m, n ≤ m ∧ ∃ decision, ∀ k, m ≤ k → (b.state k).store.decisionOf id = some decision := by
  cases decided : (b.state n).store.decisionOf id with
  | some decision => exact ⟨n, le_rfl, decision, fun k later => stays_decided reachable later decided⟩
  | none =>
    obtain ⟨m, later, decided⟩ := decided_in_the_end fair reachable id n ⟨by rw [stored]; rfl, decided⟩
    obtain ⟨decision, decided⟩ := Option.isSome_iff_exists.mp decided
    exact ⟨m, later, decision, fun k later' => stays_decided reachable later' decided⟩

/-- **Every delivery is decided in the end**, once and for all, and is `DONE`. -/
theorem every_delivery_is_decided_in_the_end {now : Time} (started : b.state 0 = .started now) (fair : Fair b) {id : ℕ}
    (stored : (b.state n).store.rawIncomingEvents.find id = some row) :
    ∃ m, n ≤ m ∧ ∃ decision, ∀ k, m ≤ k → (b.state k).store.decisionOf id = some decision ∧
      ∃ row', (b.state k).store.rawIncomingEvents.find id = some row' ∧ row'.processingStatus = .done := by
  have reachable := reachable_state started
  obtain ⟨m, later, decision, decided⟩ := decided_for_good fair reachable stored
  refine ⟨m, later, decision, fun k later' => ⟨decided k later', ?_⟩⟩
  have consistent := (reachable k).consistent.store
  obtain ⟨logged, about⟩ := (decisionOf_eq_some consistent).mp (decided k later')
  obtain ⟨row', found⟩ := Option.isSome_iff_exists.mp (consistent.delivered decision logged)
  rw [about] at found
  obtain rfl : row'.id = id := (b.state k).store.rawIncomingEvents.id_of_find found
  exact ⟨row', found, (consistent.done_iff found).mpr (Option.isSome_of_eq_some (decided k later'))⟩

/-! ## At rest -/

def Requests : Action → Prop
  | .enqueueBatch _ _ => True
  | _ => False

/-- Without requests no delivery is new. -/
theorem known_before {id : ℕ} (moves : Moves sys action sys') (quiet : ¬ Requests action)
    (known : (sys'.store.rawIncomingEvents.find id).isSome) : (sys.store.rawIncomingEvents.find id).isSome := by
  cases moves with
  | enqueued => exact absurd trivial quiet
  | @processed event _ _ _ _ _ _ stored _ _ outcome =>
    by_cases own : id = event.id
    · rw [own, stored]
      rfl
    · rw [findRow_outcome outcome own] at known
      exact known
  | skipped | opened | read | aborted | readFailed | finished => exact known

/-- With nothing left to decide, a step without requests leaves the store alone. -/
theorem rests (moves : Moves sys action sys') (quiet : ¬ Requests action)
    (decided : ∀ id, (sys.store.rawIncomingEvents.find id).isSome → (sys.store.decisionOf id).isSome) :
    sys'.store = sys.store := by
  cases moves with
  | enqueued => exact absurd trivial quiet
  | @processed event _ _ _ _ _ _ stored undecided =>
    have settled := decided event.id (by rw [stored]; rfl)
    rw [undecided] at settled
    cases settled
  | skipped | opened | read | aborted | readFailed | finished => rfl

/-- The deliveries of one moment are all decided at a later one. -/
theorem all_decided (fair : Fair b) (reachable : ∀ n, Reachable (b.state n)) (n : ℕ) :
    ∃ m, ∀ k, m ≤ k → ∀ row ∈ (b.state n).store.rawIncomingEvents.rows,
      ((b.state k).store.decisionOf row.id).isSome := by
  have each : ∀ row ∈ {row | row ∈ (b.state n).store.rawIncomingEvents.rows},
      Filter.Eventually (fun k => ((b.state k).store.decisionOf row.id).isSome) Filter.atTop := by
    intro row member
    have stored := (b.state n).store.rawIncomingEvents.find_self member
    obtain ⟨m, -, decision, decided⟩ := decided_for_good fair reachable stored
    exact Filter.eventually_atTop.mpr ⟨m, fun k later => Option.isSome_of_eq_some (decided k later)⟩
  exact Filter.eventually_atTop.mp ((Filter.eventually_all_finite (List.finite_toSet _)).mpr each)

/-- **The server comes to rest** when requests stop: from some moment on every
delivery is `DONE` and the store does not change. -/
theorem comes_to_rest {now : Time} (started : b.state 0 = .started now) (fair : Fair b)
    (quiet : ∃ n, ∀ m, n ≤ m → ¬ Requests (b.action m)) :
    ∃ m, ∀ k, m ≤ k → (b.state k).store = (b.state m).store ∧
      ∀ row ∈ (b.state k).store.rawIncomingEvents.rows, row.processingStatus = .done := by
  have reachable := reachable_state started
  have moves : ∀ n, Moves (b.state n) (b.action n) (b.state (n + 1)) := fun n =>
    moves_of_step (reachable n).consistent (b.taken n)
  obtain ⟨n, quiet⟩ := quiet
  -- the deliveries there are when requests stop are all there will be
  have all : ∀ m, n ≤ m → ∀ id, ((b.state m).store.rawIncomingEvents.find id).isSome →
      ((b.state n).store.rawIncomingEvents.find id).isSome := by
    intro m later
    induction m, later using Nat.le_induction with
    | base => exact fun _ known => known
    | succ m later ih => exact fun id known => ih id (known_before (moves m) (quiet m later) known)
  obtain ⟨m, settled⟩ := all_decided fair reachable n
  have decided : ∀ k, max n m ≤ k → ∀ id, ((b.state k).store.rawIncomingEvents.find id).isSome →
      ((b.state k).store.decisionOf id).isSome := by
    intro k later id known
    obtain ⟨row, found⟩ := Option.isSome_iff_exists.mp (all k (le_of_max_le_left later) id known)
    obtain ⟨member, named⟩ := (b.state n).store.rawIncomingEvents.find_eq_some.mp found
    exact named ▸ settled k (le_of_max_le_right later) row member
  refine ⟨max n m, fun k later => ⟨?_, ?_⟩⟩
  · induction k, later using Nat.le_induction with
    | base => rfl
    | succ k later ih => rw [rests (moves k) (quiet k (le_of_max_le_left later)) (decided k later), ih]
  · intro row member
    have stored := (b.state k).store.rawIncomingEvents.find_self member
    have settled := decided k later row.id (Option.isSome_of_eq_some stored)
    exact ((reachable k).consistent.store.done_iff stored).mpr settled

/-! ## A server that runs for ever -/

/-- A creation whose first poll meets a busy database and whose second accepts it. -/
def retriedActions : List Action :=
  [.enqueueBatch [postedItem "c" "o" .orderCreated 1 (amountPayload "amount" 50)] 0,
    .poll, .read 0 10000, .process 0 (stoppedAt 10000) (some ⟨1, "SQLITE_BUSY: database is locked"⟩) none, .finish 0,
    .poll, .read 0 50000, .process 0 (stoppedAt 50000) none none, .finish 0]

/-- A poll that finds nothing opens, reads and ends. -/
def idleRound (n : ℕ) : Action :=
  match n % 3 with
  | 0 => .poll
  | 1 => .read 0 (n * 10000)
  | _ => .finish 0

def idleSystem (s : Store) (n : ℕ) : System :=
  match n % 3 with
  | 0 => ⟨s, false, []⟩
  | 1 => ⟨s, true, [.reading]⟩
  | _ => ⟨s, true, [.processing []]⟩

theorem idle_step {s : Store} (nothing : findPendingOrRetry s = []) (n : ℕ) :
    step (idleSystem s n) (idleRound n) = some (idleSystem s (n + 1)) := by
  have round : n % 3 = 0 ∧ (n + 1) % 3 = 1 ∨ n % 3 = 1 ∧ (n + 1) % 3 = 2 ∨ n % 3 = 2 ∧ (n + 1) % 3 = 0 := by omega
  rcases round with ⟨now, next⟩ | ⟨now, next⟩ | ⟨now, next⟩
  · simp [idleSystem, idleRound, now, next, step]
  · simp [idleSystem, idleRound, now, next, step, nothing, filterAvailableEvents]
  · simp [idleSystem, idleRound, now, next, step, System.endPoll]

def foreverAction (n : ℕ) : Action := retriedActions.getD n (idleRound n)

def foreverSystem : ℕ → System
  | 0 => .started 0
  | n + 1 => (step (foreverSystem n) (foreverAction n)).getD (foreverSystem n)

theorem foreverAction_idle (later : 9 ≤ n) : foreverAction n = idleRound n := by
  rw [foreverAction, List.getD_eq_getElem?_getD, List.getElem?_eq_none later, Option.getD_none]

theorem foreverSystem_succ (enabled : (step (foreverSystem n) (foreverAction n)).isSome) :
    step (foreverSystem n) (foreverAction n) = some (foreverSystem (n + 1)) := by
  obtain ⟨sys, taken⟩ := Option.isSome_iff_exists.mp enabled
  rw [foreverSystem, taken, Option.getD_some]

theorem foreverSystem_idle (later : 9 ≤ n) : foreverSystem n = idleSystem (foreverSystem 9).store n := by
  induction n, later using Nat.le_induction with
  | base =>
    have free : (foreverSystem 9).isPolling = false := by decide +kernel
    have ended : (foreverSystem 9).polls = [] := List.isEmpty_iff.mp (by decide +kernel)
    change foreverSystem 9 = ⟨(foreverSystem 9).store, false, []⟩
    rw [← free, ← ended]
  | succ n later ih =>
    have nothing : findPendingOrRetry (foreverSystem 9).store = [] := List.isEmpty_iff.mp (by decide +kernel)
    have taken := idle_step nothing n
    rw [← ih, ← foreverAction_idle later] at taken
    exact Option.some.inj ((foreverSystem_succ (Option.isSome_of_eq_some taken)).symm.trans taken)

def foreverBehaviour : Behaviour step where
  state := foreverSystem
  action := foreverAction
  taken := by
    have begun : ∀ n < 9, (step (foreverSystem n) (foreverAction n)).isSome := by decide +kernel
    intro n
    by_cases early : n < 9
    · exact foreverSystem_succ (begun n early)
    · have nothing : findPendingOrRetry (foreverSystem 9).store = [] := List.isEmpty_iff.mp (by decide +kernel)
      have taken := idle_step nothing n
      rw [← foreverSystem_idle (by omega), ← foreverSystem_idle (by omega), ← foreverAction_idle (by omega)] at taken
      exact taken

theorem foreverBehaviour_fair : Fair foreverBehaviour where
  ticks n := by
    refine ⟨3 * n + 9, by omega, ?_⟩
    have tick : (3 * n + 9) % 3 = 0 := by omega
    simp [foreverBehaviour, foreverAction_idle, idleRound, tick]
  resumes n _ := by
    refine ⟨3 * n + 10, by omega, ?_⟩
    have read : (3 * n + 10) % 3 = 1 := by omega
    simp [foreverBehaviour, foreverAction_idle, idleRound, read, GoesOn]
  clock time := by
    refine ⟨time.toNat + 9, fun m later index now read => ?_⟩
    simp only [foreverBehaviour, foreverAction_idle (show 9 ≤ m by omega), idleRound] at read
    split at read
    · cases read
    · cases read
      exact Int.le_trans (Int.self_le_toNat time) (by omega)
    · cases read
  mends := by
    refine ⟨9, fun m later => ?_⟩
    simp only [foreverBehaviour, foreverAction_idle later, idleRound]
    split <;> trivial

theorem every_delivery_is_decided_in_the_end_retried :
    ∃ m, 1 ≤ m ∧ ∃ decision, ∀ k, m ≤ k → (foreverSystem k).store.decisionOf 1 = some decision ∧
      ∃ row, (foreverSystem k).store.rawIncomingEvents.find 1 = some row ∧ row.processingStatus = .done := by
  obtain ⟨row, stored⟩ := Option.isSome_iff_exists.mp
    (show ((foreverSystem 1).store.rawIncomingEvents.find 1).isSome by decide +kernel)
  exact @every_delivery_is_decided_in_the_end foreverBehaviour 1 row 0 rfl foreverBehaviour_fair 1 stored

theorem comes_to_rest_retried : ∃ m, ∀ k, m ≤ k → (foreverSystem k).store = (foreverSystem m).store ∧
    ∀ row ∈ (foreverSystem k).store.rawIncomingEvents.rows, row.processingStatus = .done := by
  refine @comes_to_rest foreverBehaviour 0 rfl foreverBehaviour_fair ⟨9, fun m later => ?_⟩
  simp only [foreverBehaviour, foreverAction_idle later, idleRound]
  split <;> exact id

end EventEngine.Liveness
