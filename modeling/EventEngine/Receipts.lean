import EventEngine.Answers
import EventEngine.Backlog

/-! What a request is told. Every item of an accepted request is acknowledged
with a number of its own, and whatever happens later, the delivery with that
number is the item, and the read side shows it under the names it was
acknowledged with. -/
namespace EventEngine.Receipts
open EventEngine Relational Growth OrderViews Answers

/-! ## Responses -/

/-- `events.types.ts::QueuedEventStatus`. -/
inductive QueuedEventStatus where
  | queued
  deriving DecidableEq, Repr

/-- `events.types.ts::QueueEventsMode`. -/
inductive QueueEventsMode where
  | asyncWorker
  deriving DecidableEq, Repr

/-- `events.types.ts::QueuedEventResult`. -/
structure QueuedEventResult where
  incomingEventId : ℕ
  eventId : Option String
  orderId : Option String
  type : Option String
  status : QueuedEventStatus
  reasonCode : Option ReasonCode
  reasonMessage : String
  processingTimeMs : ℤ
  deriving DecidableEq, Repr

/-- `events.types.ts::QueueEventsResponse`; `queued` is its summary. -/
structure QueueEventsResponse where
  mode : QueueEventsMode
  results : List QueuedEventResult
  queued : ℕ
  deriving DecidableEq, Repr

/-- An entry of `RawEventsFactory.createQueuedEventResults`. -/
def queuedEventResult (record : RawIncomingEventEntity) : QueuedEventResult where
  incomingEventId := record.id
  eventId := record.eventId
  orderId := record.orderId
  type := record.type
  status := .queued
  reasonCode := none
  reasonMessage := "Queued for asynchronous processing"
  processingTimeMs := 0

/-- `RawEventsFactory.createQueuedEventResults`. -/
def createQueuedEventResults (records : List RawIncomingEventEntity) : List QueuedEventResult :=
  records.map queuedEventResult

/-- `RawEventsFactory.createRawIncomingEvents`, with the identifiers that
`RawIncomingEventRepository.createMany` gives the rows it saves. -/
def createRawIncomingEvents (events : List JsonValue) (receivedAt : Time) (next : ℕ) : List RawIncomingEventEntity :=
  (events.zipIdx next).map fun numbered => createRawIncomingEvent numbered.1 receivedAt numbered.2

/-- The response of `EventEnqueuerService.enqueueBatch`. -/
def queueEventsResponse (s : Store) (events : List JsonValue) (receivedAt : Time) : QueueEventsResponse :=
  let records := createRawIncomingEvents events receivedAt s.rawIncomingEvents.next
  { mode := .asyncWorker, results := createQueuedEventResults records, queued := records.length }

/-- `EventsController.create`, on a body that was parsed as JSON. -/
def create (s : Store) (body : JsonValue) (receivedAt : Time) : Except String QueueEventsResponse × Store :=
  match body with
  | .array events => (.ok (queueEventsResponse s events receivedAt), enqueueBatch s events receivedAt)
  | _ => (.error "Request body must be an array", s)

/-! ## Acknowledgements -/

/-- A store in which an item is found as it was acknowledged. -/
structure Acknowledged (s : Store) (item : JsonValue) (result : QueuedEventResult) : Prop where
  stored : ∃ raw, s.rawIncomingEvents.find result.incomingEventId = some raw ∧ raw.rawEventJson = stringify item ∧
    raw.eventId = result.eventId ∧ raw.orderId = result.orderId ∧ raw.type = result.type
  /-- The event inspector reports the delivery, with the item. -/
  event : ∀ eventId, result.eventId = some eventId → ∃ details, EventInspector.getEventDetails s eventId = .ok details ∧
    ∃ delivery ∈ details.deliveries, delivery.rawIncomingEventId = result.incomingEventId ∧
      delivery.rawEvent = parseJsonValue (stringify item)
  /-- The order view lists it, as waiting or as decided. -/
  order : ∀ orderId, result.orderId = some orderId → ∃ details, getOrderDetails s orderId = .ok details ∧
    ((∃ job ∈ details.pendingJobs, job.rawIncomingEventId = result.incomingEventId) ∨
      ∃ entry ∈ details.auditLog, entry.rawIncomingEventId = result.incomingEventId)

variable {s t : Store} {items : List JsonValue} {receivedAt : Time}

/-- A stored delivery is found wherever its names are looked up. -/
theorem acknowledged_of_stored (consistent : s.Consistent) {raw : RawIncomingEventEntity} {item : JsonValue}
    {result : QueuedEventResult} (member : raw ∈ s.rawIncomingEvents.rows) (named : raw.id = result.incomingEventId)
    (text : raw.rawEventJson = stringify item) (eventId : raw.eventId = result.eventId)
    (orderId : raw.orderId = result.orderId) (type : raw.type = result.type) : Acknowledged s item result where
  stored := by
    have found : s.rawIncomingEvents.find raw.id = some raw := s.rawIncomingEvents.find_self member
    rw [named] at found
    exact ⟨raw, found, text, eventId, orderId, type⟩
  event := by
    intro asked known
    have delivered : raw ∈ EventInspector.deliveriesOf s asked :=
      EventInspector.mem_deliveriesOf.mpr ⟨member, eventId.trans known⟩
    unfold EventInspector.getEventDetails
    simp only
    split
    · rename_i nothing
      rw [List.isEmpty_iff.mp nothing] at delivered
      cases delivered
    · refine ⟨_, rfl, _, List.mem_map_of_mem delivered, named, ?_⟩
      simp only [EventInspector.mapDelivery, text]
  order := by
    intro asked known
    have own : raw.orderId = some asked := orderId.trans known
    have listed := waits_or_logged consistent member own
    have found : ∃ details, getOrderDetails s asked = .ok details := by
      rw [getOrderDetails_eq, answered_iff]
      rcases listed with ⟨job, waits, -⟩ | ⟨decision, -, logged⟩
      · exact Or.inr (Or.inr (List.ne_nil_of_mem waits))
      · exact Or.inr (Or.inl (List.ne_nil_of_mem logged))
    obtain ⟨details, answered⟩ := found
    have shows := shows_of_answer answered
    refine ⟨details, answered, ?_⟩
    rw [shows.jobs, shows.log, ← named]
    rcases listed with waits | ⟨decision, decided, logged⟩
    · exact Or.inl waits
    · exact Or.inr ⟨_, logged, ((decisionOf_eq_some consistent).mp decided).2⟩

/-- The rows of a request are in every store that goes on from it. -/
theorem acknowledged_later (grows : Grows (enqueueBatch s items receivedAt) t) (consistent : t.Consistent)
    {item : JsonValue} {id : ℕ} (numbered : (item, id) ∈ items.zipIdx s.rawIncomingEvents.next) :
    Acknowledged t item (queuedEventResult (createRawIncomingEvent item receivedAt id)) := by
  have posted : createRawIncomingEvent item receivedAt id ∈
      (enqueueBatch s items receivedAt).rawIncomingEvents.rows := by
    rw [Backlog.rows_enqueueBatch]
    exact List.mem_append_right _ (List.mem_map.mpr ⟨(item, id), numbered, rfl⟩)
  obtain ⟨row, member, named, same⟩ := later_row grows posted
  have text := (createRawIncomingEvent_lifecycle item receivedAt id).2.2
  exact acknowledged_of_stored consistent member named (same.rawEventJson.trans text) same.eventId same.orderId
    same.type

/-! ## Names -/

/-- An item has a text in a field. -/
def HasText (item : JsonValue) (field text : String) : Prop :=
  ∃ fields : JsonObject, item = .object fields ∧ fields.get field = some (.string text)

/-- A result repeats the names its item has as texts, and no others. -/
structure NamedAs (item : JsonValue) (result : QueuedEventResult) : Prop where
  eventId : ∀ name, result.eventId = some name ↔ HasText item "eventId" name
  orderId : ∀ name, result.orderId = some name ↔ HasText item "orderId" name
  type : ∀ name, result.type = some name ↔ HasText item "type" name

theorem stringOrNull_eq_some {field : Option JsonValue} {text : String} :
    stringOrNull field = some text ↔ field = some (.string text) := by
  unfold stringOrNull
  split <;> simp_all

theorem namedAs_queuedEventResult (item : JsonValue) (receivedAt : Time) (id : ℕ) :
    NamedAs item (queuedEventResult (createRawIncomingEvent item receivedAt id)) := by
  cases item with
  | object fields =>
    have texts : ∀ field text,
        HasText (.object fields) field text ↔ stringOrNull (JsonObject.get fields field) = some text := by
      intro field text
      rw [stringOrNull_eq_some]
      exact ⟨fun ⟨_, same, found⟩ => by cases same; exact found, fun found => ⟨fields, rfl, found⟩⟩
    exact ⟨fun name => (texts _ name).symm, fun name => (texts _ name).symm, fun name => (texts _ name).symm⟩
  | null | boolean | number | string | array =>
    have textless : ∀ name : String, (none : Option String) = some name ↔ False := by simp
    constructor <;> intro name <;> exact (textless name).trans ⟨False.elim, fun ⟨_, same, _⟩ => by cases same⟩

/-! ## The guarantee -/

/-- What an accepted request can rely on: its response, given from one state of
the server, and the database after it. -/
structure Relies (sys : System) (items : List JsonValue) (response : QueueEventsResponse) (s' : Store) : Prop where
  /-- One result for each item, numbered in succession, with numbers that were not taken. -/
  numbered : response.results.map (·.incomingEventId) = List.range' sys.store.rawIncomingEvents.next items.length
  fresh : ∀ result ∈ response.results, sys.store.rawIncomingEvents.find result.incomingEventId = none
  counted : response.queued = response.results.length
  /-- Each result has the names that its item gives. -/
  named : List.Forall₂ NamedAs items response.results
  /-- The results are the items, from here on. -/
  acknowledged : ∀ permitted sys', Reaches permitted { sys with store := s' } sys' →
    List.Forall₂ (Acknowledged sys'.store) items response.results

theorem results_eq (s : Store) (items : List JsonValue) (receivedAt : Time) :
    (queueEventsResponse s items receivedAt).results =
      (items.zipIdx s.rawIncomingEvents.next).map fun numbered =>
        queuedEventResult (createRawIncomingEvent numbered.1 receivedAt numbered.2) := by
  simp only [queueEventsResponse, createQueuedEventResults, createRawIncomingEvents, List.map_map, Function.comp_def]

/-- What holds of each item and its own result holds of the response. -/
theorem results_forall₂ {R : JsonValue → QueuedEventResult → Prop}
    (each : ∀ numbered ∈ items.zipIdx s.rawIncomingEvents.next,
      R numbered.1 (queuedEventResult (createRawIncomingEvent numbered.1 receivedAt numbered.2))) :
    List.Forall₂ R items (queueEventsResponse s items receivedAt).results := by
  have items_eq : (items.zipIdx s.rawIncomingEvents.next).map Prod.fst = items := List.zipIdx_map_fst _ _
  rw [results_eq]
  nth_rewrite 1 [← items_eq]
  rwa [List.forall₂_map_left_iff, List.forall₂_map_right_iff, List.forall₂_same]

theorem numbers_eq (s : Store) (items : List JsonValue) (receivedAt : Time) :
    (queueEventsResponse s items receivedAt).results.map (·.incomingEventId) =
      List.range' s.rawIncomingEvents.next items.length := by
  have ids : ∀ numbered : JsonValue × ℕ,
      (queuedEventResult (createRawIncomingEvent numbered.1 receivedAt numbered.2)).incomingEventId = numbered.2 :=
    fun numbered => createRawIncomingEvent_id numbered.1 receivedAt numbered.2
  rw [results_eq, List.map_map]
  simp only [Function.comp_def, ids]
  exact List.zipIdx_map_snd _ _

theorem relies_enqueueBatch {sys : System} (reachable : Reachable sys) (items : List JsonValue) (receivedAt : Time) :
    Relies sys items (queueEventsResponse sys.store items receivedAt) (enqueueBatch sys.store items receivedAt) where
  numbered := numbers_eq sys.store items receivedAt
  fresh := by
    intro result member
    have number : result.incomingEventId ∈ List.range' sys.store.rawIncomingEvents.next items.length := by
      rw [← numbers_eq sys.store items receivedAt]
      exact List.mem_map_of_mem member
    rw [SerialTable.find_eq_none]
    intro row held
    have taken := (sys.store.rawIncomingEvents.id_bounds held).2
    rw [List.mem_range'_1] at number
    omega
  counted := by simp [queueEventsResponse, createQueuedEventResults]
  named := results_forall₂ fun numbered _ => namedAs_queuedEventResult numbered.1 receivedAt numbered.2
  acknowledged := by
    intro permitted sys' reached
    have after : Reachable { sys with store := enqueueBatch sys.store items receivedAt } :=
      reachable.step (show step sys (.enqueueBatch items receivedAt) = some _ from rfl)
    have grows := store_grows after reached
    exact results_forall₂ fun numbered member => acknowledged_later grows (after.later reached).consistent.store member

/-- **Every item is acknowledged for good**: an accepted request is answered
with a number for each item, under which the item is found in every later state
of the server; a body that is not an array is refused and leaves no trace. -/
theorem every_item_is_acknowledged {sys : System} (reachable : Reachable sys) (body : JsonValue) (receivedAt : Time) :
    (∃ items response s', body = .array items ∧ create sys.store body receivedAt = (.ok response, s') ∧
        Relies sys items response s') ∨
      (∀ items, body ≠ .array items) ∧
        create sys.store body receivedAt = (.error "Request body must be an array", sys.store) := by
  cases body with
  | array items => exact Or.inl ⟨items, _, _, rfl, rfl, relies_enqueueBatch reachable items receivedAt⟩
  | null | boolean | number | string | object => exact Or.inr ⟨nofun, rfl⟩

/-- A payment, an item that is no object, and one without names. -/
def mixedItems : List JsonValue :=
  [postedItem "p" "o" .paymentCaptured 2 (amountPayload "amount" 50), .string "not-an-object",
    .object [("eventId", .number (.finite 100))]]

example : (queueEventsResponse (Store.migrated 0) mixedItems 0).results.map
    (fun result => (result.incomingEventId, result.eventId, result.orderId)) =
      [(1, some "p", some "o"), (2, none, none), (3, none, none)] := by decide +kernel

theorem every_item_is_acknowledged_mixed :
    (∃ items response s', JsonValue.array mixedItems = .array items ∧
        create midwaySystem.store (.array mixedItems) 100 = (.ok response, s') ∧
        Relies midwaySystem items response s') ∨
      (∀ items, JsonValue.array mixedItems ≠ .array items) ∧
        create midwaySystem.store (.array mixedItems) 100 =
          (.error "Request body must be an array", midwaySystem.store) :=
  every_item_is_acknowledged midway_reachable (.array mixedItems) 100

end EventEngine.Receipts
