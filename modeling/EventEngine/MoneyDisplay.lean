import EventEngine.EventInspector
import EventEngine.Explanation
import EventEngine.OrderViews
import EventEngine.Properties.Rebuilding

/-! Money is converted for display once. The mapper renames what it converts, and
it maps none of the names it gives; so it may run again over its own output, as
it does for an order's history, and every view shows the same record. -/
namespace EventEngine.MoneyDisplay
open EventEngine Relational Properties Projections Explanation OrderUpdateApplication

/-! ## The mapper -/

theorem set_eq_assign (fields : JsonObject) (name : String) (value : JsonValue) :
    fields.set name value = assign fields name value := by
  induction fields with
  | nil => rfl
  | cons field rest ih =>
    obtain ⟨known, held⟩ := field
    rw [JsonObject.set, assign, ih]

/-- What the mapper makes of one field. -/
def responseField (field : String × JsonValue) : String × JsonValue :=
  match responseFieldName? field.1 with
  | some responseFieldName => (responseFieldName, mapMoneyFieldValue field.2)
  | none => field

/-- The mapper rebuilds a record field by field. -/
theorem mapMoneyFieldsForResponse_eq (fields : JsonObject) :
    mapMoneyFieldsForResponse fields = rebuild responseField fields := by
  unfold mapMoneyFieldsForResponse rebuild
  congr 1
  funext mappedFields field
  rw [responseField, ← set_eq_assign]
  cases responseFieldName? field.1 <;> rfl

/-- No name the mapper gives is one it renames. -/
theorem responseFieldName?_settled {fieldName response : String}
    (renamed : responseFieldName? fieldName = some response) : responseFieldName? response = none := by
  have given : ∀ entry ∈ minorMoneyFieldResponseNames ++ inheritedProperties, responseFieldName? entry.2 = none := by
    decide +kernel
  rcases Option.or_eq_some_iff.mp renamed with money | ⟨-, inherited⟩
  · exact given (fieldName, response) (List.mem_append_left _ (mem_of_lookup money))
  · exact given (fieldName, response) (List.mem_append_right _ (mem_of_lookup inherited))

theorem responseField_settled (field : String × JsonValue) :
    responseField (responseField field) = responseField field := by
  cases renamed : responseFieldName? field.1 with
  | some response =>
    have mapped : responseField field = (response, mapMoneyFieldValue field.2) := by simp only [responseField, renamed]
    rw [mapped, responseField, responseFieldName?_settled renamed]
  | none =>
    have kept : responseField field = field := by simp only [responseField, renamed]
    rw [kept, kept]

/-- **The mapper is idempotent.** -/
theorem mapMoneyFieldsForResponse_idempotent (fields : JsonObject) :
    mapMoneyFieldsForResponse (mapMoneyFieldsForResponse fields) = mapMoneyFieldsForResponse fields := by
  simp only [mapMoneyFieldsForResponse_eq]
  exact rebuild_idempotent responseField_settled fields

/-! ## What is shown for a record -/

/-- The fields that hold an amount in minor units. -/
def minorUnitFields : List String := ["amountMinor", "paidAmountMinor", "refundedAmountMinor"]

/-- The name a stored field is shown under. -/
def displayName : String → String
  | "amountMinor" => "amount"
  | "paidAmountMinor" => "paidAmount"
  | "refundedAmountMinor" => "refundedAmount"
  | name => name

/-- The value shown for a stored one: a number of minor units in major units,
anything else as it is. -/
def displayValue (name : String) : JsonValue → JsonValue
  | .number (.finite value) =>
    if name ∈ minorUnitFields then .number (.finite (value / 100)) else .number (.finite value)
  | value => value

/-- A record shows a stored one: it has the same fields, none lost and none run
together, and each value once converted. -/
structure Displays (stored shown : JsonObject) : Prop where
  names : names shown = (names stored).map displayName
  distinct : (Properties.names shown).Nodup
  values : ∀ name value, stored.get name = some value → shown.get (displayName name) = some (displayValue name value)

/-- The names under which decisions record fields. -/
def recordedNames : List String := ["status", "amountMinor", "currency", "paidAmountMinor", "refundedAmountMinor"]

/-- A record of an application's fields. -/
structure Recorded (fields : JsonObject) : Prop where
  distinct : (names fields).Nodup
  known : ∀ name ∈ names fields, name ∈ recordedNames

theorem responseField_recorded {name : String} (known : name ∈ recordedNames) (value : JsonValue) :
    responseField (name, value) = (displayName name, displayValue name value) := by
  have minor : ∀ name ∈ recordedNames, responseFieldName? name =
      if name ∈ minorUnitFields then some (displayName name) else none := by decide +kernel
  have plain : ∀ name ∈ recordedNames, name ∉ minorUnitFields → displayName name = name := by decide +kernel
  rw [responseField, minor name known]
  by_cases money : name ∈ minorUnitFields
  · rw [if_pos money]
    cases value with
    | number value => cases value <;> simp [mapMoneyFieldValue, minorUnitsToAmount, displayValue, money]
    | null | boolean | string | array | object => rfl
  · rw [if_neg money, plain name known money]
    cases value with
    | number value => cases value <;> simp [displayValue, money]
    | null | boolean | string | array | object => rfl

theorem displayName_injective {first second : String} (known : first ∈ recordedNames) (known' : second ∈ recordedNames)
    (same : displayName first = displayName second) : first = second := by
  have apart : ∀ first ∈ recordedNames, ∀ second ∈ recordedNames,
      displayName first = displayName second → first = second := by decide +kernel
  exact apart first known second known' same

/-- **A record of known fields is displayed field by field.** -/
theorem displays_recorded {fields : JsonObject} (recorded : Recorded fields) :
    Displays fields (mapMoneyFieldsForResponse fields) := by
  have mapped : fields.map responseField = fields.map fun field => (displayName field.1, displayValue field.1 field.2) :=
    List.map_congr_left fun field member => responseField_recorded (recorded.known _ (List.mem_map_of_mem member)) _
  have named : names (fields.map responseField) = (names fields).map displayName := by
    rw [mapped, names, names, List.map_map, List.map_map]
    rfl
  have apart : (names (fields.map responseField)).Nodup := by
    rw [named]
    exact recorded.distinct.map_on fun first held second held' =>
      displayName_injective (recorded.known first held) (recorded.known second held')
  have shown : mapMoneyFieldsForResponse fields = fields.map responseField :=
    (mapMoneyFieldsForResponse_eq fields).trans (rebuild_eq_map apart)
  refine ⟨shown ▸ named, shown ▸ apart, ?_⟩
  intro name value found
  rw [shown]
  apply lookup_of_mem apart
  rw [mapped]
  exact List.mem_map_of_mem (mem_of_lookup found)

example : mapMoneyFieldsForResponse [("status", .status .paid), ("amountMinor", .minor 19999)] =
    [("status", .status .paid), ("amount", .number (.finite (19999 / 100)))] := rfl

/-! ## What decisions record -/

theorem recorded_nil : Recorded [] := ⟨List.nodup_nil, fun _ member => absurd member List.not_mem_nil⟩

theorem recorded_set {fields : JsonObject} (recorded : Recorded fields) {name : String} (known : name ∈ recordedNames)
    (value : JsonValue) : Recorded (fields.set name value) := by
  rw [set_eq_assign]
  refine ⟨nodup_assign recorded.distinct name value, ?_⟩
  intro name' member
  rw [names_assign] at member
  split at member
  · exact recorded.known name' member
  · rcases List.mem_append.mp member with held | last
    · exact recorded.known name' held
    · rwa [List.mem_singleton.mp last]

/-- Text keeps the names of a record. -/
theorem recorded_stringify {fields : JsonObject} (recorded : Recorded fields) :
    Recorded (parseJsonObject (stringify (.object fields))) := by
  have kept : ∀ fields : JsonObject, names (writtenFields fields) = names fields := by
    intro fields
    induction fields with
    | nil => rfl
    | cons field rest ih => exact congrArg (field.1 :: ·) ih
  have same : names (parseJsonObject (stringify (.object fields))) = names fields := kept fields
  exact ⟨same ▸ recorded.distinct, same ▸ recorded.known⟩

theorem versioned_recorded (field : OrderVersionedField) : field.text ∈ recordedNames := by
  cases field <;> decide

/-- The update loop records versioned fields. -/
theorem recorded_merge (version : OrderVersionedField → Option OrderFieldVersionEntity) (timestamp : ℚ)
    (changes : List VersionedFieldChange) (merge : Merge)
    (recorded : Recorded merge.changedFields ∧ Recorded merge.skippedFields) :
    Recorded (mergeAgainst version timestamp changes merge).changedFields ∧
      Recorded (mergeAgainst version timestamp changes merge).skippedFields := by
  induction changes generalizing merge with
  | nil => exact recorded
  | cons change rest ih =>
    apply ih
    dsimp only
    split
    · exact ⟨recorded_set recorded.1 (versioned_recorded _) _, recorded.2⟩
    · exact ⟨recorded.1, recorded_set recorded.2 (versioned_recorded _) _⟩

theorem recorded_creation (amountMinor : Option ℤ) (currency : Option String) :
    Recorded (OrderCreationApplication.buildChangedFields amountMinor currency) := by
  have status : Recorded [("status", .status .created)] := recorded_set recorded_nil (versioned_recorded .status) _
  cases amountMinor with
  | none =>
    cases currency with
    | none => exact status
    | some currency => exact recorded_set status (versioned_recorded .currency) _
  | some amountMinor =>
    have amount := recorded_set status (versioned_recorded .amountMinor) (.minor amountMinor)
    cases currency with
    | none => exact amount
    | some currency => exact recorded_set amount (versioned_recorded .currency) _

/-- A capture or a refund records an amount and the status it leads to. -/
theorem recorded_money {name : String} (known : name ∈ recordedNames) (other : name ≠ "status")
    (amount status : JsonValue) : Recorded [(name, amount), ("status", status)] := by
  have new : "status" ∉ names [(name, amount)] := fun held => other (List.mem_singleton.mp held).symm
  have assigned : Recorded (JsonObject.set [(name, amount)] "status" status) :=
    recorded_set (recorded_set recorded_nil known amount) (versioned_recorded .status) status
  rwa [set_eq_assign, assign_new new] at assigned

/-- Every application records known fields, each once. -/
theorem recorded_application {view : OrderView} {event : ValidOrderEvent} {now : Time} {application : Application}
    (judged : judge view event now = .applied application) :
    Recorded application.changedFields ∧ Recorded application.skippedFields := by
  cases accepts_of_judge judged with
  | created => exact ⟨recorded_creation _ _, recorded_nil⟩
  | updated present type =>
    have merged := recorded_merge view.version event.timestamp (readOrderUpdateChanges event.payload) {}
      ⟨recorded_nil, recorded_nil⟩
    rcases judge_update present type now with ⟨-, code, message, rejected⟩ | ⟨_, applied, changed, skipped, -⟩
    · cases judged.symm.trans rejected
    · obtain rfl := Verdict.applied.inj (judged.symm.trans applied)
      rw [changed, skipped]
      refine ⟨merged.1, ?_⟩
      unfold updateSkipped
      split
      · exact recorded_set merged.2 (versioned_recorded .status) _
      · exact merged.2
  | captured | refunded => exact ⟨recorded_money (by decide) (by decide) _ _, recorded_nil⟩
  | cancelled => exact ⟨recorded_set recorded_nil (versioned_recorded .status) _, recorded_nil⟩

/-! ## The views of an order and of an event -/

/-- The entries show one decision under an identifier, with these two records. -/
def ShowsOnce {α : Type} (entries : List α) (id : α → ℕ) (changedFields skippedFields : α → JsonObject)
    (shown : ℕ × JsonObject × JsonObject) : Prop :=
  (entries.map fun entry => (id entry, changedFields entry, skippedFields entry)).filter (·.1 == shown.1) = [shown]

/-- The two records of a decision, each mapped once. -/
def mapped (decision : EventDecisionEntity) : ℕ × JsonObject × JsonObject :=
  (decision.id, mapMoneyFieldsForResponse (parseJsonObject decision.changedFieldsJson),
    mapMoneyFieldsForResponse (parseJsonObject decision.skippedFieldsJson))

theorem showsOnce_of_mem {α : Type} {entries : List α} {id : α → ℕ} (distinct : (entries.map id).Nodup)
    (changedFields skippedFields : α → JsonObject) {entry : α} (member : entry ∈ entries) :
    ShowsOnce entries id changedFields skippedFields (id entry, changedFields entry, skippedFields entry) := by
  apply filter_key
  · rwa [List.map_map]
  · exact List.mem_map_of_mem member

/-- The views of an order and of an event show a decision alike: once each, with
two records that display the stored ones. -/
structure ShownAlike (decision : EventDecisionEntity) (order : OrderDetailsResponse)
    (event : EventInspector.EventDetailsResponse) (changedFields skippedFields : JsonObject) : Prop where
  changed : Displays (parseJsonObject decision.changedFieldsJson) changedFields
  skipped : Displays (parseJsonObject decision.skippedFieldsJson) skippedFields
  orderHistory : ShowsOnce order.history (·.id) (·.changedFields) (·.skippedFields)
    (decision.id, changedFields, skippedFields)
  auditLog : ShowsOnce order.auditLog (·.id) (·.changedFields) (·.skippedFields)
    (decision.id, changedFields, skippedFields)
  eventDecisions : ShowsOnce event.decisions (·.id) (·.changedFields) (·.skippedFields)
    (decision.id, changedFields, skippedFields)
  eventHistory : ShowsOnce event.history (·.id) (·.changedFields) (·.skippedFields)
    (decision.id, changedFields, skippedFields)

/-- What an applied decision needs to be shown everywhere. -/
structure Applied (s : Store) (decision : EventDecisionEntity) (raw : RawIncomingEventEntity) (event : ValidOrderEvent)
    (toStatus : OrderStatus) : Prop where
  logged : decision ∈ s.eventDecisions.rows
  verdict : decision.decision = .accepted ∨ decision.decision = .partiallyApplied
  found : s.rawIncomingEvents.find decision.rawIncomingEventId = some raw
  projects : Projects raw event
  reached : decision.toStatus = some toStatus

variable {s : Store} {decision : EventDecisionEntity} {raw : RawIncomingEventEntity} {event : ValidOrderEvent}
  {toStatus : OrderStatus}

/-- The history of the order maps its records again, to no effect. -/
theorem order_shows (applied : Applied s decision raw event toStatus) :
    ∃ details, getOrderDetails s event.orderId = .ok details ∧
      ShowsOnce details.history (·.id) (·.changedFields) (·.skippedFields) (mapped decision) ∧
      ShowsOnce details.auditLog (·.id) (·.changedFields) (·.skippedFields) (mapped decision) := by
  have logged : mapDecision decision raw ∈ readAuditLog s event.orderId :=
    OrderViews.mem_readAuditLog.mpr ⟨decision, applied.logged, raw, applied.found, applied.projects.orderId, rfl⟩
  have reported : OrderViews.historyEntry (decision, event) toStatus ∈ readHistory (readAuditLog s event.orderId) :=
    List.mem_filterMap.mpr
      ⟨_, logged, OrderViews.toHistory?_mapDecision applied.projects applied.reached applied.verdict⟩
  have ids : ((readHistory (readAuditLog s event.orderId)).map (·.id)).Nodup :=
    OrderViews.readAuditLog_ids_nodup.sublist (filterMap_keys (fun _ _ shown => OrderViews.toHistory?_id shown) _)
  obtain ⟨details, answered, auditLog, history⟩ := OrderViews.getOrderDetails_of_logged logged
  refine ⟨details, answered, ?_, ?_⟩
  · have twice := showsOnce_of_mem ids (·.changedFields) (·.skippedFields) reported
    simp only [OrderViews.historyEntry, mapMoneyFieldsForResponse_idempotent] at twice
    rwa [history]
  · rw [auditLog]
    exact showsOnce_of_mem OrderViews.readAuditLog_ids_nodup (·.changedFields) (·.skippedFields) logged

/-- The views of the event map each record once. -/
theorem event_shows (applied : Applied s decision raw event toStatus) :
    ∃ details, EventInspector.getEventDetails s event.eventId = .ok details ∧
      ShowsOnce details.decisions (·.id) (·.changedFields) (·.skippedFields) (mapped decision) ∧
      ShowsOnce details.history (·.id) (·.changedFields) (·.skippedFields) (mapped decision) := by
  have logged : EventInspector.mapDecision decision raw ∈ EventInspector.readDecisions s event.eventId :=
    EventInspector.mem_readDecisions.mpr ⟨decision, applied.logged, raw, applied.found, applied.projects.eventId, rfl⟩
  have delivered : raw ∈ EventInspector.deliveriesOf s event.eventId :=
    EventInspector.mem_deliveriesOf.mpr
      ⟨(s.rawIncomingEvents.find_eq_some.mp applied.found).1, applied.projects.eventId⟩
  obtain ⟨report, shown, records⟩ : ∃ report : EventInspector.EventHistoryDetails,
      (EventInspector.mapDecision decision raw).toHistory? = some report ∧
        (report.id, report.changedFields, report.skippedFields) = mapped decision := by
    simp only [EventInspector.EventDecisionDetails.toHistory?, EventInspector.mapDecision, applied.verdict, ↓reduceIte,
      applied.projects.orderId, applied.projects.eventId, applied.projects.type, applied.projects.timestamp,
      applied.reached]
    exact ⟨_, rfl, rfl⟩
  have reported : report ∈ EventInspector.readHistory (EventInspector.readDecisions s event.eventId) :=
    List.mem_filterMap.mpr ⟨_, logged, shown⟩
  have ids : ((EventInspector.readHistory (EventInspector.readDecisions s event.eventId)).map (·.id)).Nodup :=
    EventInspector.readDecisions_ids_nodup.sublist (filterMap_keys (fun _ _ shown => EventInspector.toHistory?_id shown) _)
  obtain ⟨details, answered, decisions, history⟩ := EventInspector.getEventDetails_of_delivered delivered
  refine ⟨details, answered, ?_, ?_⟩
  · rw [decisions]
    exact showsOnce_of_mem EventInspector.readDecisions_ids_nodup (·.changedFields) (·.skippedFields) logged
  · rw [history, ← records]
    exact showsOnce_of_mem ids (·.changedFields) (·.skippedFields) reported

/-! ## The guarantee -/

/-- An applied decision is shown alike by the order and the event it is about. -/
def ConvertedOnce (s : Store) (decision : EventDecisionEntity) : Prop :=
  ∃ raw orderId eventId order event changedFields skippedFields,
    s.rawIncomingEvents.find decision.rawIncomingEventId = some raw ∧ raw.orderId = some orderId ∧
      raw.eventId = some eventId ∧ getOrderDetails s orderId = .ok order ∧
      EventInspector.getEventDetails s eventId = .ok event ∧
      ShownAlike decision order event changedFields skippedFields

theorem recorded_reachable {sys : System} (reachable : Reachable sys) {decision : EventDecisionEntity}
    (logged : decision ∈ sys.store.eventDecisions.rows)
    (verdict : decision.decision = .accepted ∨ decision.decision = .partiallyApplied) :
    Recorded (parseJsonObject decision.changedFieldsJson) ∧ Recorded (parseJsonObject decision.skippedFieldsJson) := by
  obtain ⟨-, -, recorded⟩ := applications_reachable (fun decision _ =>
    Recorded (parseJsonObject decision.changedFieldsJson) ∧ Recorded (parseJsonObject decision.skippedFieldsJson))
    reachable (fun view event host application delivery id judged =>
      (recorded_application judged).imp recorded_stringify recorded_stringify) decision logged verdict
  exact recorded

theorem convertedOnce_reachable {sys : System} (reachable : Reachable sys) {decision : EventDecisionEntity}
    (logged : decision ∈ sys.store.eventDecisions.rows)
    (verdict : decision.decision = .accepted ∨ decision.decision = .partiallyApplied) :
    ConvertedOnce sys.store decision := by
  obtain ⟨known, reached⟩ := OrderViews.reportable_reachable reachable decision logged verdict
  obtain ⟨event, known⟩ := Option.isSome_iff_exists.mp known
  obtain ⟨toStatus, reached⟩ := Option.isSome_iff_exists.mp reached
  obtain ⟨raw, found, -⟩ := Option.bind_eq_some_iff.mp known
  have projects := projects_of_posted (posted_reachable reachable) found known
  have applied : Applied sys.store decision raw event toStatus := ⟨logged, verdict, found, projects, reached⟩
  obtain ⟨changed, skipped⟩ := recorded_reachable reachable logged verdict
  obtain ⟨orderDetails, orderAnswered, orderHistory, auditLog⟩ := order_shows applied
  obtain ⟨eventDetails, eventAnswered, eventDecisions, eventHistory⟩ := event_shows applied
  exact ⟨raw, event.orderId, event.eventId, orderDetails, eventDetails, _, _, found, projects.orderId, projects.eventId,
    orderAnswered, eventAnswered, displays_recorded changed, displays_recorded skipped, orderHistory, auditLog,
    eventDecisions, eventHistory⟩

/-- **Money is converted for display exactly once**, however often the mapper runs. -/
theorem money_converted_once {sys : System} (reachable : Reachable sys) :
    (∀ fields, mapMoneyFieldsForResponse (mapMoneyFieldsForResponse fields) = mapMoneyFieldsForResponse fields) ∧
      ∀ decision ∈ sys.store.eventDecisions.rows,
        decision.decision = .accepted ∨ decision.decision = .partiallyApplied → ConvertedOnce sys.store decision :=
  ⟨mapMoneyFieldsForResponse_idempotent, fun _ logged verdict => convertedOnce_reachable reachable logged verdict⟩

theorem money_converted_once_out_of_order :
    (∀ fields, mapMoneyFieldsForResponse (mapMoneyFieldsForResponse fields) = mapMoneyFieldsForResponse fields) ∧
      ∀ decision ∈ outOfOrderSystem.store.eventDecisions.rows,
        decision.decision = .accepted ∨ decision.decision = .partiallyApplied →
          ConvertedOnce outOfOrderSystem.store decision :=
  money_converted_once (reachable_of_run outOfOrder_run)

end EventEngine.MoneyDisplay
