import Mathlib.Data.Rat.Floor
import Mathlib.Data.List.TakeWhile
import Mathlib.Tactic.Common

/-! JSON values as the engine sees them. A finite double is the rational it
denotes. `JSON.stringify` and `JSON.parse` are represented by what the text
means: a text is the value read back from it, in which a number that is not
finite has become `null`. -/
namespace EventEngine

/-- A JavaScript number. -/
inductive JsNumber where
  | finite (value : ℚ)
  | infinite (negative : Bool)
  | nan
  deriving DecidableEq, Repr

/-- `Math.round`: the nearest integer, halves going up. -/
def mathRound (x : ℚ) : ℤ := ⌊x + 1 / 2⌋

/-- `json.types.ts::JsonValue`. An object lists its own properties. A string is
one of Unicode scalar values: a lone surrogate is left out. -/
inductive JsonValue where
  | null
  | boolean (value : Bool)
  | number (value : JsNumber)
  | string (value : String)
  | array (items : List JsonValue)
  | object (fields : List (String × JsonValue))
  deriving Repr

/-- `json.types.ts::JsonObject`. -/
abbrev JsonObject := List (String × JsonValue)

namespace JsonObject

/-- `fields[name]`, with no value for a property the object does not have. -/
def get (fields : JsonObject) (name : String) : Option JsonValue := fields.lookup name

/-- `fields[name] = value`: a new property goes last. -/
def set : JsonObject → String → JsonValue → JsonObject
  | [], name, value => [(name, value)]
  | (known, held) :: rest, name, value =>
    if known = name then (known, value) :: rest else (known, held) :: set rest name value

/-- `Object.prototype.hasOwnProperty.call(fields, name)`. -/
def hasOwn (fields : JsonObject) (name : String) : Bool := fields.any (·.1 == name)

@[simp] theorem get_nil (name : String) : get [] name = none := rfl

@[simp] theorem get_cons (known : String) (held : JsonValue) (rest : JsonObject) (name : String) :
    get ((known, held) :: rest) name = if name = known then some held else get rest name := by
  by_cases same : name = known <;> simp [get, List.lookup_cons, same, beq_false_of_ne]

theorem set_ne_nil (fields : JsonObject) (name : String) (value : JsonValue) : fields.set name value ≠ [] := by
  cases fields with
  | nil => simp [set]
  | cons field rest =>
    simp only [set]
    split <;> simp

theorem get_set_self (fields : JsonObject) (name : String) (value : JsonValue) :
    (fields.set name value).get name = some value := by
  induction fields with
  | nil => simp [set]
  | cons field rest ih =>
    obtain ⟨known, held⟩ := field
    simp only [set]
    split
    · rename_i same
      simp [same]
    · rename_i other
      rw [get_cons, if_neg (Ne.symm other), ih]

/-- A write is not seen under another name. -/
theorem get_set_of_ne (fields : JsonObject) {name probe : String} (other : probe ≠ name) (value : JsonValue) :
    (fields.set name value).get probe = fields.get probe := by
  induction fields with
  | nil => simp [set, other]
  | cons field rest ih =>
    obtain ⟨known, held⟩ := field
    simp only [set]
    split
    · rename_i same
      subst same
      simp [other]
    · rw [get_cons, get_cons, ih]

end JsonObject

/-- `json.util.ts::isJsonObject`, with the object it recognises. -/
def JsonValue.asObject? : JsonValue → Option JsonObject
  | .object fields => some fields
  | _ => none

theorem asObject?_eq_some {value : JsonValue} {fields : JsonObject} :
    value.asObject? = some fields ↔ value = .object fields := by
  cases value <;> simp [JsonValue.asObject?]

/-! ## Text -/

mutual
/-- What a value becomes on its way through text: `JSON.stringify` writes
`null` for a number that is not finite. -/
def JsonValue.written : JsonValue → JsonValue
  | .number (.finite value) => .number (.finite value)
  | .number _ => .null
  | .array items => .array (writtenItems items)
  | .object fields => .object (writtenFields fields)
  | .null => .null
  | .boolean value => .boolean value
  | .string value => .string value

def writtenItems : List JsonValue → List JsonValue
  | [] => []
  | item :: rest => item.written :: writtenItems rest

def writtenFields : List (String × JsonValue) → List (String × JsonValue)
  | [] => []
  | (name, value) :: rest => (name, value.written) :: writtenFields rest
end

mutual
/-- Every number inside the value is finite. -/
def JsonValue.FiniteNumbers : JsonValue → Prop
  | .number (.finite _) => True
  | .number _ => False
  | .array items => FiniteItems items
  | .object fields => FiniteFields fields
  | .null => True
  | .boolean _ => True
  | .string _ => True

def FiniteItems : List JsonValue → Prop
  | [] => True
  | item :: rest => item.FiniteNumbers ∧ FiniteItems rest

def FiniteFields : List (String × JsonValue) → Prop
  | [] => True
  | (_, value) :: rest => value.FiniteNumbers ∧ FiniteFields rest
end

mutual
theorem written_of_finite : (value : JsonValue) → value.FiniteNumbers → value.written = value
  | .number (.finite _), _ => rfl
  | .array items, finite => congrArg JsonValue.array (writtenItems_of_finite items finite)
  | .object fields, finite => congrArg JsonValue.object (writtenFields_of_finite fields finite)
  | .null, _ => rfl
  | .boolean _, _ => rfl
  | .string _, _ => rfl

theorem writtenItems_of_finite : (items : List JsonValue) → FiniteItems items → writtenItems items = items
  | [], _ => rfl
  | item :: rest, finite => by
    rw [writtenItems, written_of_finite item finite.1, writtenItems_of_finite rest finite.2]

theorem writtenFields_of_finite : (fields : List (String × JsonValue)) → FiniteFields fields →
    writtenFields fields = fields
  | [], _ => rfl
  | (name, value) :: rest, finite => by
    rw [writtenFields, written_of_finite value finite.1, writtenFields_of_finite rest finite.2]
end

theorem get_writtenFields (fields : List (String × JsonValue)) (name : String) :
    JsonObject.get (writtenFields fields) name = (JsonObject.get fields name).map JsonValue.written := by
  induction fields with
  | nil => rfl
  | cons field rest ih =>
    obtain ⟨known, held⟩ := field
    simp only [writtenFields, JsonObject.get_cons, ih]
    split <;> rfl

theorem written_eq_string {value : JsonValue} {text : String} :
    value.written = .string text ↔ value = .string text := by
  cases value with
  | number value => cases value <;> simp [JsonValue.written]
  | null | boolean | string | array | object => simp [JsonValue.written]

theorem written_eq_finite {value : JsonValue} {number : ℚ} :
    value.written = .number (.finite number) ↔ value = .number (.finite number) := by
  cases value with
  | number value => cases value <;> simp [JsonValue.written]
  | null | boolean | string | array | object => simp [JsonValue.written]

theorem written_eq_object {value : JsonValue} {fields : JsonObject} :
    value.written = .object fields ↔ ∃ before, value = .object before ∧ writtenFields before = fields := by
  cases value with
  | number value => cases value <;> simp [JsonValue.written]
  | null | boolean | string | array | object => simp [JsonValue.written]

/-- A property whose value text leaves alone is read back as it was, and only then. -/
theorem get_writtenFields_eq_some {fields : List (String × JsonValue)} {name : String} {value : JsonValue}
    (unchanged : ∀ held : JsonValue, held.written = value ↔ held = value) :
    JsonObject.get (writtenFields fields) name = some value ↔ JsonObject.get fields name = some value := by
  rw [get_writtenFields, Option.map_eq_some_iff]
  constructor
  · rintro ⟨held, found, written⟩
    rw [found, (unchanged held).mp written]
  · intro found
    exact ⟨value, found, (unchanged value).mpr rfl⟩

/-- A JSON text, by the value `JSON.parse` reads from it. -/
structure JsonText where
  parsed : JsonValue
  deriving Repr

/-- `JSON.stringify`. -/
def stringify (value : JsonValue) : JsonText := ⟨value.written⟩

/-- `json.util.ts::parseJsonValue`. -/
def parseJsonValue (json : JsonText) : JsonValue := json.parsed

/-- `json.util.ts::parseJsonObject`. -/
def parseJsonObject (json : JsonText) : JsonObject := (parseJsonValue json).asObject?.getD []

/-- Text is lossless on values whose numbers are finite. -/
theorem parse_stringify {value : JsonValue} (finite : value.FiniteNumbers) :
    parseJsonValue (stringify value) = value := written_of_finite value finite

theorem parse_stringify_object {fields : JsonObject} (finite : FiniteFields fields) :
    parseJsonObject (stringify (.object fields)) = fields := by
  rw [parseJsonObject, @parse_stringify (.object fields) finite]
  rfl

/-! ## Strings -/

/-- The white space and line terminators `String.prototype.trim` removes. -/
def isTrimmed (c : Char) : Bool :=
  c.toNat ∈ [0x09, 0x0A, 0x0B, 0x0C, 0x0D, 0x20, 0xA0, 0x1680, 0x2028, 0x2029, 0x202F, 0x205F,
    0x3000, 0xFEFF] || (0x2000 ≤ c.toNat && c.toNat ≤ 0x200A)

/-- `value.trim()`. -/
def trim (value : String) : String :=
  String.ofList ((value.toList.dropWhile isTrimmed).reverse.dropWhile isTrimmed).reverse

/-- `value.trim().length > 0`. -/
def isNonBlank (value : String) : Bool := !(trim value).isEmpty

/-- A string is blank when nothing in it would be left by trimming. -/
theorem isNonBlank_iff {value : String} : isNonBlank value = true ↔ ∃ c ∈ value.toList, isTrimmed c = false := by
  have trimmed : (trim value).isEmpty = true ↔ ∀ c ∈ value.toList, isTrimmed c = true := by
    rw [trim, String.isEmpty_iff, String.ofList_eq_empty_iff, List.reverse_eq_nil_iff, List.dropWhile_eq_nil_iff]
    constructor
    · intro rest
      rw [← List.dropWhile_eq_nil_iff]
      by_contra left
      have first := List.head_dropWhile_not isTrimmed left
      rw [rest _ (List.mem_reverse.mpr (List.head_mem left))] at first
      cases first
    · intro all c member
      exact all c ((List.dropWhile_sublist _).subset (List.mem_reverse.mp member))
  rw [isNonBlank, Bool.not_eq_true', ← Bool.not_eq_true, trimmed]
  simp

example : trim " PLN\t" = "PLN" := by decide +kernel

end EventEngine
