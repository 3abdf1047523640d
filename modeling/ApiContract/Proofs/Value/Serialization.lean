import ApiContract.Value.Json

/-!
The two ways to write a value.

A value is written directly, or it is turned into a document and the document is written. `Writer`
says what becomes of each form of JSON, so both ways can be followed whatever is written: texts are
one thing to write, documents another. The two ways come to the same for every writer, and with the
writer of texts they are what the library writes.
-/

namespace ApiContract

/-- What is written for each form of JSON, given what was written for the parts. -/
structure Writer (α : Type) where
  null : α
  bool : Bool → α
  number : JsonNumber → α
  string : String → α
  array : List α → α
  object : List (String × α) → α

namespace Writer

def text : Writer String where
  null := "null"
  bool b := if b then "true" else "false"
  number := Json.renderNumber
  string := Json.quote
  array items := "[" ++ ",".intercalate items ++ "]"
  object members :=
    "\x7b" ++ ",".intercalate (members.map fun m => Json.quote m.1 ++ ":" ++ m.2) ++ "\x7d"

def document : Writer Json where
  null := .null
  bool := .bool
  number := .number
  string := .string
  array := .array
  object := .object

end Writer

variable {α : Type}

namespace Json

mutual

/-- What is written for a document. -/
def emit (w : Writer α) : Json → α
  | null => w.null
  | bool b => w.bool b
  | number n => w.number n
  | string s => w.string s
  | array items => w.array (emitItems w items)
  | object members => w.object (emitMembers w members)

def emitItems (w : Writer α) : List Json → List α
  | [] => []
  | j :: js => emit w j :: emitItems w js

def emitMembers (w : Writer α) : List (String × Json) → List (String × α)
  | [] => []
  | (k, j) :: es => (k, emit w j) :: emitMembers w es

end

mutual

theorem emit_text : (j : Json) → j.emit .text = j.render
  | null => rfl
  | bool _ => rfl
  | number _ => rfl
  | string _ => rfl
  | array items => by
    rw [emit, render, emitItems_text items]
    rfl
  | object members => by
    rw [emit, render, ← emitMembers_text members]
    rfl

theorem emitItems_text : (items : List Json) → emitItems .text items = renderItems items
  | [] => rfl
  | j :: js => by rw [emitItems, renderItems, emit_text j, emitItems_text js]

theorem emitMembers_text : (members : List (String × Json)) →
    (emitMembers .text members).map (fun m => quote m.1 ++ ":" ++ m.2) = renderMembers members
  | [] => rfl
  | (k, j) :: es => by
    rw [emitMembers, renderMembers, List.map_cons, emit_text j, emitMembers_text es]

end

mutual

theorem emit_document : (j : Json) → j.emit .document = j
  | null => rfl
  | bool _ => rfl
  | number _ => rfl
  | string _ => rfl
  | array items => congrArg array (emitItems_document items)
  | object members => congrArg object (emitMembers_document members)

theorem emitItems_document : (items : List Json) → emitItems .document items = items
  | [] => rfl
  | j :: js => by rw [emitItems, emit_document j, emitItems_document js]

theorem emitMembers_document :
    (members : List (String × Json)) → emitMembers .document members = members
  | [] => rfl
  | (k, j) :: es => by rw [emitMembers, emit_document j, emitMembers_document es]

end

end Json

namespace Value

mutual

/-- What is written for a value without making a document of it. Only a number takes the way of its
document, which says whether it is spelled as an integer. -/
def emit (w : Writer α) : Value → α
  | null => w.null
  | bool b => w.bool b
  | number x => (numberToJson x).emit w
  | string s => w.string s
  | date t => w.string t.text
  | binary bytes => w.array (bytes.map fun b => w.number (.integer b.toNat))
  | array items => w.array (emitItems w items)
  | object members => w.object (emitMembers w members)

def emitItems (w : Writer α) : List Value → List α
  | [] => []
  | v :: vs => emit w v :: emitItems w vs

def emitMembers (w : Writer α) : List (String × Value) → List (String × α)
  | [] => []
  | (k, v) :: es => (k, emit w v) :: emitMembers w es

end

theorem emitItems_bytes (w : Writer α) (bytes : List UInt8) :
    Json.emitItems w (bytes.map fun b => Json.ofNat b.toNat) =
      bytes.map fun b => w.number (.integer b.toNat) := by
  induction bytes with
  | nil => rfl
  | cons b bytes ih => rw [List.map_cons, Json.emitItems, ih, List.map_cons]; rfl

mutual

/-- Writing a value is writing its document. -/
theorem emit_toJson (w : Writer α) : (v : Value) → v.toJson.emit w = v.emit w
  | null => rfl
  | bool _ => rfl
  | number _ => rfl
  | string _ => rfl
  | date _ => rfl
  | binary bytes => congrArg w.array (emitItems_bytes w bytes)
  | array items => congrArg w.array (emitItems_toJson w items)
  | object members => congrArg w.object (emitMembers_toJson w members)

theorem emitItems_toJson (w : Writer α) :
    (items : List Value) → Json.emitItems w (itemsToJson items) = emitItems w items
  | [] => rfl
  | v :: vs => by
    rw [itemsToJson, Json.emitItems, emit_toJson w v, emitItems_toJson w vs, emitItems]

theorem emitMembers_toJson (w : Writer α) : (members : List (String × Value)) →
    Json.emitMembers w (membersToJson members) = emitMembers w members
  | [] => rfl
  | (k, v) :: es => by
    rw [membersToJson, Json.emitMembers, emit_toJson w v, emitMembers_toJson w es, emitMembers]

end

mutual

theorem emit_text : (v : Value) → v.emit .text = v.write
  | null => rfl
  | bool _ => rfl
  | number x => Json.emit_text (numberToJson x)
  | string _ => rfl
  | date _ => rfl
  | binary _ => rfl
  | array items => by
    rw [emit, write, emitItems_text items]
    rfl
  | object members => by
    rw [emit, write, ← emitMembers_text members]
    rfl

theorem emitItems_text : (items : List Value) → emitItems .text items = writeItems items
  | [] => rfl
  | v :: vs => by rw [emitItems, writeItems, emit_text v, emitItems_text vs]

theorem emitMembers_text : (members : List (String × Value)) →
    (emitMembers .text members).map (fun m => Json.quote m.1 ++ ":" ++ m.2) = writeMembers members
  | [] => rfl
  | (k, v) :: es => by
    rw [emitMembers, writeMembers, List.map_cons, emit_text v, emitMembers_text es]

end

/-- The two ways to write a value agree. Whatever is written, the value directly and its document
give the same; so the text that is written directly is the text of the document, letter by letter,
and the document that is written directly is the document itself. -/
theorem serializers_agree (v : Value) :
    (∀ {α : Type} (w : Writer α), v.emit w = v.toJson.emit w) ∧
      v.write = v.toJson.render ∧ v.emit .document = v.toJson := by
  have agree {α : Type} (w : Writer α) : v.emit w = v.toJson.emit w := (emit_toJson w v).symm
  refine ⟨agree, ?_, ?_⟩
  · calc
      v.write = v.emit .text := (emit_text v).symm
      _ = v.toJson.emit .text := agree .text
      _ = v.toJson.render := Json.emit_text v.toJson
  · exact (agree .document).trans (Json.emit_document v.toJson)

end Value

end ApiContract
