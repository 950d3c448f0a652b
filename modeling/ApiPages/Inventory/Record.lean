import ApiPages.Declaration.Basic
import ApiPages.Json.Basic

/-!
# Records

A record is a declaration as an inventory gives it, before anything about it is judged: every field
may be missing, and words are not yet understood. Records are read from JSON values of the right
shape. A record of any sort is written either as an object, whose unknown keys are passed over and
whose known keys stand at most once, or as an array of its fields in their order.
-/

namespace ApiPages

/-- A declaration as an inventory gives it. -/
structure Record where
  kind : Option String
  name : Option String
  access : Option String
  signature : Option String
  /-- The documentation, taken apart already. -/
  documentation : Option Comment
  /-- The documentation as one text, which counts where `documentation` is missing. -/
  comment : Option String
  inheritance : List String
  members : List Record
  location : Option Location

/-- An inventory as it is written: the name of the module, if given, and the records. -/
structure RecordList where
  moduleName : Option String
  records : List Record

namespace Json

/-- The value of a key that stands at most once; the inner option says whether it stands at all. -/
def uniqueMember? (members : List (String × Json)) (key : String) : Option (Option Json) :=
  match members.filter (·.1 = key) with
  | [] => some none
  | [m] => some (some m.2)
  | _ => none

/-- The values of a record's fields, given their keys. In an array the first `least` must be there. -/
def fields? (keys : List String) (least : Nat) : Json → Option (List (Option Json))
  | .object members => keys.mapM (uniqueMember? members)
  | .array elements =>
    if least ≤ elements.length ∧ elements.length ≤ keys.length then
      some (elements.map some ++ List.replicate (keys.length - elements.length) none)
    else none
  | _ => none

/-- A text. -/
def text? : Json → Option String
  | .text s => some s
  | _ => none

/-- A field that may be missing or null. -/
def optional? {α : Type} (read : Json → Option α) : Option Json → Option (Option α)
  | none | some .null => some none
  | some j => (read j).map some

/-- A field that stands for `value` when it is missing. -/
def defaulted? {α : Type} (value : α) (read : Json → Option α) : Option Json → Option α
  | none => some value
  | some j => read j

/-- A list of values of one shape. -/
def list? {α : Type} (read : Json → Option α) : Json → Option (List α)
  | .array elements => elements.mapM read
  | _ => none

/-- A line number: a whole number of at most 32 bits, written without point and exponent. -/
def lineNumber? : Json → Option Nat
  | .number n => n.natural?.filter (· < 1 <<< 32)
  | _ => none

/-- A location. -/
def location? (j : Json) : Option Location :=
  match j.fields? ["file", "line"] 2 with
  | some [some file, some line] =>
    match file.text?, line.lineNumber? with
    | some file, some line => some ⟨file, line⟩
    | _, _ => none
  | _ => none

/-- What is said of one parameter. -/
def parameter? (j : Json) : Option Parameter :=
  match j.fields? ["name", "description"] 1 with
  | some [some name, description] =>
    match name.text?, defaulted? "" text? description with
    | some name, some description => some ⟨name, description⟩
    | _, _ => none
  | _ => none

/-- Documentation that was taken apart already. -/
def documentation? (j : Json) : Option Comment :=
  match j.fields? ["abstract", "discussion", "parameters", "returns", "throws"] 5 with
  | some [summary, discussion, parameters, returns, throws] => do
    some
      { summary := ← defaulted? "" text? summary
        discussion := ← optional? text? discussion
        parameters := ← defaulted? [] (list? parameter?) parameters
        returns := ← optional? text? returns
        throws := ← optional? text? throws }
  | _ => none

/-- The keys of a record, in the order that its fields have in an array. -/
def recordKeys : List String :=
  ["kind", "name", "accessLevel", "signature", "documentation", "comment", "inheritance",
    "members", "location"]

/-- The record with the given fields, of which the members are read already. -/
def recordOf? (fields : List (Option Json)) (members : Option (List Record)) : Option Record :=
  match fields with
  | [kind, name, access, signature, documentation, comment, inheritance, _, location] => do
    some
      { kind := ← optional? text? kind
        name := ← optional? text? name
        access := ← optional? text? access
        signature := ← optional? text? signature
        documentation := ← optional? documentation? documentation
        comment := ← optional? text? comment
        inheritance := ← defaulted? [] (list? text?) inheritance
        members := ← members
        location := ← optional? location? location }
  | _ => none

mutual

/-- A record. -/
def record? : Json → Option Record
  | .object ms =>
    ((Json.object ms).fields? recordKeys 9).bind fun fields => recordOf? fields (membersOf? ms)
  | .array es =>
    ((Json.array es).fields? recordKeys 9).bind fun fields => recordOf? fields (nthRecords? es 7)
  | _ => none

/-- The records in the `members` field of an object; none when there is no such field. -/
def membersOf? : List (String × Json) → Option (List Record)
  | [] => some []
  | (key, value) :: rest =>
    if key = "members" then recordList? value else membersOf? rest

/-- The records in the element of an array at an index. -/
def nthRecords? : List Json → Nat → Option (List Record)
  | [], _ => none
  | j :: _, 0 => recordList? j
  | _ :: rest, i + 1 => nthRecords? rest i

/-- A list of records. -/
def recordList? : Json → Option (List Record)
  | .array es => records? es
  | _ => none

/-- The records that some values are. -/
def records? : List Json → Option (List Record)
  | [] => some []
  | j :: js =>
    match record? j, records? js with
    | some r, some rs => some (r :: rs)
    | _, _ => none

end

/-- An inventory: a list of records, or an object that names the module beside it. -/
def inventory? : Json → Option RecordList
  | .array es => (records? es).map fun rs => ⟨none, rs⟩
  | .object ms =>
    match (Json.object ms).fields? ["module", "declarations"] 2 with
    | some [name, some declarations] =>
      match optional? text? name, recordList? declarations with
      | some name, some rs => some ⟨name, rs⟩
      | _, _ => none
    | _ => none
  | _ => none

end Json

end ApiPages
