import Herald.Event.Field
import Herald.Json.Shape

/-!
The wire form of events. An event is written as a compact record whose first member is the tag of
its kind, followed by its fields in order. It is read from a record with the tag anywhere, where
members that are no field of the kind are passed over, or from a list of the tag and every field
value in order.
-/

namespace Herald

open Json (Fault Mismatch Reader Value)
open Text (ascii)

namespace Event

/-! Writing. -/

def tagName : String := "type"

def members (event : Event) : List (String × String) :=
  (tagName, Json.Printer.text event.kind.name)
    :: (event.kind.fields.map Field.name).zip (event.values.map FieldValue.print)

def encode (event : Event) : String := Json.Printer.record event.members

/-! Field values from members and from lists. -/

def collect (fields : List Field) : List (String × FieldValue) → List (String × Value) →
    Except Mismatch (List (String × FieldValue))
  | found, [] => .ok found
  | found, (name, value) :: rest =>
    match fields.find? (·.name = name) with
    | none => collect fields found rest
    | some field =>
      if (found.lookup name).isSome then .error (.duplicateField name)
      else do
        let value ← field.type.read value
        collect fields ((name, value) :: found) rest

/-- The value found for each field in order, where a field that may be absent has a value anyway. -/
def complete (found : List (String × FieldValue)) : List Field → Except Mismatch (List FieldValue)
  | [] => .ok []
  | field :: rest =>
    match (found.lookup field.name).or field.type.absent? with
    | some value => do
      let values ← complete found rest
      .ok (value :: values)
    | none => .error (.missingField field.name)

def ofMembers (fields : List Field) (members : List (String × Value)) :
    Except Mismatch (List FieldValue) := do
  let found ← collect fields [] members
  complete found fields

def plural (count : Nat) (noun : String) : String :=
  toString count ++ " " ++ noun ++ (if count = 1 then "" else "s")

/-- The values of a list in the order of the fields; `total` is the number of its items. -/
def ofItems (kind : Kind) (total : Nat) : Nat → List Field → List Value →
    Except Mismatch (List FieldValue)
  | _, [], [] => .ok []
  | index, [], _ :: _ => .error (.wrongLength total (plural index "element" ++ " in sequence"))
  | index, field :: fields, [] =>
    match field.type.absent? with
    | some value => do
      let values ← ofItems kind total (index + 1) fields []
      .ok (value :: values)
    | none =>
      .error (.wrongLength index
        ("struct variant DomainEvent::" ++ kind.title ++ " with "
          ++ plural kind.fields.length "element"))
  | index, field :: fields, value :: rest => do
    let value ← field.type.read value
    let values ← ofItems kind total (index + 1) fields rest
    .ok (value :: values)

/-! Reading. -/

/-- What follows the tag: the other members, or the items of a list. -/
inductive Content
  | members (members : List (String × Value))
  | items (items : List Value)

def Content.values (kind : Kind) : Content → Except Mismatch (List FieldValue)
  | .members found => ofMembers kind.fields found
  | .items found => ofItems kind found.length 0 kind.fields found

def readTag : Reader Kind :=
  Json.Shape.textWith "variant identifier" fun name =>
    match Kind.ofName? name with
    | some kind => .ok kind
    | none => .error (.unknownVariant name (Kind.all.map Kind.name))

/-- The tag as far as it was found, and the other members in reverse. -/
structure Tagged where
  kind? : Option Kind
  members : List (String × Value)

def Tagged.step (depth : Nat) (tagged : Tagged) (name : String) : Reader Tagged :=
  if name = tagName then
    match tagged.kind? with
    | some _ => Reader.refuse (.duplicateField tagName)
    | none => do
      let kind ← Reader.member name readTag
      pure { tagged with kind? := some kind }
  else do
    let value ← Reader.member name (Value.read depth)
    pure { tagged with members := (name, value) :: tagged.members }

def readRecord (depth : Nat) : Reader (Kind × Content) := do
  let tagged ← Reader.foldMembers Json.Quotation.quoted (Tagged.step depth) ⟨none, []⟩
  match tagged.kind? with
  | some kind => pure (kind, .members tagged.members.reverse)
  | none => Reader.refuse (.missingField tagName)

def readList (depth : Nat) : Reader (Kind × Content) := do
  let (kind?, items) ← Reader.foldItems
    (fun (kind?, items) => do
      match kind? with
      | none =>
        let kind ← readTag
        pure (some kind, items)
      | some kind =>
        let item ← Value.read depth
        pure (some kind, item :: items)) ((none, []) : Option Kind × List Value)
  match kind? with
  | some kind => pure (kind, .items items.reverse)
  | none => Reader.refuse (.missingField tagName)

def readTagged (depth : Nat) : Reader (Kind × Content) :=
  Json.Shape.byFirst fun octet =>
    if octet = ascii '\x7b' then Reader.nested depth fun depth => Reader.inRecord (readRecord depth)
    else if octet = ascii '[' then Reader.nested depth fun depth => Reader.inList (readList depth)
    else Json.Shape.unexpected "internally tagged enum DomainEvent"

def ofContent (kind : Kind) (content : Content) : Except Mismatch Event := do
  let values ← content.values kind
  match ofValues? kind values with
  | some event => .ok event
  | none => .error (.refused "field values of another kind")

/-- An event that may hold `depth` levels of lists and records. -/
def read (depth : Nat) : Reader Event := do
  let (kind, content) ← readTagged depth
  Json.Shape.checked (ofContent kind content)

def decode (payload : String) : Except Fault Event :=
  match Reader.whole (read Json.nestingLimit) (Text.octets payload) with
  | .done event _ => .ok event
  | .fault fault _ => .error fault

end Event

end Herald
