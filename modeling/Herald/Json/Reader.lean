import Herald.Json.Fault

/-!
Readers consume octets from the front of the unread input. This module holds the readers of blanks,
words, separators and closing brackets, from which the readers of lists and records are built: a
fold over the items, each read by a step that may look at what the earlier ones gave.
-/

namespace Herald.Json

open Text (ascii)

inductive Outcome (α : Type) where
  | done (value : α) (rest : List UInt8)
  | fault (fault : Fault) (rest : List UInt8)

def Reader (α : Type) := List UInt8 → Outcome α

namespace Outcome

def rest {α : Type} : Outcome α → List UInt8
  | .done _ rest => rest
  | .fault _ rest => rest

def mapFault {α : Type} (change : Fault → Fault) : Outcome α → Outcome α
  | .done value rest => .done value rest
  | .fault problem rest => .fault (change problem) rest

end Outcome

namespace Reader

variable {α β : Type}

protected def pure (value : α) : Reader α := fun input => .done value input

protected def bind (reader : Reader α) (next : α → Reader β) : Reader β := fun input =>
  match reader input with
  | .done value rest => next value rest
  | .fault problem rest => .fault problem rest

instance : Monad Reader where
  pure := Reader.pure
  bind := Reader.bind

def fail (cause : Cause) : Reader α := fun input =>
  .fault { cause, unread := some input.length } input

def failNext (cause : Cause) : Reader α := fun input =>
  .fault { cause, unread := some (input.length - 1) } input

/-- Fails without a place; the reader around it gives the place. -/
def refuse (mismatch : Mismatch) : Reader α := fun input =>
  .fault (.ofMismatch mismatch) input

def peek : Reader (Option UInt8) := fun input => .done input.head? input

def advance : Reader Unit := fun input => .done () (input.drop 1)

def next : Reader (Option UInt8) := fun input => .done input.head? (input.drop 1)

/-- Gives a fault without a place the place reached by then. -/
def placed (reader : Reader α) : Reader α := fun input =>
  match reader input with
  | .done value rest => .done value rest
  | .fault problem rest => .fault (problem.placed rest.length) rest

def under (segment : Segment) (reader : Reader α) : Reader α := fun input =>
  (reader input).mapFault (·.under segment)

def isBlank (octet : UInt8) : Bool :=
  octet = ascii ' ' || octet = ascii '\n' || octet = ascii '\t' || octet = ascii '\r'

def blanks : Reader Unit := fun input => .done () (input.dropWhile isBlank)

/-- The next octet that is not blank, left unread. -/
def peekToken : Reader (Option UInt8) := do
  blanks
  peek

def word : List Char → Reader Unit
  | [] => pure ()
  | letter :: letters => do
    match ← next with
    | none => fail .endInValue
    | some octet => if octet = ascii letter then word letters else fail .expectedWord

/-- Between the items of a list: whether another one follows, left unread. -/
def nextItem (first : Bool) : Reader Bool := do
  match ← peekToken with
  | none => failNext .endInList
  | some octet =>
    if octet = ascii ']' then pure false
    else if first then pure true
    else if octet = ascii ',' then
      advance
      match ← peekToken with
      | none => failNext .endInValue
      | some octet => if octet = ascii ']' then failNext .trailingComma else pure true
    else failNext .expectedListCommaOrEnd

/-- Between the members of a record: whether a key follows, left unread at its quotation mark. -/
def nextKey (first : Bool) : Reader Bool := do
  match ← peekToken with
  | none => failNext .endInRecord
  | some octet =>
    if octet = ascii '\x7d' then pure false
    else if first then
      if octet = ascii '"' then pure true else failNext .keyMustBeText
    else if octet = ascii ',' then
      advance
      match ← peekToken with
      | none => failNext .endInValue
      | some octet =>
        if octet = ascii '"' then pure true
        else if octet = ascii '\x7d' then failNext .trailingComma
        else failNext .keyMustBeText
    else failNext .expectedRecordCommaOrEnd

def colon : Reader Unit := do
  match ← peekToken with
  | none => failNext .endInRecord
  | some octet => if octet = ascii ':' then advance else failNext .expectedColon

def closeList : Reader Unit := do
  match ← peekToken with
  | none => failNext .endInList
  | some octet =>
    if octet = ascii ']' then advance
    else if octet = ascii ',' then
      advance
      match ← peekToken with
      | some octet => if octet = ascii ']' then failNext .trailingComma else failNext .trailingCharacters
      | none => failNext .trailingCharacters
    else failNext .trailingCharacters

def closeRecord : Reader Unit := do
  match ← peekToken with
  | none => failNext .endInRecord
  | some octet =>
    if octet = ascii '\x7d' then advance
    else if octet = ascii ',' then failNext .trailingComma
    else failNext .trailingCharacters

/--
The inside of brackets and then the closing bracket. The closing bracket is looked for after a fault
of the inside too, and a fault without a place gets the place reached then.
-/
def enclosed (inside : Reader α) (close : Reader Unit) : Reader α := fun input =>
  match inside input with
  | .done value rest =>
    match close rest with
    | .done _ rest => .done value rest
    | .fault problem rest => .fault problem rest
  | .fault problem rest =>
    let rest := (close rest).rest
    .fault (problem.placed rest.length) rest

def nested (depth : Nat) (inside : Nat → Reader α) : Reader α :=
  match depth with
  | 0 => failNext .tooDeep
  | depth + 1 => inside depth

def inList (inside : Reader α) : Reader α := do
  advance
  enclosed inside closeList

def inRecord (inside : Reader α) : Reader α := do
  advance
  enclosed inside closeRecord

/--
Folds over the items of a list up to its closing bracket. Every item takes up octets, so the unread
octets bound the number of turns.
-/
def foldItems (step : α → Reader α) (state : α) : Reader α := fun input =>
  loop (0 :: input) 0 state input
where
  loop : List UInt8 → Nat → α → Reader α
    | [], _, _ => failNext .endInList
    | _ :: fuel, index, state => do
      if ← nextItem (index = 0) then
        let state ← under (.position index) (step state)
        loop fuel (index + 1) state
      else pure state

def member (name : String) (value : Reader α) : Reader α :=
  under (.member name) do
    colon
    value

/--
Folds over the members of a record up to its closing bracket. The step gets a key and reads the
colon and the value after it.
-/
def foldMembers (key : Reader String) (step : α → String → Reader α) (state : α) : Reader α :=
  fun input => loop (0 :: input) true state input
where
  loop : List UInt8 → Bool → α → Reader α
    | [], _, _ => failNext .endInRecord
    | _ :: fuel, first, state => do
      if ← under .unknown (nextKey first) then
        let name ← under .unknown key
        let state ← step state name
        loop fuel false state
      else pure state

def finished : Reader Unit := do
  match ← peekToken with
  | none => pure ()
  | some _ => failNext .trailingCharacters

def whole (reader : Reader α) : Reader α := do
  let value ← reader
  finished
  pure value

end Reader

end Herald.Json
