import Herald.Text.Blank
import Herald.Text.Digits
import Herald.Text.Octets

/-!
Instants in universal time, to the nanosecond, with years of either sign and seconds up to 60. They
are written with the fewest of 0, 3, 6 or 9 fraction digits that are exact. The reader takes blanks
between the parts, short fields, any fraction, and an offset, which it subtracts.
-/

namespace Herald

open Text (ascii isBlank)

structure Civil where
  year : Int
  month : Nat
  day : Nat
  hour : Nat
  minute : Nat
  second : Nat
  nanosecond : Nat
  deriving DecidableEq, Repr

namespace Civil

def leastYear : Int := -262143

def greatestYear : Int := 262142

def isLeapYear (year : Int) : Bool := year % 4 = 0 && (year % 100 ≠ 0 || year % 400 = 0)

def daysInMonth (year : Int) (month : Nat) : Nat :=
  if month = 2 then (if isLeapYear year then 29 else 28)
  else if month = 4 || month = 6 || month = 9 || month = 11 then 30
  else 31

/--
A leap second is second 60. Those that are off second 59, where the nanosecond would be 10^9 or more,
are left out: neither the clock nor the reader makes one.
-/
def isValid (civil : Civil) : Bool :=
  leastYear ≤ civil.year && civil.year ≤ greatestYear
    && 1 ≤ civil.month && civil.month ≤ 12
    && 1 ≤ civil.day && civil.day ≤ daysInMonth civil.year civil.month
    && civil.hour < 24 && civil.minute < 60 && civil.second ≤ 60 && civil.nanosecond < 10 ^ 9

def nextDay (civil : Civil) : Civil :=
  if civil.day < daysInMonth civil.year civil.month then { civil with day := civil.day + 1 }
  else if civil.month < 12 then { civil with month := civil.month + 1, day := 1 }
  else { civil with year := civil.year + 1, month := 1, day := 1 }

def previousDay (civil : Civil) : Civil :=
  if 1 < civil.day then { civil with day := civil.day - 1 }
  else if 1 < civil.month then
    { civil with month := civil.month - 1, day := daysInMonth civil.year (civil.month - 1) }
  else { civil with year := civil.year - 1, month := 12, day := 31 }

def minutesInDay : Int := 1440

/-- The fields less an offset in minutes, which is shorter than a day. -/
def minusMinutes (civil : Civil) (offset : Int) : Civil :=
  let minutes : Int := (civil.hour : Int) * 60 + civil.minute - offset
  let moved :=
    if minutes < 0 then civil.previousDay
    else if minutesInDay ≤ minutes then civil.nextDay
    else civil
  let minutes := (minutes % minutesInDay).toNat
  { moved with hour := minutes / 60, minute := minutes % 60 }

end Civil

/-- A valid date and time; its leap seconds are those that come after second 59. -/
structure Instant extends Civil where
  valid : toCivil.isValid = true
  deriving DecidableEq

namespace Instant

instance : Repr Instant where
  reprPrec instant := reprPrec instant.toCivil

def ofCivil? (civil : Civil) : Option Instant :=
  if valid : civil.isValid = true then some ⟨civil, valid⟩ else none

def epoch : Instant := ⟨⟨1970, 1, 1, 0, 0, 0, 0⟩, by decide⟩

instance : Inhabited Instant := ⟨epoch⟩

def isBefore (left right : Instant) : Bool :=
  if left.year ≠ right.year then left.year < right.year
  else
    let fields (instant : Instant) : List Nat :=
      [instant.month, instant.day, instant.hour, instant.minute, instant.second, instant.nanosecond]
    decide (fields left < fields right)

/-! Writing. -/

def yearText (year : Int) : List Char :=
  let magnitude := year.natAbs
  let width := if magnitude < 10 ^ 4 then 4 else if magnitude < 10 ^ 5 then 5 else 6
  let digits := Text.Digits.text 10 width magnitude
  if year < 0 then '-' :: digits
  else if 10 ^ 4 ≤ magnitude then '+' :: digits
  else digits

def fractionText (nanosecond : Nat) : List Char :=
  if nanosecond = 0 then []
  else if nanosecond % 10 ^ 6 = 0 then '.' :: Text.Digits.text 10 3 (nanosecond / 10 ^ 6)
  else if nanosecond % 10 ^ 3 = 0 then '.' :: Text.Digits.text 10 6 (nanosecond / 10 ^ 3)
  else '.' :: Text.Digits.text 10 9 nanosecond

def characters (instant : Instant) : List Char :=
  let two := Text.Digits.text 10 2
  yearText instant.year ++ '-' :: two instant.month ++ '-' :: two instant.day
    ++ 'T' :: two instant.hour ++ ':' :: two instant.minute ++ ':' :: two instant.second
    ++ fractionText instant.nanosecond ++ ['Z']

def text (instant : Instant) : String := String.ofList instant.characters

/-! Reading. -/

inductive Fault
  | tooShort
  | invalid
  | outOfRange
  | tooLong
  | impossible
  deriving DecidableEq, Repr

def Fault.message : Fault → String
  | .tooShort => "premature end of input"
  | .invalid => "input contains invalid characters"
  | .outOfRange => "input is out of range"
  | .tooLong => "trailing input"
  | .impossible => "no possible date and time matching input"

abbrev Scan (α : Type) := StateT (List Char) (Except Fault) α

namespace Scan

def isDigit (character : Char) : Bool := '0' ≤ character && character ≤ '9'

def digit (character : Char) : Nat := character.toNat - '0'.toNat

def blanks : Scan Unit := modify (·.dropWhile isBlank)

def greatestTotal : Nat := 2 ^ 63 - 1

/-- Digits after a total so far, at most `limit` of them where there is a limit. -/
def more (limit : Option Nat) (total : Nat) : List Char → Except Fault (Nat × List Char)
  | [] => .ok (total, [])
  | character :: rest =>
    if limit = some 0 then .ok (total, character :: rest)
    else if isDigit character then
      let total := total * 10 + digit character
      if greatestTotal < total then .error .outOfRange else more (limit.map (· - 1)) total rest
    else .ok (total, character :: rest)

def number (limit : Option Nat) : Scan Nat := fun input =>
  match input with
  | [] => .error .tooShort
  | character :: _ => if isDigit character then more limit 0 input else .error .invalid

def within (low high : Nat) (limit : Nat) : Scan Nat := do
  blanks
  let value ← number (some limit)
  if low ≤ value ∧ value ≤ high then pure value else throw .outOfRange

def year : Scan Int := do
  blanks
  match ← get with
  | '-' :: rest =>
    set rest
    let value ← number none
    bounded (-(value : Int))
  | '+' :: rest =>
    set rest
    let value ← number none
    bounded value
  | _ =>
    let value ← number (some 4)
    bounded value
where
  bounded (value : Int) : Scan Int :=
    if -(2 ^ 31 : Int) ≤ value ∧ value < 2 ^ 31 then pure value else throw .outOfRange

def literal (expected : Char) : Scan Unit := do
  blanks
  match ← get with
  | [] => throw .tooShort
  | character :: rest => if character = expected then set rest else throw .invalid

/-- The T between date and time in either case, or any blanks. -/
def between : Scan Unit := do
  match ← get with
  | character :: rest => if character = 't' ∨ character = 'T' then set rest else blanks
  | [] => throw .tooShort

/-- The nine leading digits of a fraction; later ones are dropped. -/
def fraction : Scan Nat := do
  match ← get with
  | '.' :: rest =>
    set rest
    let before := rest.length
    let value ← number (some 9)
    let after := (← get).length
    modify (·.dropWhile isDigit)
    pure (value * 10 ^ (9 - (before - after)))
  | _ => pure 0

def isUniversal (characters : List Char) : Bool :=
  characters.length = 3 && characters.map Char.toUpper = ['U', 'T', 'C']

def minusSign : Char := '\u2212'

/-- Two digits; anything else is told apart by whether two octets are left. -/
def pair : Scan (Nat × Nat) := do
  match ← get with
  | first :: second :: rest =>
    if isDigit first ∧ isDigit second then
      set rest
      pure (digit first, digit second)
    else throw .invalid
  | [single] => if single.utf8Size < 2 then throw .tooShort else throw .invalid
  | [] => throw .tooShort

def offset : Scan Int := do
  let input ← get
  if isUniversal (input.take 3) then
    set (input.drop 3)
    pure 0
  else
    match input with
    | [] => throw .tooShort
    | sign :: rest =>
      if sign = 'Z' ∨ sign = 'z' then
        set rest
        pure 0
      else if sign = '+' ∨ sign = '-' ∨ sign = minusSign then
        set rest
        let (tens, units) ← pair
        modify (·.dropWhile fun character => character = ':' || isBlank character)
        let (minuteTens, minuteUnits) ← pair
        if 6 ≤ minuteTens then throw .outOfRange
        let minutes : Int := (tens * 10 + units) * 60 + (minuteTens * 10 + minuteUnits)
        pure (if sign = '+' then minutes else -minutes)
      else throw .invalid

def fields : Scan (Civil × Int) := do
  let year ← year
  literal '-'
  let month ← within 1 12 2
  literal '-'
  let day ← within 1 31 2
  between
  let hour ← within 0 23 2
  literal ':'
  let minute ← within 0 59 2
  literal ':'
  let second ← within 0 60 2
  let nanosecond ← fraction
  blanks
  let offset ← offset
  pure (⟨year, month, day, hour, minute, second, nanosecond⟩, offset)

end Scan

def atOffset (civil : Civil) (offset : Int) : Except Fault Instant :=
  if civil.isValid then
    if offset.natAbs < 1440 then
      match ofCivil? (civil.minusMinutes offset) with
      | some instant => .ok instant
      | none => .error .impossible
    else .error .outOfRange
  else .error .outOfRange

def readCharacters (characters : List Char) : Except Fault Instant := do
  let ((civil, offset), rest) ← Scan.fields.run characters
  if rest.all isBlank then atOffset civil offset else .error .tooLong

def read (text : String) : Except Fault Instant := readCharacters text.toList

end Instant

end Herald
