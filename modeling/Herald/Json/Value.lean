import Herald.Json.Binary64

/-!
JSON values as read from text. Members keep their order and may repeat a key.
-/

namespace Herald.Json

/-- Whole numbers within 64 bits are kept exactly; every other number is rounded. -/
inductive Number
  | whole (value : Int)
  | real (value : Binary64)
  deriving DecidableEq, Repr

inductive Value
  | null
  | boolean (value : Bool)
  | number (value : Number)
  | text (value : String)
  | list (items : List Value)
  | record (members : List (String × Value))
  deriving Repr

end Herald.Json
