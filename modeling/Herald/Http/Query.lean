import Herald.Text.Integer
import Herald.Text.Percent

/-!
The query of a request for a page of the history: a page number and a page size, each at most once.
Other names are passed over.
-/

namespace Herald.Http

structure PageQuery where
  page : Option Nat
  size : Option Nat
  deriving DecidableEq, Repr

inductive QueryFault
  | repeated (name : String)
  | noNumber (fault : Text.IntegerFault)
  deriving DecidableEq, Repr

def QueryFault.message : QueryFault → String
  | .repeated name => "duplicate field `" ++ name ++ "`"
  | .noNumber fault => fault.message

namespace PageQuery

def number (name : String) (present : Option Nat) (value : List UInt8) : Except QueryFault Nat :=
  match present with
  | some _ => .error (.repeated name)
  | none => (Text.natural? (2 ^ 64 - 1) value).mapError .noNumber

def step (query : PageQuery) (pair : List UInt8 × List UInt8) : Except QueryFault PageQuery :=
  let (name, value) := pair
  if name = Text.octets "page" then
    (number "page" query.page value).map fun page => { query with page := some page }
  else if name = Text.octets "size" then
    (number "size" query.size value).map fun size => { query with size := some size }
  else .ok query

def read (query : String) : Except QueryFault PageQuery :=
  (Text.Percent.pairs (Text.octets query)).foldlM step ⟨none, none⟩

end PageQuery

end Herald.Http
