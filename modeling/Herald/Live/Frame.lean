import Herald.Live.Message
import Herald.Text.Split

/-!
Event streams in text. Each message is one frame: a line with its name, a line for every line of its
data, and a blank line. The reader takes lines that end in a line feed, a carriage return or both,
joins the data lines of a frame, and gives a frame at every blank line that data came before.
-/

namespace Herald.Live

structure Frame where
  name : String
  data : String
  deriving DecidableEq, Repr

namespace Frame

def ofMessage (message : Message) : Frame := ⟨message.name, message.data⟩

def lineText (field : String) (value : List Char) : List Char :=
  field.toList ++ ':' :: ' ' :: value ++ ['\n']

def characters (frame : Frame) : List Char :=
  lineText "event" frame.name.toList
    ++ (Text.split '\n' frame.data.toList).flatMap (lineText "data") ++ ['\n']

def text (frame : Frame) : String := String.ofList frame.characters

/-- A carriage return ends a line anywhere, and a line feed ends the line of the name. -/
def isWritable (frame : Frame) : Bool :=
  frame.name.toList.all (fun character => character ≠ '\n' && character ≠ '\r')
    && frame.data.toList.all (· ≠ '\r')

/-- The text of a frame; a frame that would break up is refused. -/
def write? (frame : Frame) : Option String := if frame.isWritable then some frame.text else none

/-! Reading. -/

/-- The lines that a text completes; an unfinished last line is left out. -/
def lines (current : List Char) : List Char → List (List Char)
  | [] => []
  | '\r' :: '\n' :: rest => current.reverse :: lines [] rest
  | '\r' :: rest => current.reverse :: lines [] rest
  | '\n' :: rest => current.reverse :: lines [] rest
  | character :: rest => lines (character :: current) rest

def field (line : List Char) : List Char × List Char :=
  match line.dropWhile (· ≠ ':') with
  | ':' :: ' ' :: value => (line.takeWhile (· ≠ ':'), value)
  | ':' :: value => (line.takeWhile (· ≠ ':'), value)
  | _ => (line, [])

structure Partial where
  name : List Char
  data : List (List Char)

def Partial.complete (pending : Partial) : List Frame :=
  if pending.data.isEmpty then []
  else [⟨String.ofList pending.name, String.ofList (Text.join '\n' pending.data)⟩]

def Partial.step (pending : Partial) (line : List Char) : Partial :=
  let (name, value) := field line
  if name = "event".toList then { pending with name := value }
  else if name = "data".toList then { pending with data := pending.data ++ [value] }
  else pending

def ofLines (pending : Partial) : List (List Char) → List Frame
  | [] => []
  | [] :: rest => pending.complete ++ ofLines ⟨[], []⟩ rest
  | line :: rest => ofLines (pending.step line) rest

def readAll (text : String) : List Frame := ofLines ⟨[], []⟩ (lines [] text.toList)

end Frame

end Herald.Live
