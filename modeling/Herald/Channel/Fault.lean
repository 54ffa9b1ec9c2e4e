import Herald.Json.Fault

/-!
What can go wrong between a publisher and the subscribers of a topic. None of it is fatal: a failed
publish costs the live push only.
-/

namespace Herald.Channel

inductive Fault
  | connection (reason : String)
  | publish (reason : String)
  | subscribe (reason : String)
  | serialization (fault : Json.Fault) (payload : String)
  deriving DecidableEq, Repr

namespace Fault

def message : Fault → String
  | .connection reason => "Fanout connection error: " ++ reason
  | .publish reason => "Fanout publish error: " ++ reason
  | .subscribe reason => "Fanout subscribe error: " ++ reason
  | .serialization fault payload =>
    "Fanout serialization error: " ++ fault.message (Text.octets payload)

def cause? : Fault → Option String
  | .serialization fault payload => some (fault.message (Text.octets payload))
  | _ => none

def nested : Fault → String
  | .connection reason => "Connection(" ++ Text.quoted reason ++ ")"
  | .publish reason => "Publish(" ++ Text.quoted reason ++ ")"
  | .subscribe reason => "Subscribe(" ++ Text.quoted reason ++ ")"
  | .serialization fault payload => "Serialization(" ++ fault.nested (Text.octets payload) ++ ")"

end Fault

end Herald.Channel
