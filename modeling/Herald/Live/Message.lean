import Herald.Event.Wire

/-!
What a live stream can carry, each message as a named event with data in JSON.
-/

namespace Herald.Live

inductive Message
  | connected (connection : String)
  | heartbeat
  | notification (event : Event)
  | sessionExpired
  deriving DecidableEq, Repr

namespace Message

def name : Message → String
  | .connected _ => "connected"
  | .heartbeat => "heartbeat"
  | .notification _ => "notification"
  | .sessionExpired => "session-expired"

def expiryReason : String := "Signed in on another device"

def data : Message → String
  | .connected connection =>
    Json.Printer.record [("connection_id", Json.Printer.text connection)]
  | .heartbeat => Json.Printer.text "ping"
  | .notification event => event.encode
  | .sessionExpired => Json.Printer.record [("reason", Json.Printer.text expiryReason)]

end Message

end Herald.Live
