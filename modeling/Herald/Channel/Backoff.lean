/-!
How long a subscriber waits before it tries again. The wait doubles from failure to failure up to a
limit, and starts over whenever a subscription was set up.
-/

namespace Herald.Channel.Backoff

/-- The first wait, in milliseconds. -/
def initial : Nat := 500

def greatest : Nat := 30000

def wait (due : Nat) (succeeded : Bool) : Nat := if succeeded then initial else due

def next (wait : Nat) : Nat := min (wait * 2) greatest

def waitsFrom (due : Nat) : List Bool → List Nat
  | [] => []
  | succeeded :: rest =>
    let current := wait due succeeded
    current :: waitsFrom (next current) rest

def waits (attempts : List Bool) : List Nat := waitsFrom initial attempts

end Herald.Channel.Backoff
