import Herald.Proofs.Event.Document
import Herald.Proofs.Json.Tracking

/-!
The reader of events gives an event exactly where the reader of any value gives a value that stands for
that event, and leaves the same octets unread. So it is for lists of events.
-/

namespace Herald.Event

open Json (Agrees Reader Tracks Value)
open Text (ascii)

variable {input rest : List UInt8} {event : Event} {events : List Event}

theorem tracks_readTag (depth : Nat) : Tracks (Value.read depth) readTag :=
  Tracks.textWith depth _ _

theorem tracks_step (depth : Nat) (tagged : Tagged) (name : String) :
    Tracks (Reader.member name (Value.read depth)) (Tagged.step depth tagged name) := by
  rw [Tagged.step]
  split
  case isTrue =>
    split
    · exact (Reader.Fails.refuse _).tracks
    · exact ((tracks_readTag depth).member name).map _
  case isFalse => exact (Tracks.refl _).map _

theorem tracks_readRecord (depth : Nat) :
    Tracks (Reader.foldMembers Json.Quotation.quoted (Json.gatherMember depth) [])
      (readRecord depth) := by
  refine (Tracks.foldMembers (tracks_step depth) ⟨none, []⟩).bind ?_
  intro tagged
  cases tagged.kind? with
  | some kind => exact .pure _
  | none => exact (Reader.Fails.refuse _).idle

theorem tracks_readList (depth : Nat) :
    Tracks (Reader.foldItems (Json.gatherItem depth) []) (readList depth) := by
  refine (Tracks.foldItems ?_ (none, [])).bind ?_
  · rintro ⟨kind?, items⟩
    cases kind? with
    | none => exact (tracks_readTag depth).map fun kind => (some kind, items)
    | some kind => exact (Tracks.refl (Value.read depth)).map fun item => (some kind, item :: items)
  · rintro ⟨kind?, items⟩
    cases kind? with
    | some kind => exact .pure _
    | none => exact (Reader.Fails.refuse _).idle

theorem tracks_readTagged (depth : Nat) : Tracks (Value.read depth) (readTagged depth) := by
  apply Tracks.byFirst
  intro input inside octet hinput result rest hdone
  split at hdone
  case isTrue hrecord =>
    subst hrecord
    cases depth with
    | zero => cases hdone
    | succ below =>
        rw [Value.read_of_recordStart below hinput]
        exact (tracks_readRecord below).inRecord.map_leader _ _ _ _ hdone
  split at hdone
  case isTrue hlist =>
    subst hlist
    cases depth with
    | zero => cases hdone
    | succ below =>
        rw [Value.read_of_listStart below hinput]
        exact (tracks_readList below).inList.map_leader _ _ _ _ hdone
  case isFalse => exact absurd hdone (Reader.Fails.unexpected _).ne_done

theorem agrees_read (depth : Nat) : Agrees (Value.read depth) (read depth) ofDocument? where
  follows := follows_read depth
  tracks := (tracks_readTagged depth).bind fun _ => Json.Shape.idle_checked _

/-- One value that stands for no event spoils the list it is in, wherever in it. -/
theorem mapM_eq_none_of_mem {items : List Value} {item : Value} (hmem : item ∈ items)
    (hitem : ofDocument? item = none) : items.mapM ofDocument? = none := by
  induction items with
  | nil => cases hmem
  | cons first items ih =>
      rw [List.mapM_cons]
      obtain rfl | hmem := List.mem_cons.mp hmem
      · rw [hitem]
        rfl
      · rw [ih hmem]
        cases ofDocument? first with
        | none => rfl
        | some event => rfl

/-- What a list of events is read from: a list of values that stand for them, one each, in order. -/
theorem readList_eq_done_iff {depth : Nat} :
    Json.Shape.list (read depth) input = .done events rest ↔
      ∃ items, Value.read (depth + 1) input = .done (.list items) rest ∧
        items.mapM ofDocument? = some events := by
  rw [(agrees_read depth).list.eq_done_iff]
  constructor
  · rintro ⟨value, hvalue, hmeaning⟩
    obtain ⟨items, hitems, hevents⟩ := Option.bind_eq_some_iff.mp hmeaning
    obtain rfl := Value.items?_eq_some_iff.mp hitems
    exact ⟨items, hvalue, hevents⟩
  · rintro ⟨items, hvalue, hevents⟩
    exact ⟨.list items, hvalue, hevents⟩

end Herald.Event
