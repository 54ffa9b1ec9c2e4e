import Herald.Proofs.Event.Field
import Herald.Proofs.Json.Agreement

/-!
The event that a JSON value stands for, if it stands for one. The reader of events takes a text for the
event of the value that the text spells, wherever the tag stands in it.
-/

namespace Herald

open Json (Follows Reader Value)
open Text (ascii)

/-- The text is one JSON value within the limit of nesting, maybe with blanks around it. -/
def Json.Spells (payload : String) (document : Value) : Prop :=
  Reader.whole (Value.read nestingLimit) (Text.octets payload) = .done document []

def Kind.ofDocument? : Value → Option Kind
  | .text name => ofName? name
  | _ => none

theorem Kind.ofName?_eq_some_iff {name : String} {kind : Kind} :
    ofName? name = some kind ↔ name = kind.name := by
  constructor
  · intro hname
    have hfound := List.find?_some hname
    exact (of_decide_eq_true hfound).symm
  · rintro rfl
    exact ofName?_name kind

theorem Kind.ofDocument?_eq_some_iff {document : Value} {kind : Kind} :
    ofDocument? document = some kind ↔ document = .text kind.name := by
  cases document with
  | text name =>
      rw [ofDocument?, ofName?_eq_some_iff, Value.text.injEq]
  | _ => simp only [ofDocument?, reduceCtorEq]

namespace Event

/-! Tags and what goes with them. -/

/-- Takes one more member into account, which may be the tag. -/
def Tagged.advance (tagged : Tagged) (member : String × Value) : Option Tagged :=
  if member.1 = tagName then
    match tagged.kind? with
    | some _ => none
    | none => (Kind.ofDocument? member.2).map fun kind => { tagged with kind? := some kind }
  else some { tagged with members := member :: tagged.members }

def Tagged.content? (tagged : Tagged) : Option (Kind × Content) :=
  tagged.kind?.map fun kind => (kind, .members tagged.members.reverse)

/-- Takes one more item into account; the first one is the tag. -/
def advanceItem : Option Kind × List Value → Value → Option (Option Kind × List Value)
  | (none, items), item => (Kind.ofDocument? item).map fun kind => (some kind, items)
  | (some kind, items), item => some (some kind, item :: items)

def itemsContent? : Option Kind × List Value → Option (Kind × Content)
  | (kind?, items) => kind?.map fun kind => (kind, .items items.reverse)

def tagged? : Value → Option (Kind × Content)
  | .record members => (members.foldlM Tagged.advance ⟨none, []⟩).bind Tagged.content?
  | .list items => (items.foldlM advanceItem (none, [])).bind itemsContent?
  | _ => none

def ofDocument? (document : Value) : Option Event :=
  (tagged? document).bind fun tagged => (ofContent tagged.1 tagged.2).toOption

/-! The reader of events follows the reader of any value. -/

theorem follows_readTag (depth : Nat) : Follows (Value.read depth) readTag Kind.ofDocument? := by
  have hmeaning (document : Value) : Value.checked? (fun name =>
      match Kind.ofName? name with
      | some kind => Except.ok kind
      | none => .error (.unknownVariant name (Kind.all.map Kind.name))) document =
        Kind.ofDocument? document := by
    cases document with
    | text name =>
        simp only [Value.checked?, Kind.ofDocument?]
        cases Kind.ofName? name with
        | none => rfl
        | some kind => rfl
    | _ => rfl
  intro input document rest hdone
  rw [← hmeaning]
  exact Follows.textWith depth "variant identifier" _ input document rest hdone

theorem follows_step (depth : Nat) (tagged : Tagged) (name : String) :
    Follows (Reader.member name (Value.read depth)) (Tagged.step depth tagged name)
      fun document => tagged.advance (name, document) := by
  intro input document rest hdone
  change (Tagged.step depth tagged name input).Means (tagged.advance (name, document)) rest
  rw [Tagged.step, Tagged.advance]
  by_cases hname : name = tagName
  · rw [if_pos hname, if_pos hname]
    cases tagged.kind? with
    | some kind => exact Reader.Fails.refuse _ input
    | none => exact ((follows_readTag depth).member name).map _ input document rest hdone
  · rw [if_neg hname, if_neg hname, Reader.bind_done hdone]
    rfl

theorem follows_readRecord (depth : Nat) :
    Follows (Reader.foldMembers Json.Quotation.quoted (Json.gatherMember depth) [])
      (readRecord depth) fun members =>
        (members.reverse.foldlM Tagged.advance ⟨none, []⟩).bind Tagged.content? := by
  refine (Follows.foldMembers (follows_step depth) ⟨none, []⟩).bind ?_
  intro tagged input
  rw [Tagged.content?]
  cases tagged.kind? with
  | some kind => rfl
  | none => exact Reader.Fails.refuse _ input

theorem follows_readList (depth : Nat) :
    Follows (Reader.foldItems (Json.gatherItem depth) []) (readList depth) fun items =>
      (items.reverse.foldlM advanceItem (none, [])).bind itemsContent? := by
  refine (Follows.foldItems ?_ (none, [])).bind ?_
  · rintro ⟨kind?, items⟩
    cases kind? with
    | none => exact (follows_readTag depth).map fun kind => (some kind, items)
    | some kind =>
        intro input document rest hdone
        refine (Reader.bind_done hdone).trans ?_
        rfl
  · rintro ⟨kind?, items⟩ input
    cases kind? with
    | some kind => rfl
    | none => exact Reader.Fails.refuse _ input

theorem follows_readTagged (depth : Nat) :
    Follows (Value.read depth) (readTagged depth) tagged? := by
  intro input document rest hdone
  have hbegins := Value.begins_of_read hdone
  generalize hinput : input.dropWhile Reader.isBlank = unread at hbegins
  cases hbegins with
  | @scalar octet inside document hscalar _ hlist hrecord =>
      have hnone : tagged? document = none := by
        cases document with
        | null | boolean | number => rfl
        | text | list | record => exact hscalar.elim
      rw [readTagged, Json.Shape.byFirst_of_cons hinput, if_neg hrecord, if_neg hlist, hnone]
      exact Reader.Fails.unexpected _ _
  | text hquoted =>
      rw [readTagged, Json.Shape.byFirst_of_cons hinput, if_neg (by decide), if_neg (by decide)]
      exact Reader.Fails.unexpected _ _
  | @list inside below items hdepth hitems =>
      subst hdepth
      rw [readTagged, Json.Shape.byFirst_of_cons hinput, if_neg (by decide), if_pos rfl,
        Reader.nested]
      have hmeans := (follows_readList below).inList _ _ _ hitems
      rwa [List.reverse_reverse] at hmeans
  | @record inside below members hdepth hmembers =>
      subst hdepth
      rw [readTagged, Json.Shape.byFirst_of_cons hinput, if_pos rfl, Reader.nested]
      have hmeans := (follows_readRecord below).inRecord _ _ _ hmembers
      rwa [List.reverse_reverse] at hmeans

theorem follows_read (depth : Nat) : Follows (Value.read depth) (read depth) ofDocument? := by
  refine (follows_readTagged depth).bind ?_
  rintro ⟨kind, content⟩ input
  change (Json.Shape.checked (ofContent kind content) input).Means _ input
  cases ofContent kind content with
  | ok event => rfl
  | error mismatch => exact Reader.Fails.refuse _ input

theorem toOption_decode {payload : String} {document : Value}
    (hspells : Json.Spells payload document) :
    (decode payload).toOption = ofDocument? document := by
  have hmeans := (follows_read Json.nestingLimit).whole _ _ _ hspells
  rw [decode]
  cases hdocument : ofDocument? document with
  | some event =>
      rw [hdocument] at hmeans
      have hread : Reader.whole (read Json.nestingLimit) (Text.octets payload) = .done event [] :=
        hmeans
      rw [hread]
      rfl
  | none =>
      rw [hdocument] at hmeans
      obtain ⟨fault, left, hfault⟩ := hmeans
      rw [hfault]
      rfl

end Event

end Herald
