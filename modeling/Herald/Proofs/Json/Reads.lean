import Herald.Json.Document
import Herald.Json.Pointer
import Herald.Json.Shape
import Herald.Proofs.Json.Quotation

/-!
What readers take off the front of a text. A reader reads a printed value if it gives that value and
leaves what follows untouched, whatever that is. Printed records are read member by member.
-/

namespace Herald.Json

open Text (ascii octets)

variable {α β : Type}

namespace Reader

theorem bind_done {reader : Reader α} {next : α → Reader β} {input rest : List UInt8} {value : α}
    (hdone : reader input = .done value rest) : (reader >>= next) input = next value rest := by
  change Reader.bind reader next input = _
  rw [Reader.bind, hdone]

theorem under_done {reader : Reader α} {input rest : List UInt8} {value : α}
    (hdone : reader input = .done value rest) (segment : Segment) :
    under segment reader input = .done value rest := by
  rw [under, hdone]
  rfl

end Reader

/-- The reader takes exactly the text off any input that starts with it. -/
def Reads (reader : Reader α) (text : String) (value : α) : Prop :=
  ∀ rest, reader (octets text ++ rest) = .done value rest

namespace Reads

theorem bind {reader : Reader α} {next : α → Reader β} {front back : String} {value : α}
    {result : β} (hfront : Reads reader front value) (hback : Reads (next value) back result) :
    Reads (reader >>= next) (front ++ back) result := by
  intro rest
  rw [Text.octets_append, List.append_assoc, Reader.bind_done (hfront _)]
  exact hback rest

theorem map {reader : Reader α} {text : String} {value : α} (hreads : Reads reader text value)
    (change : α → β) : Reads (reader >>= fun value => pure (change value)) text (change value) := by
  intro rest
  rw [Reader.bind_done (hreads rest)]
  rfl

theorem under {reader : Reader α} {text : String} {value : α} (hreads : Reads reader text value)
    (segment : Segment) : Reads (Reader.under segment reader) text value :=
  fun rest => Reader.under_done (hreads rest) segment

theorem placed {reader : Reader α} {text : String} {value : α} (hreads : Reads reader text value) :
    Reads (Reader.placed reader) text value := by
  intro rest
  rw [Reader.placed, hreads]

theorem colon : Reads Reader.colon ":" () := fun _ => rfl

theorem member {reader : Reader α} {text : String} {value : α} (hreads : Reads reader text value)
    (name : String) : Reads (Reader.member name reader) (":" ++ text) value :=
  (colon.bind hreads).under (.member name)

theorem quoted (text : String) : Reads Quotation.quoted (Printer.text text) text :=
  Quotation.quoted_print text

end Reads

/-! Values. -/

theorem octets_text (text : String) :
    ∃ inside, octets (Printer.text text) = ascii '"' :: inside := by
  refine ⟨octets (String.ofList (text.toList.flatMap Quotation.escaped) ++ "\""), ?_⟩
  rw [Printer.text, Quotation.print, String.append_assoc, Text.octets_append]
  rfl

theorem reads_text (depth : Nat) (text : String) :
    Reads (Value.read depth) (Printer.text text) (.text text) := by
  intro rest
  obtain ⟨inside, hinside⟩ := octets_text text
  have hdispatch : Value.read depth (octets (Printer.text text) ++ rest) =
      (Quotation.quoted >>= fun text => pure (Value.text text))
        (octets (Printer.text text) ++ rest) := by
    rw [hinside, Value.read.eq_def]
    rfl
  rw [hdispatch]
  exact (Reads.quoted text).map Value.text rest

theorem Reads.textWith {expected text : String} {check : String → Except Mismatch α} {value : α}
    (hcheck : check text = .ok value) :
    Reads (Shape.textWith expected check) (Printer.text text) value := by
  intro rest
  obtain ⟨inside, hinside⟩ := octets_text text
  have hdispatch : Shape.textWith expected check (octets (Printer.text text) ++ rest) =
      Reader.placed (Quotation.quoted >>= fun text => Shape.checked (check text))
        (octets (Printer.text text) ++ rest) := by
    rw [hinside]
    rfl
  rw [hdispatch]
  apply Reads.placed
  intro rest
  rw [Reader.bind_done (Reads.quoted text rest), hcheck]
  rfl

theorem reads_null (depth : Nat) : Reads (Value.read depth) "null" .null := by
  intro rest
  rw [Value.read.eq_def]
  rfl

theorem printMembers_eq_map (members : List (String × Value)) :
    Value.printMembers members = members.map fun member => (member.1, member.2.print) := by
  induction members with
  | nil => rfl
  | cons first members ih =>
      rw [Value.printMembers, ih]
      rfl

/-! Records. -/

/--
The step takes a state through the members of a record, each given by its name and the text of its
value, to a final state.
-/
inductive Folds (step : α → String → Reader α) : α → List (String × String) → α → Prop
  | nil (state : α) : Folds step state [] state
  | cons {state next final : α} {name text : String} {members : List (String × String)}
      (hstep : Reads (step state name) (":" ++ text) next) (hrest : Folds step next members final) :
      Folds step state ((name, text) :: members) final

theorem octets_member (name text : String) :
    ∃ inside, octets (Printer.member name text) = ascii '"' :: inside := by
  obtain ⟨inside, hinside⟩ := octets_text name
  refine ⟨inside ++ octets (":" ++ text), ?_⟩
  rw [Printer.text] at hinside
  rw [Printer.member, String.append_assoc, Text.octets_append, hinside, List.cons_append]

def laterMembers (members : List (String × String)) : List UInt8 :=
  members.flatMap fun member => ascii ',' :: octets (Printer.member member.1 member.2)

theorem laterMembers_cons (first : String × String) (members : List (String × String)) :
    laterMembers (first :: members) =
      ascii ',' :: (octets (Printer.member first.1 first.2) ++ laterMembers members) := rfl

theorem length_le_laterMembers (members : List (String × String)) :
    members.length ≤ (laterMembers members).length := by
  induction members with
  | nil => exact Nat.zero_le _
  | cons first members ih =>
      rw [laterMembers_cons]
      simp only [List.length_append, List.length_cons]
      omega

theorem octets_separated (first : String × String) (members : List (String × String)) :
    octets (Printer.separated ((first :: members).map fun member =>
      Printer.member member.1 member.2)) =
      octets (Printer.member first.1 first.2) ++ laterMembers members := by
  induction members generalizing first with
  | nil =>
      rw [laterMembers, List.flatMap_nil, List.append_nil]
      rfl
  | cons second members ih =>
      have hcomma : octets "," = [ascii ','] := rfl
      rw [laterMembers_cons, ← ih second]
      simp only [List.map_cons, Printer.separated, Text.octets_append, List.append_assoc, hcomma,
        List.singleton_append]

namespace Folds

variable {step : α → String → Reader α}

theorem loop_cons {state next : α} {name text : String} {first : Bool} {input rest : List UInt8}
    (hkey : Reader.nextKey first input = .done true (octets (Printer.member name text) ++ rest))
    (hstep : Reads (step state name) (":" ++ text) next) (unit : UInt8) (fuel : List UInt8) :
    Reader.foldMembers.loop Quotation.quoted step (unit :: fuel) first state input =
      Reader.foldMembers.loop Quotation.quoted step fuel false next rest := by
  have hname : Reader.under .unknown Quotation.quoted (octets (Printer.member name text) ++ rest) =
      .done name (octets (":" ++ text) ++ rest) := by
    rw [Printer.member, String.append_assoc, Text.octets_append, List.append_assoc]
    exact (Reads.quoted name).under .unknown _
  rw [Reader.foldMembers.loop, Reader.bind_done (Reader.under_done hkey .unknown), if_pos rfl,
    Reader.bind_done hname, Reader.bind_done (hstep rest)]

theorem loop_close {first : Bool} (state : α) (unit : UInt8) (fuel rest : List UInt8) :
    Reader.foldMembers.loop Quotation.quoted step (unit :: fuel) first state
      (ascii '\x7d' :: rest) = .done state (ascii '\x7d' :: rest) := rfl

theorem nextKey_later {name text : String} (rest : List UInt8) :
    Reader.nextKey false (ascii ',' :: (octets (Printer.member name text) ++ rest)) =
      .done true (octets (Printer.member name text) ++ rest) := by
  obtain ⟨inside, hinside⟩ := octets_member name text
  rw [hinside]
  rfl

theorem nextKey_first {name text : String} (rest : List UInt8) :
    Reader.nextKey true (octets (Printer.member name text) ++ rest) =
      .done true (octets (Printer.member name text) ++ rest) := by
  obtain ⟨inside, hinside⟩ := octets_member name text
  rw [hinside]
  rfl

theorem loop_later {state final : α} {members : List (String × String)}
    (hfolds : Folds step state members final) {fuel : List UInt8}
    (hfuel : members.length < fuel.length) (rest : List UInt8) :
    Reader.foldMembers.loop Quotation.quoted step fuel false state
      (laterMembers members ++ ascii '\x7d' :: rest) = .done final (ascii '\x7d' :: rest) := by
  induction hfolds generalizing fuel with
  | nil state =>
      cases fuel with
      | nil => exact absurd hfuel (Nat.not_lt_zero _)
      | cons unit fuel => exact loop_close state unit fuel rest
  | cons hstep _ ih =>
      cases fuel with
      | nil => exact absurd hfuel (Nat.not_lt_zero _)
      | cons unit fuel =>
          rw [laterMembers_cons, List.cons_append, List.append_assoc,
            loop_cons (nextKey_later _) hstep]
          exact ih (Nat.lt_of_succ_lt_succ hfuel)

/-- A step that reads each item on its own gathers all of them in order. -/
theorem of_items {ι : Type} {write : ι → String × String} {gather : α → ι → α} {items : List ι}
    (hstep : ∀ item ∈ items, ∀ state,
      Reads (step state (write item).1) (":" ++ (write item).2) (gather state item))
    (state : α) : Folds step state (items.map write) (items.foldl gather state) := by
  induction items generalizing state with
  | nil => exact nil state
  | cons item items ih =>
      rw [List.map_cons, List.foldl_cons]
      exact cons (hstep item List.mem_cons_self state)
        (ih (fun other hother => hstep other (List.mem_cons_of_mem _ hother)) _)

theorem foldMembers_record {state final : α} {members : List (String × String)}
    (hfolds : Folds step state members final) (rest : List UInt8) :
    Reader.foldMembers Quotation.quoted step state
      (octets (Printer.separated (members.map fun member =>
        Printer.member member.1 member.2)) ++ ascii '\x7d' :: rest) =
      .done final (ascii '\x7d' :: rest) := by
  rw [Reader.foldMembers]
  cases hfolds with
  | nil => exact loop_close ..
  | @cons _ next _ name text members hstep hrest =>
      rw [octets_separated (name, text) members, List.append_assoc,
        loop_cons (nextKey_first _) hstep]
      apply loop_later hrest
      have := length_le_laterMembers members
      simp only [List.length_append, List.length_cons]
      omega

end Folds

theorem inRecord_cons (inside : Reader α) (octet : UInt8) (input : List UInt8) :
    Reader.inRecord inside (octet :: input) =
      Reader.enclosed inside Reader.closeRecord input := rfl

theorem reads_inRecord {inside : Reader α} {members : List (String × String)} {value : α}
    (hinside : ∀ rest, inside (octets (Printer.separated (members.map fun member =>
      Printer.member member.1 member.2)) ++ ascii '\x7d' :: rest) =
      .done value (ascii '\x7d' :: rest)) :
    Reads (Reader.inRecord inside) (Printer.record members) value := by
  intro rest
  have hoctets : octets (Printer.record members) ++ rest =
      ascii '\x7b' :: (octets (Printer.separated (members.map fun member =>
        Printer.member member.1 member.2)) ++ ascii '\x7d' :: rest) := by
    simp only [Printer.record, Text.octets_append, List.append_assoc]
    rfl
  rw [hoctets, inRecord_cons, Reader.enclosed, hinside]
  rfl

theorem reads_record {depth : Nat} {members : List (String × Value)}
    (hread : ∀ member ∈ members, Reads (Value.read depth) member.2.print member.2) :
    Reads (Value.read (depth + 1)) (Value.record members).print (.record members) := by
  have hfolds : Folds (fun members key => do
      let value ← Reader.member key (Value.read depth)
      pure ((key, value) :: members)) [] (members.map fun member => (member.1, member.2.print))
      (members.foldl (fun found member => member :: found) []) := by
    apply Folds.of_items
    intro member hmem state
    exact ((hread member hmem).member member.1).map fun value => (member.1, value) :: state
  rw [List.foldl_flip_cons_eq_append', List.append_nil] at hfolds
  intro rest
  have hdispatch : Value.read (depth + 1) (octets (Value.record members).print ++ rest) =
      ((Reader.inRecord (Reader.foldMembers Quotation.quoted (fun members key => do
        let value ← Reader.member key (Value.read depth)
        pure ((key, value) :: members)) [])) >>= fun members => pure (Value.record members.reverse))
        (octets (Value.record members).print ++ rest) := by
    rw [Value.print, Printer.record, Text.octets_append, Text.octets_append, Value.read.eq_def]
    rfl
  rw [hdispatch, Value.print, printMembers_eq_map]
  have := (reads_inRecord hfolds.foldMembers_record).map (fun members => Value.record members.reverse) rest
  rwa [List.reverse_reverse] at this

end Herald.Json
