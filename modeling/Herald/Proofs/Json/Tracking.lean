import Herald.Proofs.Json.Agreement

/-!
Readers that give nothing where another reader fails. Together with following that reader, this says
exactly what they give: what a value means that the other one reads from the same octets.
-/

namespace Herald.Json

open Text (ascii)

variable {α β γ : Type} {depth : Nat}

/-- Wherever the reader gives anything, the leader gives a value and leaves the same octets unread. -/
def Tracks (leader : Reader β) (reader : Reader α) : Prop :=
  ∀ input result rest, reader input = .done result rest → ∃ value, leader input = .done value rest

/-- The reader takes up nothing. -/
def Reader.Idle (reader : Reader α) : Prop :=
  ∀ input result rest, reader input = .done result rest → rest = input

theorem Reader.Idle.pure (value : α) : Idle (Pure.pure value : Reader α) := by
  intro input result rest hdone
  cases hdone
  rfl

theorem Reader.Fails.ne_done {reader : Reader α} (hfails : Fails reader) {input rest : List UInt8}
    {result : α} : reader input ≠ .done result rest := by
  intro hdone
  obtain ⟨fault, left, hfault⟩ := hfails input
  cases hfault.symm.trans hdone

theorem Reader.Fails.idle {reader : Reader α} (hfails : Fails reader) : Idle reader :=
  fun _ _ _ hdone => absurd hdone hfails.ne_done

theorem Reader.Fails.tracks {leader : Reader β} {reader : Reader α} (hfails : Fails reader) :
    Tracks leader reader :=
  fun _ _ _ hdone => absurd hdone hfails.ne_done

theorem Reader.placed_eq_done {reader : Reader α} {input rest : List UInt8} {result : α}
    (hdone : placed reader input = .done result rest) : reader input = .done result rest := by
  rw [placed] at hdone
  cases hreader : reader input with
  | done value left =>
      rw [hreader] at hdone
      exact hdone
  | fault problem left =>
      rw [hreader] at hdone
      cases hdone

theorem Shape.idle_checked (result : Except Mismatch α) : Reader.Idle (checked result) := by
  cases result with
  | ok value => exact .pure value
  | error mismatch => exact (Reader.Fails.refuse mismatch).idle

namespace Tracks

variable {leader : Reader β} {reader : Reader α}

theorem refl (reader : Reader α) : Tracks reader reader :=
  fun _ result _ hdone => ⟨result, hdone⟩

theorem bind_left {leader : γ → Reader β} {reader : γ → Reader α}
    (htracks : ∀ value, Tracks (leader value) (reader value)) (front : Reader γ) :
    Tracks (front >>= leader) (front >>= reader) := by
  intro input result rest hdone
  obtain ⟨found, between, hfront, hreader⟩ := Reader.bind_eq_done hdone
  rw [Reader.bind_done hfront]
  exact htracks found between result rest hreader

theorem bind {next : α → Reader γ} (htracks : Tracks leader reader)
    (hnext : ∀ value, Reader.Idle (next value)) : Tracks leader (reader >>= next) := by
  intro input result rest hdone
  obtain ⟨found, between, hreader, hafter⟩ := Reader.bind_eq_done hdone
  obtain rfl := hnext found between result rest hafter
  exact htracks input found rest hreader

theorem map (htracks : Tracks leader reader) (change : α → γ) :
    Tracks leader (reader >>= fun value => pure (change value)) :=
  htracks.bind fun value => .pure (change value)

/-- The leader may make something else of its value. -/
theorem map_leader (htracks : Tracks leader reader) (change : β → γ) :
    Tracks (leader >>= fun value => pure (change value)) reader := by
  intro input result rest hdone
  obtain ⟨value, hleader⟩ := htracks input result rest hdone
  exact ⟨change value, Reader.bind_done hleader⟩

theorem under (htracks : Tracks leader reader) (segment : Segment) :
    Tracks (Reader.under segment leader) (Reader.under segment reader) := by
  intro input result rest hdone
  obtain ⟨value, hleader⟩ := htracks input result rest (Reader.under_eq_done hdone)
  exact ⟨value, Reader.under_done hleader segment⟩

theorem member (htracks : Tracks leader reader) (name : String) :
    Tracks (Reader.member name leader) (Reader.member name reader) :=
  (bind_left (fun _ => htracks) Reader.colon).under (.member name)

theorem enclosed (htracks : Tracks leader reader) (close : Reader Unit) :
    Tracks (Reader.enclosed leader close) (Reader.enclosed reader close) := by
  intro input result rest hdone
  rw [Reader.enclosed] at hdone
  cases hreader : reader input with
  | fault problem left =>
      rw [hreader] at hdone
      cases hdone
  | done found between =>
      obtain ⟨value, hleader⟩ := htracks input found between hreader
      simp only [hreader] at hdone
      cases hclose : close between with
      | fault problem left =>
          rw [hclose] at hdone
          cases hdone
      | done closed left =>
          rw [hclose] at hdone
          cases hdone
          refine ⟨value, ?_⟩
          simp only [Reader.enclosed, hleader, hclose]

theorem inList (htracks : Tracks leader reader) :
    Tracks (Reader.inList leader) (Reader.inList reader) :=
  bind_left (fun _ => htracks.enclosed Reader.closeList) Reader.advance

theorem inRecord (htracks : Tracks leader reader) :
    Tracks (Reader.inRecord leader) (Reader.inRecord reader) :=
  bind_left (fun _ => htracks.enclosed Reader.closeRecord) Reader.advance

end Tracks

/-! Folds. -/

/-- Turn by turn, the fold that gathers the members comes as far as any other. -/
theorem gathers_loop_members {leader : Reader γ} {step : α → String → Reader α}
    (hstep : ∀ state name, Tracks (Reader.member name leader) (step state name))
    {fuel input rest : List UInt8} {first : Bool} {state result : α}
    (hdone : Reader.foldMembers.loop Quotation.quoted step fuel first state input =
      .done result rest) (gathered : List (String × γ)) :
    ∃ members, Reader.foldMembers.loop Quotation.quoted (gather leader) fuel first gathered
      input = .done members rest := by
  induction fuel generalizing first state input gathered with
  | nil => cases hdone
  | cons unit fuel ih =>
      rw [Reader.foldMembers.loop] at hdone ⊢
      obtain ⟨more, behindSeparator, hmore, hdone⟩ := Reader.bind_eq_done hdone
      rw [Reader.bind_done hmore]
      cases more with
      | false =>
          cases hdone
          exact ⟨gathered, rfl⟩
      | true =>
          obtain ⟨name, behindName, hname, hdone⟩ := Reader.bind_eq_done hdone
          obtain ⟨later, behindValue, hlater, hdone⟩ := Reader.bind_eq_done hdone
          obtain ⟨value, hvalue⟩ := hstep state name behindName later behindValue hlater
          have hgathered : gather leader gathered name behindName =
              .done ((name, value) :: gathered) behindValue := Reader.bind_done hvalue
          rw [if_pos rfl, Reader.bind_done hname, Reader.bind_done hgathered]
          exact ih hdone _

theorem Tracks.foldGathered {leader : Reader γ} {step : α → String → Reader α}
    (hstep : ∀ state name, Tracks (Reader.member name leader) (step state name)) (state : α) :
    Tracks (Reader.foldMembers Quotation.quoted (gather leader) [])
      (Reader.foldMembers Quotation.quoted step state) :=
  fun _ _ _ hdone => gathers_loop_members hstep hdone []

theorem Tracks.foldMembers {step : α → String → Reader α}
    (hstep : ∀ state name, Tracks (Reader.member name (Value.read depth)) (step state name))
    (state : α) :
    Tracks (Reader.foldMembers Quotation.quoted (gatherMember depth) [])
      (Reader.foldMembers Quotation.quoted step state) :=
  Tracks.foldGathered hstep state

theorem gathers_loop_items {step : α → Reader α}
    (hstep : ∀ state, Tracks (Value.read depth) (step state))
    {fuel input rest : List UInt8} {index : Nat} {state result : α}
    (hdone : Reader.foldItems.loop step fuel index state input = .done result rest)
    (gathered : List Value) :
    ∃ items, Reader.foldItems.loop (gatherItem depth) fuel index gathered input =
      .done items rest := by
  induction fuel generalizing index state input gathered with
  | nil => cases hdone
  | cons unit fuel ih =>
      rw [Reader.foldItems.loop] at hdone ⊢
      obtain ⟨more, behindSeparator, hmore, hdone⟩ := Reader.bind_eq_done hdone
      rw [Reader.bind_done hmore]
      cases more with
      | false =>
          cases hdone
          exact ⟨gathered, rfl⟩
      | true =>
          obtain ⟨later, behindItem, hlater, hdone⟩ := Reader.bind_eq_done hdone
          obtain ⟨item, hitem⟩ :=
            hstep state behindSeparator later behindItem (Reader.under_eq_done hlater)
          have hgathered : gatherItem depth gathered behindSeparator =
              .done (item :: gathered) behindItem := Reader.bind_done hitem
          rw [if_pos rfl, Reader.bind_done (Reader.under_done hgathered _)]
          exact ih hdone _

theorem Tracks.foldItems {step : α → Reader α}
    (hstep : ∀ state, Tracks (Value.read depth) (step state)) (state : α) :
    Tracks (Reader.foldItems (gatherItem depth) []) (Reader.foldItems step state) :=
  fun _ _ _ hdone => gathers_loop_items hstep hdone []

/-! The reader of any value, by its first octet. -/

section FirstOctet

variable {input inside : List UInt8}

theorem Value.read_of_quote (depth : Nat)
    (hinput : input.dropWhile Reader.isBlank = ascii '"' :: inside) :
    Value.read depth input =
      (Quotation.quoted >>= fun text => pure (Value.text text)) (ascii '"' :: inside) := by
  rw [Value.read.eq_def, Reader.bind_done (Reader.peekToken_of_cons hinput)]
  rfl

theorem Value.read_of_listStart (depth : Nat)
    (hinput : input.dropWhile Reader.isBlank = ascii '[' :: inside) :
    Value.read (depth + 1) input =
      (Reader.inList (Reader.foldItems (gatherItem depth) []) >>= fun items =>
        pure (Value.list items.reverse)) (ascii '[' :: inside) := by
  rw [Value.read.eq_def, Reader.bind_done (Reader.peekToken_of_cons hinput)]
  rfl

theorem Value.read_of_recordStart (depth : Nat)
    (hinput : input.dropWhile Reader.isBlank = ascii '\x7b' :: inside) :
    Value.read (depth + 1) input =
      (Reader.inRecord (Reader.foldMembers Quotation.quoted (gatherMember depth) []) >>=
        fun members => pure (Value.record members.reverse)) (ascii '\x7b' :: inside) := by
  rw [Value.read.eq_def, Reader.bind_done (Reader.peekToken_of_cons hinput)]
  rfl

end FirstOctet

/-- A reader that looks at the first octet tracks another one if it does for each such octet. -/
theorem Tracks.byFirst {leader : Reader β} {read : UInt8 → Reader α}
    (hread : ∀ (input inside : List UInt8) (octet : UInt8),
      input.dropWhile Reader.isBlank = octet :: inside → ∀ result rest,
        read octet (octet :: inside) = .done result rest → ∃ value, leader input = .done value rest) :
    Tracks leader (Shape.byFirst read) := by
  intro input result rest hdone
  obtain ⟨octet, inside, hinput, hdone⟩ := Shape.exists_of_byFirst hdone
  exact hread input inside octet hinput result rest hdone

theorem Tracks.textWith (depth : Nat) (expected : String) (check : String → Except Mismatch α) :
    Tracks (Value.read depth) (Shape.textWith expected check) := by
  apply Tracks.byFirst
  intro input inside octet hinput result rest hdone
  split at hdone
  case isTrue hquote =>
    subst hquote
    rw [Value.read_of_quote depth hinput]
    obtain ⟨text, between, hquoted, hchecked⟩ :=
      Reader.bind_eq_done (Reader.placed_eq_done hdone)
    obtain rfl := Shape.idle_checked _ between result rest hchecked
    exact ⟨_, Reader.bind_done hquoted⟩
  case isFalse => exact absurd hdone (Reader.Fails.unexpected expected).ne_done

/-! Readers that follow and track another one. -/

structure Agrees (leader : Reader β) (reader : Reader α) (meaning : β → Option α) : Prop where
  follows : Follows leader reader meaning
  tracks : Tracks leader reader

namespace Agrees

variable {leader : Reader β} {reader : Reader α} {meaning : β → Option α}
  {input rest : List UInt8} {result : α}

theorem eq_done_iff (hagrees : Agrees leader reader meaning) :
    reader input = .done result rest ↔
      ∃ value, leader input = .done value rest ∧ meaning value = some result := by
  constructor
  · intro hdone
    obtain ⟨value, hleader⟩ := hagrees.tracks input result rest hdone
    refine ⟨value, hleader, ?_⟩
    have hmeans := hagrees.follows input value rest hleader
    rw [hdone] at hmeans
    cases hmeaning : meaning value with
    | none =>
        rw [hmeaning] at hmeans
        obtain ⟨fault, left, hfault⟩ := hmeans
        cases hfault
    | some meant =>
        rw [hmeaning] at hmeans
        cases hmeans
        rfl
  · rintro ⟨value, hleader, hmeaning⟩
    have hmeans := hagrees.follows input value rest hleader
    rwa [hmeaning] at hmeans

end Agrees

/-! Lists of values of one shape. -/

def Value.items? : Value → Option (List Value)
  | .list items => some items
  | _ => none

theorem Value.items?_eq_some_iff {value : Value} {items : List Value} :
    value.items? = some items ↔ value = .list items := by
  cases value <;> simp [items?]

theorem map_reverse_foldlM (meaning : Value → Option α) (items : List Value) :
    (items.foldlM (fun values item => (meaning item).map (· :: values)) []).map List.reverse =
      items.mapM meaning := by
  rw [List.mapM_eq_reverse_foldlM_cons]
  simp only [Option.map_eq_map, Option.map_eq_bind]

theorem Agrees.list {item : Reader α} {meaning : Value → Option α}
    (hitem : Agrees (Value.read depth) item meaning) :
    Agrees (Value.read (depth + 1)) (Shape.list item) fun value =>
      value.items?.bind fun items => items.mapM meaning := by
  constructor
  case follows =>
    intro input value rest hdone
    have hbegins := Value.begins_of_read hdone
    generalize hinput : input.dropWhile Reader.isBlank = unread at hbegins
    have hother {octet : UInt8} {inside : List UInt8} (hunread : unread = octet :: inside)
        (hoctet : octet ≠ ascii '[') : (Shape.list item input).Means none rest := by
      rw [Shape.list, Shape.byFirst_of_cons (hinput.trans hunread), if_neg hoctet]
      exact Reader.Fails.unexpected "a sequence" _
    cases hbegins with
    | @scalar octet inside value hscalar _ hlist =>
        cases value with
        | null | boolean | number => exact hother rfl hlist
        | text | list | record => exact hscalar.elim
    | text => exact hother rfl (by decide)
    | record => exact hother rfl (by decide)
    | @list inside below items hdepth hitems =>
        cases hdepth
        rw [Shape.list, Shape.byFirst_of_cons hinput, if_pos rfl]
        have hmeans := (Follows.foldItems (fun values : List α =>
          hitem.follows.map (· :: values)) []).inList.map List.reverse _ _ _ hitems
        dsimp only at hmeans
        rwa [List.reverse_reverse, map_reverse_foldlM] at hmeans
  case tracks =>
    apply Tracks.byFirst
    intro input inside octet hinput result rest hdone
    split at hdone
    case isTrue hlist =>
      subst hlist
      rw [Value.read_of_listStart depth hinput]
      have hitems := (Tracks.foldItems (fun values : List α =>
        hitem.tracks.map (· :: values)) []).inList.map List.reverse
      exact hitems.map_leader _ _ _ _ hdone
    case isFalse => exact absurd hdone (Reader.Fails.unexpected "a sequence").ne_done

end Herald.Json
