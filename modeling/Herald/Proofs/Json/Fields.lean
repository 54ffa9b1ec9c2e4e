import Herald.Proofs.Json.Spans

/-!
What a record of known fields gives, from its members alone. Each member changes the draft by what
its value means, a repeated field spoils the record, and a field that is required occurs exactly once.
-/

namespace Herald.Json.Slot

open Text (ascii)

variable {α β δ : Type} {slots : List (Slot α)} {other : String → Reader (α → α)}
  {progress final : Progress α} {found : List (String × Span)}

def isField (slots : List (Slot α)) (name : String) : Bool :=
  (slots.find? (·.name = name)).isSome

/-- What reads the value of a member. -/
def reader (slots : List (Slot α)) (other : String → Reader (α → α)) (name : String) :
    Reader (α → α) :=
  match slots.find? (·.name = name) with
  | some slot => slot.read
  | none => other name

/-- Takes one more member into account. -/
def advance (slots : List (Slot α)) (other : String → Reader (α → α)) (progress : Progress α)
    (member : String × Span) : Option (Progress α) :=
  if isField slots member.1 && progress.seen.contains member.1 then none
  else (member.2.meaning (reader slots other member.1)).map fun change =>
    ⟨change progress.draft,
      if isField slots member.1 then member.1 :: progress.seen else progress.seen⟩

def completed (slots : List (Slot α)) (progress : Progress α) : Option α :=
  match slots.find? fun slot => slot.isRequired && !progress.seen.contains slot.name with
  | some _ => none
  | none => some progress.draft

/-- What the members make of the draft. -/
def result (slots : List (Slot α)) (other : String → Reader (α → α)) (draft : α)
    (found : List (String × Span)) : Option α :=
  (found.foldlM (advance slots other) ⟨draft, []⟩).bind (completed slots)

theorem tracks_reader {leader : Reader β} (hslots : ∀ slot ∈ slots, Tracks leader slot.read)
    (hother : ∀ name, Tracks leader (other name)) (name : String) :
    Tracks leader (reader slots other name) := by
  rw [reader]
  cases hslot : slots.find? (·.name = name) with
  | some slot => exact hslots slot (List.mem_of_find?_eq_some hslot)
  | none => exact hother name

theorem means_member {leader : Reader β} {read : Reader α} {name : String} {span : Span}
    {input rest : List UInt8}
    (hmember : Reader.member name (Reader.spanned leader) input = .done span rest)
    (hfits : span.Fits read) :
    (Reader.member name read input).Means (span.meaning read) rest := by
  obtain ⟨_, between, hcolon, hspan⟩ := Reader.bind_eq_done (Reader.under_eq_done hmember)
  obtain ⟨rfl, -⟩ := Reader.spanned_eq_done_iff.mp hspan
  have hmeans : ((do
      Reader.colon
      read : Reader α) input).Means (Span.meaning read ⟨between, rest⟩) rest := by
    rw [Reader.bind_done hcolon]
    exact hfits
  exact hmeans.mapFault _

theorem means_step {leader : Reader β} {member : String × Span} {input rest : List UInt8}
    (hmember : Reader.member member.1 (Reader.spanned leader) input = .done member.2 rest)
    (hfits : member.2.Fits (reader slots other member.1)) :
    (step slots other progress member.1 input).Means (advance slots other progress member)
      rest := by
  rw [step, advance, isField]
  rw [reader] at hfits ⊢
  cases hslot : slots.find? (·.name = member.1) with
  | none =>
      rw [hslot] at hfits
      have hmeans := means_member hmember (hfits.map fun change =>
        ({ progress with draft := change progress.draft } : Progress α))
      rwa [Span.meaning_map] at hmeans
  | some slot =>
      rw [hslot] at hfits
      dsimp only [Option.isSome_some, Bool.true_and]
      cases progress.seen.contains member.1 with
      | true => exact Reader.Fails.refuse _ input
      | false =>
          have hmeans := means_member hmember (hfits.map fun change =>
            (⟨change progress.draft, member.1 :: progress.seen⟩ : Progress α))
          rwa [Span.meaning_map] at hmeans

/-- What is read from the inside of a record, if the readers end where the values do. -/
theorem means_members {leader : Reader β} {inside left : List UInt8}
    (hfound : Reader.foldMembers Quotation.quoted (gather (Reader.spanned leader)) [] inside =
      .done found.reverse left)
    (hfits : ∀ member ∈ found, member.2.Fits (reader slots other member.1)) (draft : α) :
    (members slots other draft inside).Means (result slots other draft found) left := by
  obtain ⟨gathered, hgathered, -, hmeans⟩ :=
    means_loop_gather (step slots other) (advance slots other) hfound
  rw [List.append_nil, List.reverse_inj] at hgathered
  subst hgathered
  refine Outcome.Means.bind (hmeans ?_ ⟨draft, []⟩) ?_
  · intro member hmem progress input rest hmember
    exact means_step hmember (hfits member hmem)
  · intro progress _
    rw [complete, completed]
    cases slots.find? fun slot => slot.isRequired && !progress.seen.contains slot.name with
    | none => rfl
    | some slot => exact Reader.Fails.refuse _ left

theorem tracks_step {leader : Reader β}
    (htracks : ∀ name, Tracks leader (reader slots other name)) (progress : Progress α)
    (name : String) : Tracks (Reader.member name leader) (step slots other progress name) := by
  have hname := htracks name
  rw [reader] at hname
  rw [step]
  cases hslot : slots.find? (·.name = name) with
  | none =>
      rw [hslot] at hname
      exact (hname.map fun change =>
        ({ progress with draft := change progress.draft } : Progress α)).member name
  | some slot =>
      rw [hslot] at hname
      dsimp only
      split
      · exact (Reader.Fails.refuse _).tracks
      · exact (hname.map fun change =>
          (⟨change progress.draft, name :: progress.seen⟩ : Progress α)).member name

theorem tracks_members {leader : Reader β}
    (htracks : ∀ name, Tracks leader (reader slots other name)) (draft : α) :
    Tracks (Reader.foldMembers Quotation.quoted (gather leader) [])
      (members slots other draft) := by
  refine (Tracks.foldGathered (tracks_step htracks) ⟨draft, []⟩).bind fun progress => ?_
  rw [complete]
  cases slots.find? fun slot => slot.isRequired && !progress.seen.contains slot.name with
  | none => exact .pure _
  | some slot => exact (Reader.Fails.refuse _).idle

/-- What is read from the inside of a record is the result of its members. -/
theorem members_eq_done_iff {leader : Reader β}
    (htracks : ∀ name, Tracks leader (reader slots other name)) {draft made : α}
    {inside left : List UInt8} :
    members slots other draft inside = .done made left ↔
      ∃ found, Reader.foldMembers Quotation.quoted (gather (Reader.spanned leader)) [] inside =
        .done found.reverse left ∧ result slots other draft found = some made := by
  have hmeans {found : List (String × Span)}
      (hfound : Reader.foldMembers Quotation.quoted (gather (Reader.spanned leader)) [] inside =
        .done found.reverse left) :
      (members slots other draft inside).Means (result slots other draft found) left := by
    refine means_members hfound (fun member hmem => ?_) draft
    obtain ⟨passed, hpassed⟩ := passes_of_gathered hfound member hmem
    exact (htracks member.1).fits hpassed
  constructor
  · intro hdone
    obtain ⟨gathered, hgathered⟩ :=
      tracks_members (fun name => (htracks name).spanned) draft inside made left hdone
    rw [← gathered.reverse_reverse] at hgathered
    refine ⟨gathered.reverse, hgathered, ?_⟩
    have hmade := hmeans hgathered
    rw [hdone] at hmade
    cases hresult : result slots other draft gathered.reverse with
    | none =>
        rw [hresult] at hmade
        obtain ⟨fault, stopped, hfault⟩ := hmade
        cases hfault
    | some result =>
        rw [hresult] at hmade
        cases hmade
        rfl
  · rintro ⟨found, hfound, hresult⟩
    have hmade := hmeans hfound
    rwa [hresult] at hmade

/-! What a fold over the members keeps and makes. -/

theorem advance_eq_some_iff {member : String × Span} :
    advance slots other progress member = some final ↔
      ¬(isField slots member.1 = true ∧ member.1 ∈ progress.seen) ∧
        ∃ change, member.2.meaning (reader slots other member.1) = some change ∧
          ⟨change progress.draft,
            if isField slots member.1 then member.1 :: progress.seen else progress.seen⟩ =
              final := by
  rw [advance]
  split
  case isTrue hrepeated =>
    simp only [Bool.and_eq_true, List.contains_iff_mem] at hrepeated
    simp [hrepeated]
  case isFalse hfresh =>
    simp only [Bool.and_eq_true, List.contains_iff_mem] at hfresh
    simp [hfresh]

/-- Members of other names leave the view of the draft as it is. -/
def Keeps (slots : List (Slot α)) (other : String → Reader (α → α)) (name : String)
    (view : α → δ) : Prop :=
  ∀ another, another ≠ name → ∀ (span : Span) change,
    span.meaning (reader slots other another) = some change →
      ∀ draft, view (change draft) = view draft

variable {name : String} {view : α → δ}

theorem keeps_of_slots
    (hslots : ∀ slot ∈ slots, slot.name ≠ name → ∀ (span : Span) change,
      span.meaning slot.read = some change → ∀ draft, view (change draft) = view draft)
    (hother : ∀ another (span : Span) change,
      span.meaning (other another) = some change → ∀ draft, view (change draft) = view draft) :
    Keeps slots other name view := by
  intro another hanother span change hchange
  rw [reader] at hchange
  cases hslot : slots.find? (·.name = another) with
  | some slot =>
      rw [hslot] at hchange
      have hname : slot.name = another := by simpa using List.find?_some hslot
      refine hslots slot (List.mem_of_find?_eq_some hslot) ?_ span change hchange
      rwa [hname]
  | none =>
      rw [hslot] at hchange
      exact hother another span change hchange

/-- A field changes the draft by writing the value that is read. -/
theorem meaning_required {read : Reader β} {write : β → α → α} {span : Span} :
    span.meaning (required name read write).read = (span.meaning read).map write :=
  Span.meaning_map write

theorem exists_write_of_meaning {read : Reader β} {write : β → α → α} {span : Span}
    {change : α → α} (hchange : span.meaning (required name read write).read = some change) :
    ∃ value, span.meaning read = some value ∧ write value = change := by
  rw [meaning_required] at hchange
  exact Option.map_eq_some_iff.mp hchange

theorem eq_id_of_meaning_pass {span : Span} {change : α → α}
    (hchange : span.meaning (pass name) = some change) : change = id := by
  have hmap : span.meaning (pass name) = (span.meaning Skip.value).map fun _ => id :=
    Span.meaning_map fun _ => (id : α → α)
  rw [hmap] at hchange
  obtain ⟨_, -, hsame⟩ := Option.map_eq_some_iff.mp hchange
  exact hsame.symm

theorem tracks_pass (name : String) : Tracks Skip.value (pass name : Reader (α → α)) :=
  (Tracks.refl Skip.value).map fun _ => id

/-- A field that has been seen does not occur again, and its view stays. -/
theorem filter_of_seen (hfield : isField slots name = true) (hkeeps : Keeps slots other name view)
    (hseen : name ∈ progress.seen)
    (hfold : found.foldlM (advance slots other) progress = some final) :
    found.filter (·.1 = name) = [] ∧ view final.draft = view progress.draft := by
  induction found generalizing progress with
  | nil =>
      cases hfold
      exact ⟨rfl, rfl⟩
  | cons member found ih =>
      obtain ⟨next, hnext, hfold⟩ := Option.bind_eq_some_iff.mp hfold
      obtain ⟨hfresh, change, hchange, rfl⟩ := advance_eq_some_iff.mp hnext
      have hname : member.1 ≠ name := by
        rintro rfl
        exact hfresh ⟨hfield, hseen⟩
      have hstill : name ∈ if isField slots member.1 then member.1 :: progress.seen
          else progress.seen := by
        split
        · exact List.mem_cons_of_mem _ hseen
        · exact hseen
      obtain ⟨hfilter, hview⟩ := ih hstill hfold
      refine ⟨?_, hview.trans (hkeeps member.1 hname member.2 change hchange _)⟩
      rwa [List.filter_cons_of_neg (by simpa using hname)]

/-- A field that is seen in the end occurs once, and its view is what that member made it. -/
theorem filter_of_seen_after {slot : Slot α} (hslot : slots.find? (·.name = name) = some slot)
    (hkeeps : Keeps slots other name view) (hunseen : name ∉ progress.seen)
    (hseen : name ∈ final.seen)
    (hfold : found.foldlM (advance slots other) progress = some final) :
    ∃ span change before, found.filter (·.1 = name) = [(name, span)] ∧
      span.meaning slot.read = some change ∧ view final.draft = view (change before) := by
  have hfield : isField slots name = true := by
    rw [isField, hslot]
    rfl
  induction found generalizing progress with
  | nil =>
      cases hfold
      exact absurd hseen hunseen
  | cons member found ih =>
      obtain ⟨next, hnext, hfold⟩ := Option.bind_eq_some_iff.mp hfold
      obtain ⟨-, change, hchange, rfl⟩ := advance_eq_some_iff.mp hnext
      by_cases hname : member.1 = name
      · obtain ⟨_, span⟩ := member
        subst hname
        rw [if_pos hfield] at hfold
        obtain ⟨hfilter, hview⟩ := filter_of_seen hfield hkeeps List.mem_cons_self hfold
        rw [reader, hslot] at hchange
        refine ⟨span, change, progress.draft, ?_, hchange, hview⟩
        rw [List.filter_cons_of_pos (by simp), hfilter]
      · have hstill : name ∉ if isField slots member.1 then member.1 :: progress.seen
            else progress.seen := by
          split
          · exact List.not_mem_cons_of_ne_of_not_mem (Ne.symm hname) hunseen
          · exact hunseen
        obtain ⟨span, made, before, hfilter, hmade, hview⟩ := ih hstill hfold
        refine ⟨span, made, before, ?_, hmade, hview⟩
        rwa [List.filter_cons_of_neg (by simpa using hname)]

variable {draft made : α}

theorem exists_fold_of_result (hresult : result slots other draft found = some made) :
    ∃ final, found.foldlM (advance slots other) ⟨draft, []⟩ = some final ∧ final.draft = made ∧
      ∀ slot ∈ slots, slot.isRequired = true → slot.name ∈ final.seen := by
  obtain ⟨final, hfold, hcompleted⟩ := Option.bind_eq_some_iff.mp hresult
  rw [completed] at hcompleted
  cases hmissing : slots.find? fun slot => slot.isRequired && !final.seen.contains slot.name with
  | some slot =>
      rw [hmissing] at hcompleted
      cases hcompleted
  | none =>
      rw [hmissing] at hcompleted
      refine ⟨final, hfold, Option.some.inj hcompleted, fun slot hmem hrequired => ?_⟩
      have hpresent := List.find?_eq_none.mp hmissing slot hmem
      simpa [hrequired] using hpresent

/-- A required field occurs exactly once, and its view is what that member made it. -/
theorem filter_of_required {slot : Slot α} (hslot : slots.find? (·.name = name) = some slot)
    (hrequired : slot.isRequired = true) (hkeeps : Keeps slots other name view)
    (hresult : result slots other draft found = some made) :
    ∃ span change before, found.filter (·.1 = name) = [(name, span)] ∧
      span.meaning slot.read = some change ∧ view made = view (change before) := by
  obtain ⟨final, hfold, rfl, hseen⟩ := exists_fold_of_result hresult
  have hname : slot.name = name := by simpa using List.find?_some hslot
  have hmem := hseen slot (List.mem_of_find?_eq_some hslot) hrequired
  rw [hname] at hmem
  exact filter_of_seen_after hslot hkeeps List.not_mem_nil hmem hfold

/-- What every member keeps holds of the result. -/
theorem of_result {P : α → Prop} (hdraft : P draft)
    (hkept : ∀ member ∈ found, ∀ change,
      member.2.meaning (reader slots other member.1) = some change →
        ∀ draft, P draft → P (change draft))
    (hresult : result slots other draft found = some made) : P made := by
  obtain ⟨final, hfold, rfl, -⟩ := exists_fold_of_result hresult
  clear hresult
  have hprogress : P (⟨draft, []⟩ : Progress α).draft := hdraft
  revert hprogress hfold
  generalize (⟨draft, []⟩ : Progress α) = progress
  intro hfold hprogress
  induction found generalizing progress with
  | nil =>
      cases hfold
      exact hprogress
  | cons member found ih =>
      rw [List.forall_mem_cons] at hkept
      obtain ⟨next, hnext, hfold⟩ := Option.bind_eq_some_iff.mp hfold
      obtain ⟨-, change, hchange, rfl⟩ := advance_eq_some_iff.mp hnext
      exact ih hkept.2 _ hfold (hkept.1 change hchange _ hprogress)

theorem exists_foldlM_advance (hnodup : (found.map (·.1)).Nodup)
    (hunseen : ∀ member ∈ found, member.1 ∉ progress.seen)
    (hmeaning : ∀ member ∈ found, (member.2.meaning (reader slots other member.1)).isSome = true) :
    ∃ final, found.foldlM (advance slots other) progress = some final ∧
      ∀ name, isField slots name = true → name ∈ found.map (·.1) ∨ name ∈ progress.seen →
        name ∈ final.seen := by
  induction found generalizing progress with
  | nil => exact ⟨progress, rfl, fun name _ hname => hname.resolve_left List.not_mem_nil⟩
  | cons member found ih =>
      rw [List.forall_mem_cons] at hunseen hmeaning
      rw [List.map_cons, List.nodup_cons] at hnodup
      obtain ⟨change, hchange⟩ := Option.isSome_iff_exists.mp hmeaning.1
      obtain ⟨next, hnext, hseenNext⟩ : ∃ next, advance slots other progress member = some next ∧
          next.seen = if isField slots member.1 then member.1 :: progress.seen else progress.seen :=
        ⟨_, advance_eq_some_iff.mpr
          ⟨fun hrepeated => hunseen.1 hrepeated.2, change, hchange, rfl⟩, rfl⟩
      have hfresh : ∀ another ∈ found, another.1 ∉ next.seen := by
        intro another hanother
        rw [hseenNext]
        split
        · have hother : another.1 ≠ member.1 := by
            intro hsame
            exact hnodup.1 (hsame ▸ List.mem_map_of_mem hanother)
          exact List.not_mem_cons_of_ne_of_not_mem hother (hunseen.2 another hanother)
        · exact hunseen.2 another hanother
      obtain ⟨final, hfold, hseen⟩ := ih hnodup.2 hfresh hmeaning.2
      refine ⟨final, ?_, fun name hfield hname => hseen name hfield ?_⟩
      · rw [List.foldlM_cons, hnext]
        exact hfold
      · rw [hseenNext]
        rw [List.map_cons, List.mem_cons] at hname
        obtain (rfl | hname) | hname := hname
        · rw [if_pos hfield]
          exact .inr List.mem_cons_self
        · exact .inl hname
        · refine .inr ?_
          split
          · exact List.mem_cons_of_mem _ hname
          · exact hname

/-- Members of different names that all mean something make something of the draft. -/
theorem exists_result (hnodup : (found.map (·.1)).Nodup)
    (hmeaning : ∀ member ∈ found, (member.2.meaning (reader slots other member.1)).isSome = true)
    (hrequired : ∀ slot ∈ slots, slot.isRequired = true → slot.name ∈ found.map (·.1)) (draft : α) :
    ∃ made, result slots other draft found = some made := by
  have hunseen : ∀ member ∈ found, member.1 ∉ (⟨draft, []⟩ : Progress α).seen :=
    fun _ _ => List.not_mem_nil
  obtain ⟨final, hfold, hseen⟩ := exists_foldlM_advance hnodup hunseen hmeaning
  refine ⟨final.draft, ?_⟩
  have hcomplete : slots.find? (fun slot => slot.isRequired && !final.seen.contains slot.name) =
      none := by
    apply List.find?_eq_none.mpr
    intro slot hslot hmissing
    rw [Bool.and_eq_true] at hmissing
    have hfield : isField slots slot.name = true := by
      rw [isField, List.find?_isSome]
      exact ⟨slot, hslot, by simp⟩
    have hmem := hseen slot.name hfield (.inl (hrequired slot hslot hmissing.1))
    simp [hmem] at hmissing
  rw [result, hfold, Option.bind_some, completed, hcomplete]

/-! Fields in a list. -/

theorem items_cons_eq_done_iff {elements : String} {index : Nat} {slot : Slot α}
    {input rest : List UInt8} :
    items elements index draft (slot :: slots) input = .done made rest ↔
      ∃ start change behind, Reader.nextItem (index = 0) input = .done true start ∧
        slot.read start = .done change behind ∧
        items elements (index + 1) (change draft) slots behind = .done made rest := by
  constructor
  · intro hdone
    obtain ⟨more, start, hmore, hdone⟩ := Reader.bind_eq_done hdone
    cases more with
    | false => exact absurd hdone (Reader.Fails.refuse _).ne_done
    | true =>
        obtain ⟨change, behind, hchange, hdone⟩ := Reader.bind_eq_done hdone
        exact ⟨start, change, behind, hmore, Reader.under_eq_done hchange, hdone⟩
  · rintro ⟨start, change, behind, hmore, hchange, hdone⟩
    rw [items, Reader.bind_done hmore, if_pos rfl, Reader.bind_done (Reader.under_done hchange _)]
    exact hdone

end Herald.Json.Slot
