import Herald.Proofs.Json.Spans
import Mathlib.Data.List.Forall2

/-!
A printed record consists of the members that were printed. Each value stands before a comma or the
closing bracket, so it need not be told from just any text behind it.
-/

namespace Herald.Json

open Text (ascii octets)

variable {α : Type} {value : Reader α}

/-- What separates the members of a printed record. -/
def IsMark (octet : UInt8) : Prop := octet = ascii ',' ∨ octet = ascii '\x7d'

/-- The reader passes over the text as a value of a record. -/
def Passes (value : Reader α) (text : String) : Prop :=
  ∀ octet rest, IsMark octet →
    ∃ passed, value (octets text ++ octet :: rest) = .done passed (octet :: rest)

/-- The value stands there as that text. -/
def Span.Stands (span : Span) (text : String) : Prop :=
  ∃ octet rest, IsMark octet ∧ span = ⟨octets text ++ octet :: rest, octet :: rest⟩

/-- A printed member and the place that it was found in. -/
def Locates (member : String × String) (found : String × Span) : Prop :=
  found.1 = member.1 ∧ found.2.Stands member.2

theorem loop_gather_cons {name text : String} {first : Bool} {input rest : List UInt8}
    {octet : UInt8} (hoctet : IsMark octet) (hpasses : Passes value text)
    (hkey : Reader.nextKey first input =
      .done true (octets (Printer.member name text) ++ octet :: rest))
    (unit : UInt8) (fuel : List UInt8) (gathered : List (String × Span)) :
    Reader.foldMembers.loop Quotation.quoted (gather (Reader.spanned value)) (unit :: fuel) first
      gathered input =
      Reader.foldMembers.loop Quotation.quoted (gather (Reader.spanned value)) fuel false
        ((name, ⟨octets text ++ octet :: rest, octet :: rest⟩) :: gathered) (octet :: rest) := by
  have hname : Reader.under .unknown Quotation.quoted
      (octets (Printer.member name text) ++ octet :: rest) =
        .done name (octets (":" ++ text) ++ octet :: rest) := by
    rw [Printer.member, String.append_assoc, Text.octets_append, List.append_assoc]
    exact (Reads.quoted name).under .unknown _
  obtain ⟨passed, hpassed⟩ := hpasses octet rest hoctet
  have hspanned : Reader.spanned value (octets text ++ octet :: rest) =
      .done ⟨octets text ++ octet :: rest, octet :: rest⟩ (octet :: rest) :=
    Reader.spanned_eq_done_iff.mpr ⟨rfl, passed, hpassed⟩
  have hmember : Reader.member name (Reader.spanned value)
      (octets (":" ++ text) ++ octet :: rest) =
        .done ⟨octets text ++ octet :: rest, octet :: rest⟩ (octet :: rest) := by
    apply Reader.under_done
    rw [Text.octets_append, List.append_assoc, Reader.bind_done (Reads.colon _)]
    exact hspanned
  have hgather : gather (Reader.spanned value) gathered name
      (octets (":" ++ text) ++ octet :: rest) =
        .done ((name, ⟨octets text ++ octet :: rest, octet :: rest⟩) :: gathered)
          (octet :: rest) := by
    rw [gather, Reader.bind_done hmember]
    rfl
  rw [Reader.foldMembers.loop, Reader.bind_done (Reader.under_done hkey .unknown), if_pos rfl,
    Reader.bind_done hname, Reader.bind_done hgather]

theorem exists_mark (members : List (String × String)) :
    ∃ octet rest, IsMark octet ∧ laterMembers members ++ [ascii '\x7d'] = octet :: rest := by
  cases members with
  | nil => exact ⟨ascii '\x7d', [], .inr rfl, rfl⟩
  | cons first members => exact ⟨ascii ',', _, .inl rfl, rfl⟩

theorem loop_gather_later {members : List (String × String)}
    (hpasses : ∀ member ∈ members, Passes value member.2) {fuel : List UInt8}
    (hfuel : members.length < fuel.length) (gathered : List (String × Span)) :
    ∃ found, List.Forall₂ Locates members found ∧
      Reader.foldMembers.loop Quotation.quoted (gather (Reader.spanned value)) fuel false gathered
        (laterMembers members ++ [ascii '\x7d']) =
          .done (found.reverse ++ gathered) [ascii '\x7d'] := by
  induction members generalizing fuel gathered with
  | nil =>
      cases fuel with
      | nil => exact absurd hfuel (Nat.not_lt_zero _)
      | cons unit fuel => exact ⟨[], .nil, rfl⟩
  | cons member members ih =>
      cases fuel with
      | nil => exact absurd hfuel (Nat.not_lt_zero _)
      | cons unit fuel =>
          obtain ⟨name, text⟩ := member
          rw [List.forall_mem_cons] at hpasses
          obtain ⟨octet, rest, hoctet, hlater⟩ := exists_mark members
          obtain ⟨found, hfound, hloop⟩ := ih hpasses.2 (Nat.lt_of_succ_lt_succ hfuel)
            ((name, ⟨octets text ++ octet :: rest, octet :: rest⟩) :: gathered)
          refine ⟨(name, ⟨octets text ++ octet :: rest, octet :: rest⟩) :: found,
            .cons ⟨rfl, octet, rest, hoctet, rfl⟩ hfound, ?_⟩
          rw [hlater] at hloop
          rw [laterMembers_cons, List.cons_append, List.append_assoc, hlater]
          refine (loop_gather_cons hoctet hpasses.1 (Folds.nextKey_later _) unit fuel
            gathered).trans ?_
          rw [hloop, List.reverse_cons, List.append_assoc, List.singleton_append]

theorem octets_record (members : List (String × String)) :
    octets (Printer.record members) = ascii '\x7b' ::
      (octets (Printer.separated (members.map fun member =>
        Printer.member member.1 member.2)) ++ [ascii '\x7d']) := by
  simp only [Printer.record, Text.octets_append]
  rfl

/-- A printed record consists of the members that were printed. -/
theorem consists_printed {members : List (String × String)}
    (hpasses : ∀ member ∈ members, Passes value member.2) :
    ∃ found, List.Forall₂ Locates members found ∧
      Consists value (octets (Printer.record members)) found := by
  suffices hgathered : ∃ found, List.Forall₂ Locates members found ∧
      Reader.foldMembers Quotation.quoted (gather (Reader.spanned value)) []
        (octets (Printer.separated (members.map fun member =>
          Printer.member member.1 member.2)) ++ [ascii '\x7d']) =
            .done found.reverse [ascii '\x7d'] by
    obtain ⟨found, hfound, hfold⟩ := hgathered
    refine ⟨found, hfound, consists_iff.mpr ⟨_, [ascii '\x7d'], ?_, hfold, [], rfl, rfl⟩⟩
    rw [octets_record]
    rfl
  rw [Reader.foldMembers]
  cases members with
  | nil => exact ⟨[], .nil, rfl⟩
  | cons member members =>
      obtain ⟨name, text⟩ := member
      rw [List.forall_mem_cons] at hpasses
      obtain ⟨octet, rest, hoctet, hlater⟩ := exists_mark members
      have hinside : octets (Printer.separated (((name, text) :: members).map fun member =>
          Printer.member member.1 member.2)) ++ [ascii '\x7d'] =
            octets (Printer.member name text) ++ octet :: rest := by
        rw [octets_separated (name, text) members, List.append_assoc, hlater]
      have hfuel : members.length <
          (octets (Printer.member name text) ++ octet :: rest).length := by
        have hlength := length_le_laterMembers members
        have hsame := congrArg List.length hlater
        simp only [List.length_append, List.length_cons, List.length_nil] at hsame ⊢
        omega
      obtain ⟨found, hfound, hloop⟩ := loop_gather_later hpasses.2 hfuel
        [(name, ⟨octets text ++ octet :: rest, octet :: rest⟩)]
      refine ⟨(name, ⟨octets text ++ octet :: rest, octet :: rest⟩) :: found,
        .cons ⟨rfl, octet, rest, hoctet, rfl⟩ hfound, ?_⟩
      rw [hlater] at hloop
      rw [hinside, loop_gather_cons hoctet hpasses.1 (Folds.nextKey_first _), hloop,
        List.reverse_cons]

section Locates

variable {members : List (String × String)} {found : List (String × Span)}

theorem names_of_locates (hlocates : List.Forall₂ Locates members found) :
    found.map (·.1) = members.map (·.1) := by
  induction hlocates with
  | nil => rfl
  | cons hfirst _ ih => rw [List.map_cons, List.map_cons, hfirst.1, ih]

/-- Whatever is found was printed. -/
theorem exists_printed_of_mem (hlocates : List.Forall₂ Locates members found) :
    ∀ place ∈ found, ∃ member ∈ members, Locates member place := by
  induction hlocates with
  | nil => exact nofun
  | cons hfirst _ ih =>
      refine List.forall_mem_cons.mpr ⟨⟨_, List.mem_cons_self, hfirst⟩, fun place hplace => ?_⟩
      obtain ⟨member, hmember, hlocated⟩ := ih place hplace
      exact ⟨member, List.mem_cons_of_mem _ hmember, hlocated⟩

/-- Whatever was printed is found. -/
theorem exists_place_of_mem (hlocates : List.Forall₂ Locates members found) :
    ∀ member ∈ members, ∃ place ∈ found, Locates member place := by
  induction hlocates with
  | nil => exact nofun
  | cons hfirst _ ih =>
      refine List.forall_mem_cons.mpr ⟨⟨_, List.mem_cons_self, hfirst⟩, fun member hmember => ?_⟩
      obtain ⟨place, hplace, hlocated⟩ := ih member hmember
      exact ⟨place, List.mem_cons_of_mem _ hplace, hlocated⟩

end Locates

end Herald.Json
