import Herald.Proofs.Http.Access
import Herald.Settings.Basic
import Mathlib.Data.List.DropRight

/-!
Which requests present the configured key, and which keys can be presented at all. What a header
presents is a text without the blanks around it; a key that is configured is taken as it stands.
-/

namespace Herald.Text

theorem trimmed_eq (text : String) :
    trimmed text = String.ofList ((text.toList.dropWhile isBlank).rdropWhile isBlank) := rfl

theorem trimmed_trimmed (text : String) : trimmed (trimmed text) = trimmed text := by
  have hstart : ((text.toList.dropWhile isBlank).rdropWhile isBlank).dropWhile isBlank =
      (text.toList.dropWhile isBlank).rdropWhile isBlank := by
    obtain ⟨ending, hsplit⟩ := List.rdropWhile_prefix isBlank (text.toList.dropWhile isBlank)
    cases hkept : (text.toList.dropWhile isBlank).rdropWhile isBlank with
    | nil => rfl
    | cons first kept =>
        rw [hkept] at hsplit
        -- The first character that is kept is where the blanks at the start ended.
        have hfirst := List.head?_dropWhile_not isBlank text.toList
        rw [← hsplit] at hfirst
        exact List.dropWhile_cons_of_neg (by simpa using hfirst)
  rw [trimmed_eq, trimmed_eq, String.toList_ofList, hstart, List.rdropWhile_idempotent]

theorem mem_of_mem_trimmed {text : String} {character : Char}
    (hmem : character ∈ (trimmed text).toList) : character ∈ text.toList := by
  rw [trimmed_eq, String.toList_ofList] at hmem
  exact (List.dropWhile_sublist isBlank).subset ((List.rdropWhile_prefix isBlank _).subset hmem)

end Herald.Text

namespace Herald.Http

theorem isText_trimmed {value : String} (htext : isText value = true) :
    isText (Text.trimmed value) = true :=
  List.all_eq_true.mpr fun character hmem =>
    List.all_eq_true.mp htext character (Text.mem_of_mem_trimmed hmem)

/-- A key that a header can hold and that has no blanks at its ends. -/
structure Presentable (key : String) : Prop where
  text : isText key = true
  trimmed : Text.trimmed key = key

namespace Request

variable {request : Request} {settings : Settings} {key : String}

def keyName : String := "x-internal-api-key"

/-- The first header for keys holds a text that is the key, apart from blanks around it. -/
def PresentsKey (request : Request) (key : String) : Prop :=
  ∃ value, request.headers.first? keyName = some value ∧ isText value = true ∧
    Text.trimmed value = key

theorem PresentsKey.presentable (hpresents : request.PresentsKey key) : Presentable key := by
  obtain ⟨value, -, htext, rfl⟩ := hpresents
  exact ⟨isText_trimmed htext, Text.trimmed_trimmed value⟩

/-- A header that is the key as it stands presents it only if the key is presentable. -/
theorem presentsKey_iff_presentable (hfirst : request.headers.first? keyName = some key) :
    request.PresentsKey key ↔ Presentable key := by
  constructor
  · exact PresentsKey.presentable
  · rintro ⟨htext, htrimmed⟩
    exact ⟨key, hfirst, htext, htrimmed⟩

theorem presentedKey?_eq_some_iff (hkey : key ≠ "") :
    request.presentedKey? = some key ↔ request.PresentsKey key := by
  constructor
  · intro hpresented
    obtain ⟨value, hvalue, hkept⟩ := Option.bind_eq_some_iff.mp hpresented
    obtain ⟨hfirst, htext⟩ := text?_eq_some_iff.mp hvalue
    refine ⟨value, hfirst, htext, ?_⟩
    exact Option.some.inj (Option.ite_none_left_eq_some.mp hkept).2
  · rintro ⟨value, hfirst, htext, rfl⟩
    apply Option.bind_eq_some_iff.mpr
    refine ⟨value, text?_eq_some_iff.mpr ⟨hfirst, htext⟩, ?_⟩
    exact if_neg (by simpa using hkey)

/-! Requests that are let through, and the refusals of others. -/

theorem admitted_of_unset (hunset : settings.ingestKey = none ∨ settings.ingestKey = some "") :
    request.admitted settings.ingestKey? = .error (.plain 403 "Forbidden") := by
  obtain hunset | hunset := hunset
  all_goals
    rw [Settings.ingestKey?, hunset]
    rfl

theorem ingestKey?_of_set (hset : settings.ingestKey = some key) (hkey : key ≠ "") :
    settings.ingestKey? = some key := by
  rw [Settings.ingestKey?, hset]
  exact Option.filter_some_pos (decide_eq_true hkey)

theorem admitted_of_presents (hset : settings.ingestKey = some key) (hkey : key ≠ "")
    (hpresents : request.PresentsKey key) : request.admitted settings.ingestKey? = .ok () := by
  rw [ingestKey?_of_set hset hkey]
  exact if_pos ((presentedKey?_eq_some_iff hkey).mpr hpresents)

theorem admitted_of_not_presents (hset : settings.ingestKey = some key) (hkey : key ≠ "")
    (hpresents : ¬request.PresentsKey key) :
    request.admitted settings.ingestKey? = .error unauthorized := by
  rw [ingestKey?_of_set hset hkey]
  exact if_neg (hpresents ∘ (presentedKey?_eq_some_iff hkey).mp)

/-- The request presents a key that is configured and not empty. -/
def IsAdmitted (request : Request) (settings : Settings) : Prop :=
  ∃ key, settings.ingestKey = some key ∧ key ≠ "" ∧ request.PresentsKey key

theorem admitted_of_isAdmitted (hadmitted : request.IsAdmitted settings) :
    request.admitted settings.ingestKey? = .ok () := by
  obtain ⟨key, hset, hkey, hpresents⟩ := hadmitted
  exact admitted_of_presents hset hkey hpresents

theorem exists_admitted_eq_error (hadmitted : ¬request.IsAdmitted settings) :
    ∃ response, response.status ∈ [401, 403] ∧
      request.admitted settings.ingestKey? = .error response := by
  cases hset : settings.ingestKey with
  | none => exact ⟨_, by decide, admitted_of_unset (.inl hset)⟩
  | some key =>
      by_cases hkey : key = ""
      · subst hkey
        exact ⟨_, by decide, admitted_of_unset (.inr hset)⟩
      · have hpresents : ¬request.PresentsKey key := fun hpresents =>
          hadmitted ⟨key, hset, hkey, hpresents⟩
        exact ⟨_, by decide, admitted_of_not_presents hset hkey hpresents⟩

end Request

end Herald.Http
