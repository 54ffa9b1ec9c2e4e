import Herald.Http.Access
import Herald.Proofs.Except

/-!
Which requests present a user's token: those whose first authorization header is a text of the bearer
scheme with a token that is good for the user. Further headers of the name do not count.
-/

namespace Herald.Http

theorem after?_eq_some_iff {start characters rest : List Char} :
    after? start characters = some rest ↔ characters = start ++ rest := by
  induction start generalizing characters with
  | nil => simp [after?]
  | cons expected start ih =>
      cases characters with
      | nil => simp [after?]
      | cons character characters =>
          by_cases hsame : expected = character
          · simp [after?, hsame, ih]
          · simp [after?, hsame, Ne.symm hsame]

namespace Request

variable {request : Request} {secret : String} {now : Nat} {user : Identifier}

/-- The first authorization header says `Bearer` and, apart from blanks, a good token of the user. -/
def Presents (request : Request) (secret : String) (now : Nat) (user : Identifier) : Prop :=
  ∃ value token, request.headers.first? "authorization" = some value ∧ isText value = true ∧
    value = "Bearer " ++ token ∧ Text.trimmed token ≠ "" ∧
    Token.verify secret now (Text.trimmed token) = .ok user

theorem text?_eq_some_iff {name value : String} :
    request.text? name = some value ↔
      request.headers.first? name = some value ∧ isText value = true :=
  Option.filter_eq_some_iff

theorem bearerToken?_eq_some_iff {presented : String} :
    request.bearerToken? = some presented ↔
      ∃ value token, request.headers.first? "authorization" = some value ∧ isText value = true ∧
        value = "Bearer " ++ token ∧ Text.trimmed token ≠ "" ∧ Text.trimmed token = presented := by
  constructor
  · intro hpresented
    obtain ⟨value, hvalue, hbearer⟩ := Option.bind_eq_some_iff.mp hpresented
    obtain ⟨token, htoken, hkept⟩ := Option.bind_eq_some_iff.mp hbearer
    obtain ⟨hfirst, htext⟩ := text?_eq_some_iff.mp hvalue
    have hscheme : value = "Bearer " ++ String.ofList token := by
      apply String.toList_inj.mp
      calc
        value.toList = bearerScheme ++ token := after?_eq_some_iff.mp htoken
        _ = bearerScheme ++ (String.ofList token).toList := by rw [String.toList_ofList]
        _ = ("Bearer " ++ String.ofList token).toList := String.toList_append.symm
    dsimp only at hkept
    split at hkept
    case isTrue => cases hkept
    case isFalse hblank =>
      refine ⟨value, _, hfirst, htext, hscheme, ?_, Option.some.inj hkept⟩
      simpa using hblank
  · rintro ⟨value, token, hfirst, htext, rfl, hblank, rfl⟩
    have hvalue := text?_eq_some_iff.mpr ⟨hfirst, htext⟩
    have htoken : after? bearerScheme ("Bearer " ++ token).toList = some token.toList := by
      apply after?_eq_some_iff.mpr
      exact String.toList_append
    have hempty : ¬(Text.trimmed token).isEmpty = true := by
      simpa using hblank
    rw [bearerToken?, hvalue]
    simp only [Option.bind_eq_bind, Option.bind_some, htoken, String.ofList_toList, if_neg hempty]

theorem user?_eq_some_iff :
    request.user? secret now = some user ↔ request.Presents secret now user := by
  constructor
  · intro huser
    obtain ⟨presented, hpresented, hgood⟩ := Option.bind_eq_some_iff.mp huser
    obtain ⟨value, token, hfirst, htext, hscheme, hblank, rfl⟩ :=
      bearerToken?_eq_some_iff.mp hpresented
    exact ⟨value, token, hfirst, htext, hscheme, hblank, Except.toOption_eq_some_iff.mp hgood⟩
  · rintro ⟨value, token, hfirst, htext, hscheme, hblank, hgood⟩
    apply Option.bind_eq_some_iff.mpr
    exact ⟨_, bearerToken?_eq_some_iff.mpr ⟨value, token, hfirst, htext, hscheme, hblank, rfl⟩,
      Except.toOption_eq_some_iff.mpr hgood⟩

end Request

end Herald.Http
