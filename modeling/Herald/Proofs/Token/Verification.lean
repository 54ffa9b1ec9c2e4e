import Herald.Failure
import Herald.Proofs.Token.Issue

/-!
Which tokens are good. A token is good for a user only as the secret signed it, with a header for
the one algorithm, claims that name the user, and an expiry that is not over; any other token leaves
the user unauthenticated. What the secret signed in a plain form is good.
-/

namespace Herald.Token

open Json (Span)

theorem verifyUnder_eq_ok_iff {secret : List UInt8} {now : Nat} {token : String}
    {user : Identifier} :
    verifyUnder secret now token = .ok user ↔
      ∃ payload expiry, signedClaims secret (Text.octets token) = .ok payload ∧
        parsed claimsReader payload = .ok ⟨user, expiry⟩ ∧
        parsed audienceNamed payload = .ok false ∧ now ≤ expiry + leeway := by
  rw [verifyUnder]
  constructor
  · intro hverified
    obtain ⟨payload, hpayload, hverified⟩ := Except.bind_eq_ok_iff.mp hverified
    obtain ⟨claims, hclaims, hverified⟩ := Except.bind_eq_ok_iff.mp hverified
    obtain ⟨named, hnamed, hverified⟩ := Except.bind_eq_ok_iff.mp hverified
    split at hverified
    case isTrue => cases hverified
    case isFalse hexpiry =>
      split at hverified
      case isTrue => cases hverified
      case isFalse hunnamed =>
        cases hverified
        rw [Bool.not_eq_true] at hunnamed
        subst hunnamed
        exact ⟨payload, claims.expiry, hpayload, hclaims, hnamed, Nat.not_lt.mp hexpiry⟩
  · rintro ⟨payload, expiry, hpayload, hclaims, hnamed, hexpiry⟩
    rw [hpayload]
    change (parsed claimsReader payload >>= _) = _
    rw [hclaims]
    change (parsed audienceNamed payload >>= _) = _
    rw [hnamed]
    exact (if_neg (Nat.not_lt.mpr hexpiry)).trans (if_neg Bool.false_ne_true)

section Signed

variable {secret header payload : List UInt8} {now : Nat} {token : String} {user : Identifier}
  {expiry : Nat} {headerMembers members : List (String × Span)}

/-- A token that is good was signed with all that makes it so. -/
theorem signed_of_verifyUnder (hverified : verifyUnder secret now token = .ok user) :
    ∃ header payload members expiry, Text.octets token = signed secret header payload ∧
      Names header .hs256 ∧ Declares payload members user expiry ∧ now ≤ expiry + leeway := by
  obtain ⟨payload, expiry, hpayload, hclaims, hnamed, hexpiry⟩ := verifyUnder_eq_ok_iff.mp hverified
  obtain ⟨header, htoken, found, hheader, halgorithm⟩ := signedClaims_eq_ok_iff.mp hpayload
  obtain ⟨members, hdeclares⟩ := declares_of_parsed hclaims hnamed
  refine ⟨header, payload, members, expiry, htoken, ?_, hdeclares, hexpiry⟩
  rw [← halgorithm]
  exact names_of_parsed hheader

/-- A plain header and claims that say nothing else than who and how long are good when signed. -/
theorem verifyUnder_of_signed (htoken : Text.octets token = signed secret header payload)
    (hplain : Plain header headerMembers .hs256) (hdeclares : Declares payload members user expiry)
    (hlength : members.length = 2) (hexpiry : now ≤ expiry + leeway) :
    verifyUnder secret now token = .ok user := by
  obtain ⟨found, hheader, halgorithm⟩ := hplain.exists_parsed
  apply verifyUnder_eq_ok_iff.mpr
  exact ⟨payload, expiry, signedClaims_eq_ok_iff.mpr ⟨header, htoken, found, hheader, halgorithm⟩,
    hdeclares.parsed_claims hlength, hdeclares.parsed_audience hlength, hexpiry⟩

end Signed

/--
A token is good only if it has three parts that the secret signed, a header that names the algorithm,
and claims that name the user and an expiry that is at most the leeway ago. Any other token leaves
the user unauthenticated. A token that was signed with a plain header and just these claims is good.
-/
theorem tokens_are_good_as_signed (secret : List UInt8) (now : Nat) (token : String) :
    ((∃ user, verifyUnder secret now token = .ok user ∧
        (Text.octets token).count dot = 2 ∧ ∃ header payload members expiry,
          Text.octets token = signed secret header payload ∧ Names header .hs256 ∧
            Declares payload members user expiry ∧ now ≤ expiry + leeway) ∨
      ∃ fault, verifyUnder secret now token = .error fault ∧
        (Failure.ofToken fault).kind = .unauthenticated) ∧
    ∀ header payload headerMembers members user expiry,
      Text.octets token = signed secret header payload → Plain header headerMembers .hs256 →
        Declares payload members user expiry → members.length = 2 → now ≤ expiry + leeway →
          verifyUnder secret now token = .ok user := by
  constructor
  · cases hverified : verifyUnder secret now token with
    | error fault => exact .inr ⟨fault, rfl, rfl⟩
    | ok user =>
        obtain ⟨header, payload, members, expiry, htoken, hrest⟩ := signed_of_verifyUnder hverified
        refine .inl ⟨user, rfl, ?_, header, payload, members, expiry, htoken, hrest⟩
        rw [htoken, count_dot_signed]
  · intro header payload headerMembers members user expiry htoken hplain hdeclares hlength hexpiry
    exact verifyUnder_of_signed htoken hplain hdeclares hlength hexpiry

/-! Tokens as they are issued. -/

def issuedHeader : List UInt8 :=
  Text.octets (printedHeader [("typ", "JWT"), ("alg", Algorithm.hs256.name)])

def issuedClaims (user : Identifier) (expiry : Nat) : List UInt8 :=
  Text.octets (printedClaims user expiry)

theorem exists_plain_issuedHeader : ∃ members, Plain issuedHeader members .hs256 :=
  exists_plain (by decide) (by decide) (by decide)

def readerToken : String :=
  "eyJ0eXAiOiJKV1QiLCJhbGciOiJIUzI1NiJ9." ++
    "eyJzdWIiOiIwMDAwMDAwMC0wMDAwLTAwMDAtMDAwMC0wMDAwMDAwMDAwMDEiLCJleHAiOjQxMDI0NDQ4MDB9." ++
    "RF707_MsamEoevGc3YgynDFtHz0mdPjJrHzcC5Vm8LA"

theorem reader_token_is_good :
    Text.octets readerToken =
        signed (Text.octets "s3cret") issuedHeader (issuedClaims (.ofNat 1) 4102444800) ∧
      verifyUnder (Text.octets "s3cret") 4102444860 readerToken = .ok (.ofNat 1) := by
  have htoken : Text.octets readerToken =
      signed (Text.octets "s3cret") issuedHeader (issuedClaims (.ofNat 1) 4102444800) := by
    decide +kernel
  obtain ⟨headerMembers, hplain⟩ := exists_plain_issuedHeader
  have hexpiry : 4102444800 < 2 ^ 64 := by decide
  obtain ⟨members, hlength, hdeclares⟩ := exists_declares (.ofNat 1) hexpiry
  refine ⟨htoken, ?_⟩
  exact (tokens_are_good_as_signed (Text.octets "s3cret") 4102444860 readerToken).2 issuedHeader _
    headerMembers members (.ofNat 1) 4102444800 htoken hplain hdeclares hlength (by decide)

def distantToken : String :=
  "eyJ0eXAiOiJKV1QiLCJhbGciOiJIUzI1NiJ9." ++
    "eyJzdWIiOiIwMDAwMDAwMC0wMDAwLTAwMDAtMDAwMC0wMDAwMDAwMDAwMDEiLCJleHAiOjE4NDQ2NzQ0" ++
    "MDczNzA5NTUxNjE2fQ." ++
    "2b12IjWlBxbaM9gaiztYeZPB1GvXi-wW8AtwNRmCDVM"

/-- An expiry that is too large for 64 bits is none. -/
theorem distant_expiry_is_refused :
    Text.octets distantToken =
        signed (Text.octets "s3cret") issuedHeader (issuedClaims (.ofNat 1) (2 ^ 64)) ∧
      1700000000 ≤ 2 ^ 64 + leeway ∧
      (verifyUnder (Text.octets "s3cret") 1700000000 distantToken).toOption = none := by
  decide +kernel

/-- A token as it is issued is good until its expiry and the leeway are over. -/
theorem issued_token_is_good_iff {secret : List UInt8} {now : Nat} {token : String}
    {user : Identifier} {expiry : Nat} (hexpiry : expiry < 2 ^ 64)
    (htoken : Text.octets token = signed secret issuedHeader (issuedClaims user expiry)) :
    verifyUnder secret now token = .ok user ↔ now ≤ expiry + leeway := by
  obtain ⟨headerMembers, hplain⟩ := exists_plain_issuedHeader
  obtain ⟨members, hlength, hdeclares⟩ := exists_declares user hexpiry
  constructor
  · intro hverified
    obtain ⟨payload, later, hpayload, hclaims, -, hlater⟩ := verifyUnder_eq_ok_iff.mp hverified
    obtain ⟨found, hheader, halgorithm⟩ := hplain.exists_parsed
    have hissued : signedClaims secret (Text.octets token) = .ok (issuedClaims user expiry) :=
      signedClaims_eq_ok_iff.mpr ⟨issuedHeader, htoken, found, hheader, halgorithm⟩
    cases hissued.symm.trans hpayload
    cases (hdeclares.parsed_claims hlength).symm.trans hclaims
    exact hlater
  · intro hnow
    exact verifyUnder_of_signed htoken hplain hdeclares hlength hnow

end Herald.Token
