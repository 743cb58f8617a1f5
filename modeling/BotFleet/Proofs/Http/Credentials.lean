import BotFleet.Http.Credentials
import BotFleet.Http.Handshake
import BotFleet.Proofs.Http.Percent
import BotFleet.Proofs.Token.Lifetime
import BotFleet.Proofs.Token.Valid

/-
Requests that carry an issued token.

An issued token consists of letters and points, all of which a header field may
hold, so a request that has it in front of its header fields carries that token and
no other.  None of them means anything else in a query either, so the token may stand
there as it is.
-/

namespace BotFleet
namespace Http

/-- The request with a token in front of its header fields. -/
def Request.bearing (token : String) (r : Request) : Request :=
  { r with headers := ⟨"authorization", Credentials.scheme ++ token⟩ :: r.headers }

/-- The other header fields are what they were. -/
theorem Request.value?_bearing {name : String}
    (hname : "authorization".toList.map Char.toLower ≠ name.toList.map Char.toLower)
    (token : String) (r : Request) : (r.bearing token).value? name = r.value? name := by
  have hfield : Header.named name ⟨"authorization", Credentials.scheme ++ token⟩ = false :=
    beq_eq_false_iff_ne.mpr hname
  rw [value?, value?, Header.value?, Header.value?, bearing,
    List.find?_cons_of_neg (by rw [hfield]; decide)]

theorem Handshake.check_bearing (token : String) (r : Request) :
    check (r.bearing token) = check r := by
  have hverb : (r.bearing token).verb = r.verb := rfl
  have hupgradable : (r.bearing token).upgradable = r.upgradable := rfl
  rw [check, check, hverb, hupgradable, Request.value?_bearing (by decide),
    Request.value?_bearing (by decide), Request.value?_bearing (by decide),
    Request.value?_bearing (by decide)]

theorem Header.isReadable_append (a b : String) :
    isReadable (a ++ b) = (isReadable a && isReadable b) := by
  simp [isReadable]

namespace Credentials

theorem ofField_scheme (token : String) : ofField (scheme ++ token) = some token := by
  have hprefix : scheme.toList.isPrefixOf (scheme ++ token).toList = true := by
    simp [List.isPrefixOf_iff_prefix]
  rw [ofField, if_pos hprefix, String.toList_append, List.drop_left, String.ofList_toList]

theorem token?_of_field {token : String} {headers : List Header} {target : Target}
    (h : Header.isReadable token = true)
    (hfield : Header.value? headers "authorization" = some (scheme ++ token)) :
    token? headers target = some token := by
  have hreadable : Header.isReadable (scheme ++ token) = true := by
    rw [Header.isReadable_append, h]
    decide
  rw [token?, Header.text?, hfield, Option.filter_some, if_pos hreadable]
  exact ofField_scheme token

theorem value?_authorization_bearing (token : String) (r : Request) :
    Header.value? (r.bearing token).headers "authorization" = some (scheme ++ token) := by
  rw [Header.value?, Request.bearing, List.find?_cons_of_pos (by simp [Header.named])]
  rfl

theorem token?_bearing {token : String} (h : Header.isReadable token = true) (r : Request) :
    token? (r.bearing token).headers (r.bearing token).target = some token :=
  token?_of_field h (value?_authorization_bearing token r)

/-- The ways in which a request carries a token: in the authorization field, or, without such a
field that can be read, in the one part of its query that is named for it. -/
inductive Carries (token : String) (headers : List Header) (target : Target) : Prop
  | field (hfield : Header.value? headers "authorization" = some (scheme ++ token))
  | query {query : String} {before after : List (List Char)}
    (hfield : Header.text? headers "authorization" = none) (hquery : target.query = some query)
    (hparts : query.toList.splitOn '&' = before ++ ("token=".toList ++ token.toList) :: after)
    (hothers : ∀ part ∈ before ++ after, (Percent.fieldOf part).1 ≠ "token")

/-- A token that is named once in a query and stands for itself there is the token of the
query. -/
theorem ofQuery_of_once {query token : String} {before after : List (List Char)}
    (hparts : query.toList.splitOn '&' = before ++ ("token=".toList ++ token.toList) :: after)
    (hothers : ∀ part ∈ before ++ after, (Percent.fieldOf part).1 ≠ "token")
    (hpercent : '%' ∉ token.toList) (hplus : '+' ∉ token.toList) (hne : token.isEmpty = false) :
    ofQuery query = some token := by
  have hfield : Percent.fieldOf ("token=".toList ++ token.toList) = ("token", token) := by
    have hname : "token=".toList ++ token.toList = "token".toList ++ '=' :: token.toList := rfl
    rw [hname, Percent.fieldOf_append (by decide),
      Percent.decodeField_of_plain (by decide) (by decide),
      Percent.decodeField_of_plain hpercent hplus, String.ofList_toList, String.ofList_toList]
  have hnone : ∀ parts : List (List Char), (∀ part ∈ parts, part ∈ before ++ after) →
      ((parts.filter fun part => !part.isEmpty).map Percent.fieldOf).filter
        (fun field => field.1 == "token") = [] := by
    intro parts hsub
    rw [List.filter_eq_nil_iff]
    intro field hmem
    obtain ⟨part, hpart, rfl⟩ := List.mem_map.mp hmem
    exact fun h => hothers part (hsub part (List.mem_filter.mp hpart).1) (beq_iff_eq.mp h)
  have hfields : (Percent.fields query).filter (fun field => field.1 == "token") =
      [("token", token)] := by
    rw [Percent.fields, hparts, List.filter_append, List.map_append, List.filter_append,
      hnone before fun part hpart => List.mem_append_left _ hpart,
      List.filter_cons_of_pos (by rfl), List.map_cons, hfield, List.filter_cons_of_pos (by rfl),
      hnone after fun part hpart => List.mem_append_right _ hpart]
    rfl
  rw [ofQuery, hfields]
  dsimp only
  rw [if_neg (by rw [hne]; decide)]

end Credentials
end Http

namespace Token

/-- An issued token is made of letters and points. -/
theorem mem_letters_of_mem_encode {secret : String} {claims : Claims} {c : Char}
    (hc : c ∈ (encode secret claims).toList) : c ∈ Base64.Alphabet.url.letters ∨ c = '.' := by
  rw [encode, String.toList_ofList] at hc
  simp only [List.mem_append, List.mem_cons, letters] at hc
  rcases hc with (hc | hc | hc) | hc | hc
  · exact .inl (Base64.mem_letters_of_mem_encode hc)
  · exact .inr hc
  · exact .inl (Base64.mem_letters_of_mem_encode hc)
  · exact .inr hc
  · exact .inl (Base64.mem_letters_of_mem_encode hc)


theorem isReadable_encode (secret : String) (claims : Claims) :
    Http.Header.isReadable (encode secret claims) = true := by
  have hletter : ∀ bytes, ∀ c ∈ Base64.encode .url bytes,
      (c == '\t' || (decide (' ' ≤ c) && decide (c ≤ '~'))) = true := by
    intro bytes c hc
    have hall : (Base64.Alphabet.letters .url).all
        (fun l => l == '\t' || (decide (' ' ≤ l) && decide (l ≤ '~'))) = true := by
      rfl
    exact List.all_eq_true.mp hall c (Base64.mem_letters_of_mem_encode hc)
  rw [Http.Header.isReadable, encode, String.toList_ofList]
  simp only [List.all_append, List.all_cons, letters, Bool.and_eq_true, List.all_eq_true]
  exact ⟨⟨hletter _, by decide, hletter _⟩, by decide, hletter _⟩

/-- A request that carries an issued token is read as carrying that token. -/
theorem token?_of_carries {secret : String} {claims : Claims} {headers : List Http.Header}
    {target : Http.Target} (h : Http.Credentials.Carries (encode secret claims) headers target) :
    Http.Credentials.token? headers target = some (encode secret claims) := by
  cases h with
  | field hfield => exact Http.Credentials.token?_of_field (isReadable_encode _ _) hfield
  | query hfield hquery hparts hothers =>
    have hplain : ∀ c, c ∉ Base64.Alphabet.url.letters → c ≠ '.' →
        c ∉ (encode secret claims).toList :=
      fun c hletter hpoint hc => (mem_letters_of_mem_encode hc).elim hletter hpoint
    have hne : (encode secret claims).isEmpty = false := by
      obtain ⟨header, payload, signature, htoken, -⟩ := parts_encode secret claims
      refine Bool.eq_false_iff.mpr fun hempty => ?_
      rw [String.isEmpty_iff.mp hempty] at htoken
      cases header <;> cases htoken
    rw [Http.Credentials.token?, hfield, hquery]
    exact Http.Credentials.ofQuery_of_once hparts hothers
      (hplain '%' (by decide +kernel) (by decide)) (hplain '+' (by decide +kernel) (by decide)) hne

/-- A token does not expire before it is issued. -/
theorem le_expiry (now hours : Tally) : now.val ≤ (expiry now hours).val := by
  have hnow := now.property
  have hhours := hours.property
  show now.val ≤ max 0 (min (now.val + min endOfTime (hours.val * 3600)) endOfTime)
  have hend : endOfTime = 18446744073709551615 := rfl
  omega

end Token

end BotFleet
