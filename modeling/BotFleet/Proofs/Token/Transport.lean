import BotFleet.Proofs.Http.Credentials
import Mathlib.Data.List.TakeWhile

/-
How an issued token travels.

A token is sent in the authorization field or in the query of the target.  What stands
there is taken apart again: the field is cut off behind its scheme, the target at its
first question mark, the query at its ampersands, each part at its first equality sign,
and escapes and plus signs are replaced last.  An issued token is made of letters and
points, and none of these steps has anything to do with a letter or a point.

The theorem this file exists for is `issued_travels`.
-/

namespace BotFleet
namespace Http

/-! ## Header fields -/

/-- None of the header fields has the name. -/
def Header.Lacks (name : String) (headers : List Header) : Prop :=
  ∀ field ∈ headers, field.named name = false

/-- The first field of a name is the one that counts. -/
theorem Header.value?_of_first {name : String} {before after : List Header} {field : Header}
    (hbefore : Lacks name before) (hfield : field.named name = true) :
    value? (before ++ field :: after) name = some field.value := by
  have hnone : before.find? (named name) = none := by
    refine List.find?_eq_none.mpr fun other hother => ?_
    rw [hbefore other hother]
    exact Bool.false_ne_true
  rw [value?, List.find?_append, hnone, Option.none_or, List.find?_cons_of_pos hfield]
  rfl

theorem Header.text?_of_lacks {name : String} {headers : List Header} (h : Lacks name headers) :
    text? headers name = none := by
  have hnone : headers.find? (named name) = none := by
    refine List.find?_eq_none.mpr fun field hfield => ?_
    rw [h field hfield]
    exact Bool.false_ne_true
  rw [text?, value?, hnone]
  rfl

/-! ## Targets -/

/-- What follows the first question mark of a target without a fragment is its query. -/
theorem Target.query_ofText {path query : String} (hslash : path.toList.head? = some '/')
    (hmark : '?' ∉ path.toList) (hpath : '#' ∉ path.toList) (hquery : '#' ∉ query.toList) :
    (ofText (path ++ "?" ++ query)).query = some query := by
  have htext : (path ++ "?" ++ query).toList = path.toList ++ '?' :: query.toList := by
    rw [String.toList_append, String.toList_append, List.append_assoc]
    rfl
  have hwhole : (path.toList ++ '?' :: query.toList).takeWhile (· != '#') =
      path.toList ++ '?' :: query.toList := by
    refine List.takeWhile_eq_self_iff.mpr fun c hc => bne_iff_ne.mpr fun h => ?_
    subst h
    simp [hpath, hquery] at hc
  have hfront : (path.toList ++ '?' :: query.toList).takeWhile (· != '?') = path.toList := by
    have hall : ∀ c ∈ path.toList, (c != '?') = true :=
      fun c hc => bne_iff_ne.mpr fun h => hmark (h ▸ hc)
    rw [List.takeWhile_append_of_pos hall, List.takeWhile_cons_of_neg (by decide), List.append_nil]
  have hhead : (path.toList ++ '?' :: query.toList).head? = some '/' := by
    rw [List.head?_append, hslash]
    rfl
  rw [ofText, htext, hwhole, if_pos hhead]
  dsimp only
  rw [hfront, List.drop_left]
  dsimp only
  rw [String.ofList_toList]

/-! ## Queries -/

namespace Credentials

/-- The parts of the query are parted by ampersands.  One of them names the token as it
stands, and none of the others names a token. -/
def NamesOnce (token query : String) : Prop :=
  ∃ before after : List (List Char),
    query.toList = ['&'].intercalate (before ++ ("token=" ++ token).toList :: after) ∧
      ∀ part ∈ before ++ after, '&' ∉ part ∧ (Percent.fieldOf part).1 ≠ "token"

variable {token : String} {headers : List Header} {target : Target}

/-- A token without ampersands is carried by a query that names it once. -/
theorem carries_of_namesOnce {query : String} (hfield : Header.Lacks "authorization" headers)
    (hquery : target.query = some query) (hand : '&' ∉ token.toList)
    (h : NamesOnce token query) : Carries token headers target := by
  obtain ⟨before, after, hparts, hothers⟩ := h
  have hwhole : ∀ part ∈ before ++ ("token=" ++ token).toList :: after, '&' ∉ part := by
    intro part hpart
    rcases List.mem_append.mp hpart with hpart | hpart
    · exact (hothers part (List.mem_append_left _ hpart)).1
    · rcases List.mem_cons.mp hpart with rfl | hpart
      · rw [String.toList_append]
        exact fun hc => (List.mem_append.mp hc).elim (by decide) hand
      · exact (hothers part (List.mem_append_right _ hpart)).1
  refine .query (Header.text?_of_lacks hfield) hquery ?_ fun part hpart => (hothers part hpart).2
  rw [hparts, List.splitOn_intercalate '&' hwhole (by simp), String.toList_append]

end Credentials
end Http

namespace Token

open Http (Target)
open Http.Credentials (token? NamesOnce)

/-- Neither a separator of a query nor the start of a fragment is a letter of a token. -/
theorem not_mem_issue {c : Char} (hletter : c ∉ Base64.Alphabet.url.letters) (hpoint : c ≠ '.')
    (secret : String) (hours now : Tally) (id : Id) (username : String)
    (authorities : List String) :
    c ∉ (issue secret hours now id username authorities).toList :=
  fun hc => (mem_letters_of_mem_encode hc).elim hletter hpoint

/-- An issued token is found again where it is sent: behind the scheme in the first
authorization field, whatever the target, and without such a field in a query that names
it once. -/
theorem issued_travels (secret : String) (hours now : Tally) (id : Id) (username : String)
    (authorities : List String) :
    let token := issue secret hours now id username authorities
    (∀ (before after : List Http.Header) (field : Http.Header) (target : Target),
      Http.Header.Lacks "authorization" before → field.named "authorization" = true →
      field.value = "Bearer " ++ token → token? (before ++ field :: after) target = some token) ∧
    (∀ (headers : List Http.Header) (target : Target) (query : String),
      Http.Header.Lacks "authorization" headers → target.query = some query →
      NamesOnce token query → token? headers target = some token) ∧
    ∀ (headers : List Http.Header) (path query : String),
      Http.Header.Lacks "authorization" headers → path.toList.head? = some '/' →
      '?' ∉ path.toList → '#' ∉ path.toList → '#' ∉ query.toList → NamesOnce token query →
      token? headers (.ofText (path ++ "?" ++ query)) = some token := by
  intro token
  have hand : '&' ∉ token.toList :=
    not_mem_issue (by decide +kernel) (by decide) secret hours now id username authorities
  have hquery : ∀ (headers : List Http.Header) (target : Target) (query : String),
      Http.Header.Lacks "authorization" headers → target.query = some query →
      NamesOnce token query → token? headers target = some token := by
    intro headers target query hlacks htarget honce
    exact token?_of_carries (Http.Credentials.carries_of_namesOnce hlacks htarget hand honce)
  refine ⟨?_, hquery, ?_⟩
  · intro before after field target hbefore hfield hvalue
    refine token?_of_carries (.field ?_)
    rw [Http.Header.value?_of_first hbefore hfield, hvalue]
    rfl
  · intro headers path query hlacks hslash hmark hpath hfragment honce
    exact hquery headers _ query hlacks (Target.query_ofText hslash hmark hpath hfragment) honce

/-- A token of the account alice, in a field between others and in a query between others. -/
theorem alice_travels :
    let token := issue "oracle-secret" ⟨24, by decide⟩ ⟨0, by decide⟩ ⟨1, by decide⟩ "alice"
      ["ROLE_USER"]
    token? [⟨"host", "localhost"⟩, ⟨"Authorization", "Bearer " ++ token⟩,
        ⟨"authorization", "Basic abc"⟩] (.ofText "/socket?token=other") = some token ∧
      token? [⟨"host", "localhost"⟩] (.ofText ("/socket" ++ "?" ++ ("foo=1&token=" ++ token))) =
        some token := by
  obtain ⟨hfield, -, htext⟩ := issued_travels "oracle-secret" ⟨24, by decide⟩ ⟨0, by decide⟩
    ⟨1, by decide⟩ "alice" ["ROLE_USER"]
  have hfragment : '#' ∉ (issue "oracle-secret" ⟨24, by decide⟩ ⟨0, by decide⟩ ⟨1, by decide⟩
      "alice" ["ROLE_USER"]).toList := not_mem_issue (by decide +kernel) (by decide) _ _ _ _ _ _
  -- Only the letters of the token matter, so it is not written out below.
  generalize issue "oracle-secret" ⟨24, by decide⟩ ⟨0, by decide⟩ ⟨1, by decide⟩ "alice"
    ["ROLE_USER"] = token at hfield htext hfragment ⊢
  have hlacks : Http.Header.Lacks "authorization" [⟨"host", "localhost"⟩] := by
    intro field hmem
    rw [List.mem_singleton.mp hmem]
    decide
  have hhash : '#' ∉ ("foo=1&token=" ++ token).toList := by
    rw [String.toList_append]
    exact fun hc => (List.mem_append.mp hc).elim (by decide) hfragment
  have honce : NamesOnce token ("foo=1&token=" ++ token) := by
    refine ⟨["foo=1".toList], [], ?_, fun part hpart => ?_⟩
    · simp [List.intercalate]
    · rw [List.append_nil, List.mem_singleton] at hpart
      subst hpart
      have hname : Http.Percent.fieldOf "foo=1".toList = ("foo", "1") := by
        have hparts : "foo=1".toList = "foo".toList ++ '=' :: "1".toList := rfl
        rw [hparts, Http.Percent.fieldOf_append (by decide),
          Http.Percent.decodeField_of_plain (by decide) (by decide),
          Http.Percent.decodeField_of_plain (by decide) (by decide)]
        rfl
      rw [hname]
      decide
  have hlower : "Authorization".toList.map Char.toLower = "authorization".toList.map Char.toLower :=
    by decide
  have hnamed : Http.Header.named "authorization" ⟨"Authorization", "Bearer " ++ token⟩ = true :=
    beq_iff_eq.mpr hlower
  exact ⟨hfield [⟨"host", "localhost"⟩] _ ⟨"Authorization", _⟩ _ hlacks hnamed rfl,
    htext _ "/socket" _ hlacks rfl (by decide) (by decide) hhash honce⟩

end Token
end BotFleet
