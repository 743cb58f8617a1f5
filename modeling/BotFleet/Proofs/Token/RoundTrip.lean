import BotFleet.Proofs.Crypto.Base64
import BotFleet.Proofs.Json.Any
import BotFleet.Proofs.Text.Utf8
import BotFleet.Token

/-
Tokens that the service issued itself.

The letters of a token stand for the bytes of its parts and the bytes for their
text, so the header and the claims are read back as they were written, and the
signature is the one that is computed again.  Nothing but its age can then speak
against the token.
-/

namespace BotFleet
namespace Token

open Json (Message Reads Fills Source)

/-! ## Parts -/

theorem splitAtLastPoint_append {before after : List Char} (h : '.' ∉ after) :
    splitAtLastPoint (before ++ '.' :: after) = some (before, after) := by
  have hreverse : (before ++ '.' :: after).reverse = after.reverse ++ '.' :: before.reverse := by
    simp
  have hall : ∀ c ∈ after.reverse, (c != '.') = true := by
    intro c hc
    refine bne_iff_ne.mpr fun he => ?_
    rw [he, List.mem_reverse] at hc
    exact h hc
  have htail : (before ++ '.' :: after).reverse.takeWhile (· != '.') = after.reverse := by
    rw [hreverse, List.takeWhile_append_of_pos hall, List.takeWhile_cons_of_neg (by decide),
      List.append_nil]
  rw [splitAtLastPoint]
  simp only [htail]
  rw [hreverse, List.drop_left]
  simp only [List.reverse_reverse]

/-- A text is parted at its last point. -/
theorem splitAtLastPoint_eq_some_iff {s before after : List Char} :
    splitAtLastPoint s = some (before, after) ↔ s = before ++ '.' :: after ∧ '.' ∉ after := by
  constructor
  · intro h
    have hparts := List.takeWhile_append_dropWhile (p := (· != '.')) (l := s.reverse)
    have hdrop : s.reverse.drop (s.reverse.takeWhile (· != '.')).length =
        s.reverse.dropWhile (· != '.') := by
      have hleft : (s.reverse.takeWhile (· != '.') ++ s.reverse.dropWhile (· != '.')).drop
          (s.reverse.takeWhile (· != '.')).length = s.reverse.dropWhile (· != '.') := List.drop_left
      rwa [hparts] at hleft
    rw [splitAtLastPoint] at h
    simp only [hdrop] at h
    cases hd : s.reverse.dropWhile (· != '.') with
    | nil => simp [hd] at h
    | cons c rest =>
      have hc : c = '.' := by
        have hne := List.head_dropWhile_not (· != '.') (l := s.reverse) (by rw [hd]; simp)
        simpa [hd] using hne
      simp only [hd, Option.some.injEq, Prod.mk.injEq] at h
      obtain ⟨rfl, rfl⟩ := h
      rw [hd, hc] at hparts
      refine ⟨?_, ?_⟩
      · have hs := congrArg List.reverse hparts
        simpa using hs.symm
      · rw [List.mem_reverse]
        intro hm
        have hp := List.all_eq_true.mp List.all_takeWhile _ hm
        simp at hp
  · rintro ⟨rfl, h⟩
    exact splitAtLastPoint_append h

theorem point_not_mem_letters (text : String) : '.' ∉ letters text :=
  Base64.point_not_mem_encode _

theorem sourceOf_letters (text : String) :
    sourceOf (letters text) = .ok (Source.ofChars text.toList) := by
  rw [sourceOf, letters, Base64.decode?_encode]
  show Except.ok (Utf8.units (Utf8.encode text.toList)) = _
  rw [Utf8.units_encode]
  rfl

/-- A part of a token is read back as it was written. -/
theorem messageOf_letters {α : Type} [Message α] {a : α}
    (h : (Message.shape α).Fits (Message.toValue a)) :
    messageOf α (letters (Message.write a)) = .ok (Message.ofValue (Message.toValue a)) := by
  rw [messageOf, sourceOf_letters]
  simp only [Message.readSource_write h]
  rfl

/-! ## The two parts of an issued token -/

theorem header_fits : (Message.shape Header).Fits (Message.toValue Header.standard) := by
  refine ⟨by decide, ⟨trivial, ?_⟩, trivial, trivial⟩
  intro h
  cases h

theorem tally_fitsWord (n : Tally) : Json.FitsWord n.val := by
  have h := n.property
  constructor <;> omega

theorem claims_fits (claims : Claims) :
    (Message.shape Claims).Fits (Message.toValue claims) :=
  ⟨by decide, trivial, trivial, fun _ _ => trivial, tally_fitsWord _, tally_fitsWord _, trivial⟩

/-- Claims that were issued hold no conditions. -/
theorem conditionsOf_claims (claims : Claims) :
    conditionsOf (letters (Message.write claims)) = .ok ⟨false, false, none⟩ := by
  let fields : List (String × Json) :=
    [("sub", .text claims.subject), ("username", .text claims.username),
     ("authorities", .list (claims.authorities.map Json.text)),
     ("exp", .int claims.expires.val), ("iat", .int claims.issued.val)]
  have hjson : Message.toJson claims = .record fields := rfl
  have hfills : Fills Conditions.slot ⟨false, false, none⟩ fields ⟨false, false, none⟩ :=
    .unknown rfl (Json.skims_text _) <| .unknown rfl (Json.skims_text _) <|
      .unknown rfl (Json.skims_texts _) <| .unknown rfl (Json.skims_int (tally_fitsWord _)) <|
        .unknown rfl (Json.skims_int (tally_fitsWord _)) (.nil _)
  have hread : Reads Conditions.reader (Message.toJson claims) ⟨false, false, none⟩ := by
    intro rest _
    rw [hjson]
    show Json.Reader.runFirst Conditions.objectFirst
      (some '{' :: (Source.ofChars (Json.renderFields fields) ++ rest)) = _
    rw [Json.runFirst_cons (by decide), Conditions.objectFirst, if_pos (by decide)]
    exact hfills.objectBody rest
  rw [conditionsOf, sourceOf_letters, Message.write, Json.toText, String.toList_ofList]
  simp only [Conditions.read, hread.parseSource]
  rfl

/-! ## The round trip -/

/-- A token is accepted with the key it was issued with until it is too old. -/
theorem verify_encode (secret : String) (claims : Claims) (now : Tally) :
    verify secret now (encode secret claims) =
      if claims.expires.val < now.val - leeway then .error .expired else .ok claims := by
  have hsignature : '.' ∉ Base64.encode .url
      (sign secret (letters (Message.write Header.standard) ++ '.' :: letters (Message.write claims))) :=
    Base64.point_not_mem_encode _
  rw [verify, encode, String.toList_ofList, splitAtLastPoint_append hsignature]
  simp only [splitAtLastPoint_append (point_not_mem_letters (Message.write claims)),
    messageOf_letters header_fits, messageOf_letters (claims_fits claims),
    Base64.decode?_encode, conditionsOf_claims]
  have hheader : (Message.ofValue (Message.toValue Header.standard) : Header) = Header.standard :=
    rfl
  have hclaims : (Message.ofValue (Message.toValue claims) : Claims) = claims := rfl
  rw [hheader, hclaims, if_neg (by decide), if_neg (by simp)]
  split
  · rfl
  · rw [if_neg (by decide)]

/-- The claims of a token name the account that it was issued for. -/
theorem userId?_claimsFor (hours now : Tally) (id : Id) (username : String)
    (authorities : List String) :
    (claimsFor hours now id username authorities).userId? = some id := by
  rw [Claims.userId?, claimsFor, Numeral.ofInt, String.toList_ofList]
  exact Numeral.read?_whole id

end Token
end BotFleet
