import BotFleet.Password
import BotFleet.Proofs.Crypto.Base64
import BotFleet.Proofs.Text.Numeral
import BotFleet.Proofs.Text.Utf8

/-
Hashes as they are stored.

A stored hash has the cost in two digits between dollar signs, and after them the salt
and the digest in sixty-four letters.  No letter is a dollar sign, and sixteen bytes of
salt always fill the same number of letters, so the text falls into its parts again.
A password that is checked against such a text therefore belongs to it or does not, and
the check itself cannot fail.
-/

namespace BotFleet

/-- Three blocks are twenty-four bytes, and the last of them is left out. -/
theorem Blowfish.length_digest (cost : Nat) (salt key : List UInt8) :
    (digest cost salt key).length = 23 := by
  have hblocks : ∀ f : Block → Block,
      (((seed.map f).flatMap fun x => bytesOf x.left ++ bytesOf x.right).take 23).length = 23 :=
    fun _ => rfl
  exact hblocks ((schedule cost salt key).encryptTimes 64)

namespace Password

/-- A text that stores a cost that is allowed, a salt of sixteen bytes and a digest of
twenty-three. -/
inductive IsHash : String → Prop
  | mk {cost : Cost} {salt digest : List UInt8} (hcost : isCost cost = true)
    (hsalt : salt.length = 16) (hdigest : digest.length = 23) :
    IsHash (storedText cost salt digest)

/-- Whatever is hashed with sixteen bytes of salt is stored as such a text. -/
theorem isHash_of_hash {cost : Cost} {salt : List UInt8} {password stored : String}
    (hsalt : salt.length = 16) (h : hash cost salt password = .ok stored) : IsHash stored := by
  rw [hash, digest] at h
  split at h
  · rename_i hcost
    cases h
    exact .mk hcost hsalt (Blowfish.length_digest _ _ _)
  · cases h

/-! ## Reading a hash -/

theorem dollar_not_mem_encode (bytes : List UInt8) : '$' ∉ Base64.encode .password bytes := by
  have hletters : '$' ∉ Base64.Alphabet.password.letters := by decide +kernel
  exact fun h => hletters (Base64.mem_letters_of_mem_encode h)

theorem dollar_not_mem_twoDigits (n : Nat) : '$' ∉ twoDigits n := by
  intro h
  have hdigit : '$'.isDigit = true := by
    rcases List.mem_append.mp h with h | h
    · split at h
      · cases List.mem_singleton.mp h
      · cases h
    · exact Numeral.isDigit_of_mem_natural h
  exact absurd hdigit (by decide)

theorem read?_twoDigits (cost : Cost) :
    Numeral.read? 0 4294967295 (twoDigits cost.val.toNat) = some cost := by
  have hcost := cost.property
  have hnat : ((cost.val.toNat : Nat) : Int) = cost.val := Int.toNat_of_nonneg hcost.1
  have hread : Numeral.read 0 4294967295 (twoDigits cost.val.toNat) = .ok cost.val := by
    rw [twoDigits, ← hnat]
    split
    · exact Numeral.read_zero_cons (by omega)
    · exact Numeral.read_natural (by omega)
  rw [Numeral.read?, hread]
  exact Ranged.ofInt?_val cost

theorem length_utf8_letters (bytes : List UInt8) :
    (Utf8.encode (Base64.encode .password bytes)).length = (4 * bytes.length + 2) / 3 := by
  have hletters : Base64.Alphabet.password.letters.all (fun c => c.utf8Size == 1) = true := by
    decide +kernel
  have hsize : ∀ c ∈ Base64.encode .password bytes, c.utf8Size = 1 := fun c hc =>
    beq_iff_eq.mp (List.all_eq_true.mp hletters c (Base64.mem_letters_of_mem_encode hc))
  rw [Utf8.length_encode_of_utf8Size hsize, Base64.length_encode]

theorem parts_storedText (cost : Cost) {salt digest : List UInt8} (hsalt : salt.length = 16) :
    parts (storedText cost salt digest).toList =
      [['2', 'b'], twoDigits cost.val.toNat,
        Base64.encode .password salt ++ Base64.encode .password digest] := by
  have hrest : '$' ∉ Base64.encode .password salt ++ Base64.encode .password digest := by
    rw [List.mem_append]
    exact fun h => h.elim (dollar_not_mem_encode salt) (dollar_not_mem_encode digest)
  have hsplit : (storedText cost salt digest).toList.splitOn '$' =
      [[], ['2', 'b'], twoDigits cost.val.toNat,
        Base64.encode .password salt ++ Base64.encode .password digest] := by
    rw [storedText, String.toList_ofList, List.append_assoc]
    show ([] ++ '$' :: (['2', 'b'] ++ '$' :: (twoDigits cost.val.toNat ++ '$' ::
      (Base64.encode .password salt ++ Base64.encode .password digest)))).splitOn '$' = _
    rw [List.splitOn_append_cons_self_of_not_mem (by simp),
      List.splitOn_append_cons_self_of_not_mem (by decide),
      List.splitOn_append_cons_self_of_not_mem (dollar_not_mem_twoDigits _),
      List.splitOn_eq_singleton hrest]
  have hdigits : (twoDigits cost.val.toNat).isEmpty = false := by
    obtain ⟨c, cs, hnatural, -⟩ := Numeral.natural_eq_cons cost.val.toNat
    simp [twoDigits, hnatural]
  have hletters : (Base64.encode .password salt ++ Base64.encode .password digest).isEmpty =
      false := by
    rw [List.isEmpty_eq_false_iff, ← List.length_pos_iff, List.length_append, Base64.length_encode,
      hsalt]
    omega
  rw [parts, hsplit]
  simp [hdigits, hletters]

theorem ofText_storedText {cost : Cost} {salt digest : List UInt8} (hsalt : salt.length = 16)
    (hdigest : digest.length = 23) :
    Stored.ofText (storedText cost salt digest) =
      .ok ⟨cost, Base64.encode .password salt, Base64.encode .password digest⟩ := by
  have hletters : (Base64.encode .password salt).length = 22 := by
    rw [Base64.length_encode, hsalt]
  have hname : schemeNames.contains ['2', 'b'] = true := by decide
  rw [Stored.ofText, parts_storedText cost hsalt]
  dsimp only
  rw [if_pos hname, read?_twoDigits]
  dsimp only
  rw [List.take_left' hletters, List.drop_left' hletters, length_utf8_letters, length_utf8_letters,
    hsalt, hdigest]
  rfl

theorem verify_storedText {cost : Cost} {salt digest : List UInt8} (hcost : isCost cost = true)
    (hsalt : salt.length = 16) (hdigest : digest.length = 23) (password : String) :
    verify password (storedText cost salt digest) =
      .ok (Blowfish.digest cost.val.toNat salt (effectiveBytes password) == digest) := by
  have hmade : Password.digest cost salt password =
      .ok (Blowfish.digest cost.val.toNat salt (effectiveBytes password)) := if_pos hcost
  rw [verify, ofText_storedText hsalt hdigest]
  simp only [Base64.decode?_encode, hmade]

/-- A password belongs to a stored hash or does not. -/
theorem IsHash.exists_verify {stored : String} (h : IsHash stored) (password : String) :
    ∃ belongs, verify password stored = .ok belongs := by
  obtain ⟨hcost, hsalt, hdigest⟩ := h
  exact ⟨_, verify_storedText hcost hsalt hdigest password⟩

end Password
end BotFleet
