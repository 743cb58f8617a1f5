import BotFleet.Frame

/-
Payloads and the frames that they are.

`Parts` says where a text is parted, without a scan: at an empty line before which no
other one starts.  There is at most one such place, and the scan finds it.  A token
holds no line break, so what `encode` has put between the method and the body is the
first empty line of the payload, whatever the body holds, and a payload that is decoded
is the encoding of what it is decoded to.
-/

namespace BotFleet

/-- The methods of a set have different tokens without a line break in them, and none of
the set is left out of its table. -/
class Method.Lawful (μ : Type) [Method μ] : Prop where
  mem_all : ∀ m : μ, m ∈ Method.all
  token_injective : ∀ m m' : μ, Method.token m = Method.token m' → m = m'
  unbroken : ∀ m : μ, '\n' ∉ (Method.token m).toList

instance : Method.Lawful ClientMethod where
  mem_all m := by cases m <;> decide
  token_injective m m' := by cases m <;> cases m' <;> decide
  unbroken m := by cases m <;> decide

instance : Method.Lawful ServerMethod where
  mem_all m := by cases m <;> decide
  token_injective m m' := by cases m <;> cases m' <;> decide
  unbroken m := by cases m <;> decide

theorem Method.ofToken?_eq_some_iff {μ : Type} [Method μ] [Method.Lawful μ] {t : String} {m : μ} :
    Method.ofToken? t = some m ↔ Method.token m = t := by
  constructor
  · intro h
    exact beq_iff_eq.mp (List.find?_some (p := fun m => Method.token m == t) h)
  · rintro rfl
    cases hfound : Method.ofToken? (μ := μ) (Method.token m) with
    | none =>
      have hother := List.find?_eq_none.mp hfound m (Method.Lawful.mem_all m)
      simp at hother
    | some m' =>
      have htoken := beq_iff_eq.mp
        (List.find?_some (p := fun m' => Method.token m' == Method.token m) hfound)
      rw [Method.Lawful.token_injective m' m htoken]

theorem Method.ofToken?_eq_none_iff {μ : Type} [Method μ] [Method.Lawful μ] {t : String} :
    Method.ofToken? (μ := μ) t = none ↔ ∀ m : μ, Method.token m ≠ t := by
  rw [Option.eq_none_iff_forall_ne_some]
  exact forall_congr' fun m => not_congr Method.ofToken?_eq_some_iff

namespace Frame

/-! ## The first empty line -/

/-- A text is parted by its first empty line. -/
structure Parts (text before after : List Char) : Prop where
  eq : text = before ++ '\n' :: '\n' :: after
  first : ∀ before' after', text = before' ++ '\n' :: '\n' :: after' →
    before.length ≤ before'.length

variable {text before after before' after' : List Char}

theorem Parts.unique (h : Parts text before after) (h' : Parts text before' after') :
    before = before' ∧ after = after' := by
  have hlength : before.length = before'.length :=
    Nat.le_antisymm (h.first _ _ h'.eq) (h'.first _ _ h.eq)
  obtain ⟨hbefore, hrest⟩ := List.append_inj (h.eq.symm.trans h'.eq) hlength
  cases hrest
  exact ⟨hbefore, rfl⟩

theorem Parts.emptyLine (h : Parts text before after) : ['\n', '\n'] <:+: text :=
  ⟨before, after, by rw [h.eq]; simp⟩

theorem parts_of_splitAtSeparator (h : splitAtSeparator text = some (before, after)) :
    Parts text before after := by
  fun_induction splitAtSeparator text generalizing before after with
  | case1 rest =>
    cases h
    exact ⟨rfl, fun _ _ _ => Nat.zero_le _⟩
  | case2 c rest hbreak ih =>
    obtain ⟨⟨before, after⟩, hsplit, hboth⟩ := Option.map_eq_some_iff.mp h
    cases hboth
    obtain ⟨heq, hfirst⟩ := ih hsplit
    refine ⟨congrArg (c :: ·) heq, ?_⟩
    intro before' after' htext
    cases before' with
    | nil =>
      cases htext
      exact (hbreak _ rfl rfl).elim
    | cons x before' =>
      cases htext
      exact Nat.succ_le_succ (hfirst before' after' rfl)
  | case3 => cases h

theorem splitAtSeparator_eq_none_iff :
    splitAtSeparator text = none ↔ ¬['\n', '\n'] <:+: text := by
  fun_induction splitAtSeparator text with
  | case1 rest =>
    refine ⟨nofun, fun h => (h ?_).elim⟩
    exact ⟨[], rest, rfl⟩
  | case2 c rest hbreak ih =>
    rw [Option.map_eq_none_iff, ih, List.infix_cons_iff]
    have hstart : ¬['\n', '\n'] <+: c :: rest := by
      rintro ⟨after, heq⟩
      cases heq
      exact hbreak after rfl rfl
    exact ⟨fun h => not_or.mpr ⟨hstart, h⟩, fun h => (not_or.mp h).2⟩
  | case3 => simp

theorem splitAtSeparator_eq_some_iff :
    splitAtSeparator text = some (before, after) ↔ Parts text before after := by
  refine ⟨parts_of_splitAtSeparator, fun h => ?_⟩
  cases hsplit : splitAtSeparator text with
  | none => exact absurd h.emptyLine (splitAtSeparator_eq_none_iff.mp hsplit)
  | some found =>
    obtain ⟨rfl, rfl⟩ := (parts_of_splitAtSeparator hsplit).unique h
    rfl

/-- A token in front of an empty line is all there is before the first one. -/
theorem parts_of_unbroken (h : '\n' ∉ before) :
    Parts (before ++ '\n' :: '\n' :: after) before after := by
  refine ⟨rfl, fun before' after' heq => Nat.le_of_not_lt fun hshort => ?_⟩
  rcases List.append_eq_append_iff.mp heq with ⟨mid, rfl, -⟩ | ⟨mid, rfl, hmid⟩
  · rw [List.length_append] at hshort
    omega
  · cases mid with
    | nil => simp at hshort
    | cons c mid =>
      rw [List.cons_append, List.cons.injEq] at hmid
      rw [← hmid.1] at h
      simp at h

/-! ## Decoding -/

variable {μ : Type} [Method μ] {payload : String}

theorem Parts.ne_empty (h : Parts payload.toList before after) : payload ≠ "" := by
  rintro rfl
  simpa using h.eq

theorem decode_of_parts (h : Parts payload.toList before after) :
    (decode payload : Except Fault (Frame μ)) =
      match Method.ofToken? (String.ofList before) with
      | none => .error (.unknownMethod (String.ofList before))
      | some method => .ok ⟨method, String.ofList after⟩ := by
  have hfilled : payload.isEmpty = false := by
    rw [Bool.eq_false_iff, ne_eq, String.isEmpty_iff]
    exact h.ne_empty
  rw [decode, hfilled, splitAtSeparator_eq_some_iff.mpr h]
  rfl

theorem decode_of_unparted (hfilled : payload ≠ "") (h : ¬['\n', '\n'] <:+: payload.toList) :
    (decode payload : Except Fault (Frame μ)) = .error .noSeparator := by
  have hempty : payload.isEmpty = false := by
    rw [Bool.eq_false_iff, ne_eq, String.isEmpty_iff]
    exact hfilled
  rw [decode, hempty, splitAtSeparator_eq_none_iff.mpr h]
  rfl

/-- A payload is empty, or it has no empty line, or its first one parts it. -/
theorem empty_or_unparted_or_parts (payload : String) :
    payload = "" ∨ (payload ≠ "" ∧ ¬['\n', '\n'] <:+: payload.toList) ∨
      ∃ before after, Parts payload.toList before after := by
  by_cases hempty : payload = ""
  · exact .inl hempty
  · cases hsplit : splitAtSeparator payload.toList with
    | none => exact .inr (.inl ⟨hempty, splitAtSeparator_eq_none_iff.mp hsplit⟩)
    | some found => exact .inr (.inr ⟨_, _, splitAtSeparator_eq_some_iff.mp hsplit⟩)

theorem decode_eq_empty_iff :
    (decode payload : Except Fault (Frame μ)) = .error .empty ↔ payload = "" := by
  constructor
  · intro h
    rcases empty_or_unparted_or_parts payload with hempty | ⟨hfilled, hunparted⟩ | ⟨_, _, hparts⟩
    · exact hempty
    · rw [decode_of_unparted hfilled hunparted] at h
      cases h
    · rw [decode_of_parts hparts] at h
      split at h <;> cases h
  · rintro rfl
    rfl

theorem decode_eq_noSeparator_iff :
    (decode payload : Except Fault (Frame μ)) = .error .noSeparator ↔
      payload ≠ "" ∧ ¬['\n', '\n'] <:+: payload.toList := by
  constructor
  · intro h
    rcases empty_or_unparted_or_parts payload with rfl | hunparted | ⟨_, _, hparts⟩
    · cases h
    · exact hunparted
    · rw [decode_of_parts hparts] at h
      split at h <;> cases h
  · rintro ⟨hfilled, hunparted⟩
    exact decode_of_unparted hfilled hunparted

theorem toList_encode (frame : Frame μ) :
    frame.encode.toList =
      (Method.token frame.method).toList ++ '\n' :: '\n' :: frame.body.toList := by
  rw [encode, String.toList_append, String.toList_append, List.append_assoc]
  rfl

variable [Method.Lawful μ]

theorem decode_eq_unknownMethod_iff {token : String} :
    (decode payload : Except Fault (Frame μ)) = .error (.unknownMethod token) ↔
      (∃ after, Parts payload.toList token.toList after) ∧
        ∀ m : μ, Method.token m ≠ token := by
  constructor
  · intro h
    rcases empty_or_unparted_or_parts payload with
      rfl | ⟨hfilled, hunparted⟩ | ⟨before, after, hparts⟩
    · cases h
    · rw [decode_of_unparted hfilled hunparted] at h
      cases h
    · rw [decode_of_parts hparts] at h
      split at h
      · rename_i hnone
        cases h
        rw [String.toList_ofList]
        exact ⟨⟨after, hparts⟩, Method.ofToken?_eq_none_iff.mp hnone⟩
      · cases h
  · rintro ⟨⟨after, hparts⟩, hunknown⟩
    rw [decode_of_parts hparts, String.ofList_toList, Method.ofToken?_eq_none_iff.mpr hunknown]

theorem parts_encode (frame : Frame μ) :
    Parts frame.encode.toList (Method.token frame.method).toList frame.body.toList := by
  rw [toList_encode]
  exact parts_of_unbroken (Method.Lawful.unbroken frame.method)

/-- A payload is decoded to a frame if and only if it is the encoding of this frame. -/
theorem decode_eq_ok_iff {frame : Frame μ} :
    (decode payload : Except Fault (Frame μ)) = .ok frame ↔ payload = frame.encode := by
  constructor
  · intro h
    rcases empty_or_unparted_or_parts payload with
      rfl | ⟨hfilled, hunparted⟩ | ⟨before, after, hparts⟩
    · cases h
    · rw [decode_of_unparted hfilled hunparted] at h
      cases h
    · rw [decode_of_parts hparts] at h
      split at h
      · cases h
      · rename_i method hmethod
        cases h
        rw [← String.toList_inj, toList_encode, hparts.eq, Method.ofToken?_eq_some_iff.mp hmethod,
          String.toList_ofList, String.toList_ofList]
  · rintro rfl
    rw [decode_of_parts (parts_encode frame), String.ofList_toList, String.ofList_toList,
      Method.ofToken?_eq_some_iff.mpr rfl]

/-- What becomes of every payload, for one set of methods. -/
structure Decodes (μ : Type) [Method μ] : Prop where
  ok_iff : ∀ (payload : String) (frame : Frame μ),
    decode payload = .ok frame ↔ payload = frame.encode
  empty_iff : ∀ payload : String,
    (decode payload : Except Fault (Frame μ)) = .error .empty ↔ payload = ""
  noSeparator_iff : ∀ payload : String,
    (decode payload : Except Fault (Frame μ)) = .error .noSeparator ↔
      payload ≠ "" ∧ ¬['\n', '\n'] <:+: payload.toList
  unknownMethod_iff : ∀ payload token : String,
    (decode payload : Except Fault (Frame μ)) = .error (.unknownMethod token) ↔
      (∃ after, Parts payload.toList token.toList after) ∧ ∀ m : μ, Method.token m ≠ token

theorem decodes (μ : Type) [Method μ] [Method.Lawful μ] : Decodes μ where
  ok_iff _ _ := decode_eq_ok_iff
  empty_iff _ := decode_eq_empty_iff
  noSeparator_iff _ := decode_eq_noSeparator_iff
  unknownMethod_iff _ _ := decode_eq_unknownMethod_iff

/-- Both directions of the socket decode exactly what they encode, and a refusal says what is
wrong with the payload. -/
theorem decodes_both_directions : Decodes ClientMethod ∧ Decodes ServerMethod :=
  ⟨decodes ClientMethod, decodes ServerMethod⟩

/-- A body may begin with a line break and look like a frame. -/
example : decode "BAD\n\n\nOK\n\n" = .ok (bad "\nOK\n\n") := by rfl

end Frame
end BotFleet
