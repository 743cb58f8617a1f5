import BotFleet.Json.Message
import BotFleet.Proofs.Json.Compound

/-
Reading back values of a shape.

A shape writes a value and reads it back.  What can stand in the way is said by
`Fits`: a whole number of more than 64 bits, a double with more digits than are
read exactly, an optional value that is itself written as null, and a record with
two fields of one name.  For every value that fits, the reader of its shape takes
exactly its text and yields the value.
-/

namespace BotFleet
namespace Json

/-- The names of a record's fields. -/
def Fields.names : Fields → List String
  | .nil => []
  | .others _ => []
  | .cons name _ _ rest => name :: rest.names

mutual

/-- Whether a value of the shape can be told from its text. -/
def Shape.Fits : (s : Shape) → s.Value → Prop
  | .flag, _ => True
  | .whole _ _, n => FitsWord n.val
  | .real, x => Reads Reader.real (.real x) x
  | .text, _ => True
  | .instant, t => Instant.read? t.text.toList = some t
  | .checked test, j => Reads (Shape.checked test).reader j.val j
  | .optional _, none => True
  | .optional s, some v => s.Fits v ∧ s.toJson v ≠ .null
  | .list s, (vs : List s.Value) => ∀ v ∈ vs, s.Fits v
  | .record fs, vs => fs.names.Nodup ∧ fs.Fit vs
  | .choice _, _ => True
  | .tagged _ s, v => s.Fits v

def Fields.Fit : (fs : Fields) → fs.Values → Prop
  | .nil, _ => True
  | .others _, _ => True
  | .cons _ .refused s rest, (v, vs) => s.Fits v ∧ rest.Fit vs
  | .cons _ .noted _ rest, (none, vs) => rest.Fit vs
  | .cons _ .noted s rest, (some v, vs) => s.Fits v ∧ rest.Fit vs

end

/-! ## Scalars -/

theorem reads_flag (b : Bool) : Reads Reader.flag (.flag b) b := by
  intro rest _
  cases b
  · have hword := word_self ['a', 'l', 's', 'e'] rest
    show Reader.runFirst Reader.flagBody
      (some 'f' :: (Source.ofChars ['a', 'l', 's', 'e'] ++ rest)) = _
    rw [runFirst_cons (by decide), Reader.flagBody, if_neg (by decide), if_pos (by decide), hword]
    rfl
  · have hword := word_self ['r', 'u', 'e'] rest
    show Reader.runFirst Reader.flagBody
      (some 't' :: (Source.ofChars ['r', 'u', 'e'] ++ rest)) = _
    rw [runFirst_cons (by decide), Reader.flagBody, if_pos (by decide), hword]
    rfl

theorem text_quote (t : String) (rest : Source) :
    Reader.text.run (Source.ofChars (quote t.toList) ++ rest) = .ok (t, rest) := by
  show Reader.runFirst Reader.textBody (Source.ofChars (quote t.toList) ++ rest) = _
  rw [ofChars_quote, runFirst_cons (by decide), Reader.textBody, if_pos (by decide),
    characters_quote]
  show Except.ok (String.ofList t.toList, rest) = _
  rw [String.ofList_toList]

theorem reads_text (t : String) : Reads Reader.text (.text t) t :=
  fun rest _ => text_quote t rest

theorem reads_anyNumber {n : Int} (h : FitsWord n) :
    Reads Reader.anyNumber (.int n) (Number.ofWhole n) :=
  reads_number (whole_eq_cons n) fun _ => number_whole .exact h

theorem reads_whole {lo hi : Int} (n : Ranged lo hi) (h : FitsWord n.val) :
    Reads (Reader.whole lo hi) (.int n.val) n := by
  refine (reads_anyNumber h).filterMap ?_
  rw [Number.toInt?_ofWhole h, Option.bind_some, Ranged.ofInt?_val]

/-- A short double is read back from its text. -/
theorem reads_real {x : Double} (h : x.IsShort) : Reads Reader.real (.real x) x :=
  (reads_number (j := .real x) (Number.text_eq_cons (Number.readable_ofDouble x))
    fun _ => number_double .exact h).filterMap (Number.value?_ofDouble h)

theorem reads_choice {names : List String} (n : { n : String // n ∈ names }) :
    Reads (Reader.choice names) (.text n.val) n := by
  intro rest _
  show Reader.runFirst (Reader.choiceBody names) (Source.ofChars (quote n.val.toList) ++ rest) = _
  rw [ofChars_quote, runFirst_cons (by decide), Reader.choiceBody]
  simp only [beq_self_eq_true, if_true, characters_quote, String.ofList_toList, n.property,
    dif_pos]

theorem reads_optional_none {α : Type} (r : Reader α) : Reads r.optional .null none := by
  intro rest _
  have hword := word_self ['u', 'l', 'l'] rest
  have hblank : skipBlanks (Source.ofChars Json.null.render ++ rest) =
      some 'n' :: (Source.ofChars ['u', 'l', 'l'] ++ rest) := skipBlanks_of_not_blank (by decide)
  simp only [Reader.optional, hblank, hword]
  rfl

theorem reads_optional_some {α : Type} {r : Reader α} {j : Json} {a : α} (h : Reads r j a)
    (hne : j ≠ .null) : Reads r.optional j (some a) := by
  intro rest hrest
  obtain ⟨c, cs, hc, hopens, hnull⟩ := render_eq_cons j
  have hrun := h rest hrest
  have hcn : c ≠ 'n' := fun he => hne (hnull he)
  have hblank : skipBlanks (Source.ofChars j.render ++ rest) =
      some c :: (Source.ofChars cs ++ rest) := by
    rw [hc]
    exact skipBlanks_of_not_blank hopens.not_blank
  simp only [Reader.optional, hblank, hrun]
  split
  · rename_i heq
    cases heq
    exact absurd rfl hcn
  · rfl

theorem reads_tagged {α : Type} {name : String} {r : Reader α} {j : Json} {a : α}
    (h : Reads r j a) : Reads (Reader.tagged name r) (.record [(name, j)]) a := by
  intro rest _
  have hvalue := h (some '}' :: rest) (ends_cons (by simp))
  have hrender : Source.ofChars (Json.record [(name, j)]).render ++ rest =
      some '{' :: (Source.ofChars (quote name.toList) ++
        (some ':' :: (Source.ofChars j.render ++ some '}' :: rest))) := by
    rw [← ofChars_field, ← List.cons_append]
    show some '{' :: (Source.ofChars (renderFields [(name, j)]) ++ rest) = _
    rw [ofChars_renderFields]
    rfl
  rw [hrender]
  show Reader.runFirst (Reader.taggedBody name r) (some '{' :: _) = _
  rw [runFirst_cons (by decide), Reader.taggedBody, if_pos (by decide), text_quote]
  simp only [beq_self_eq_true, if_true, mark_self (c := ':') (by decide), hvalue,
    mark_self (c := '}') (by decide)]
  rfl

/-! ## Records -/

/-- What has been read of a record whose fields have all been read. -/
def Fields.filled : (fs : Fields) → fs.Values → fs.Partial
  | .nil, _ => ()
  | .others _, _ => ()
  | .cons _ .refused _ rest, (v, vs) => (some v, rest.filled vs)
  | .cons _ .noted _ rest, (v, vs) => (v, rest.filled vs)

theorem Fields.complete?_filled :
    (fs : Fields) → (vs : fs.Values) → fs.complete? (fs.filled vs) = some vs
  | .nil, _ => rfl
  | .others _, _ => rfl
  | .cons _ .refused _ rest, (v, vs) => by
    simp only [filled, complete?, complete?_filled rest vs]
    rfl
  | .cons _ .noted _ rest, (v, vs) => by
    simp only [filled, complete?, complete?_filled rest vs]
    rfl

theorem Fields.mem_names :
    (fs : Fields) → (vs : fs.Values) → ∀ field ∈ fs.toFields vs, field.1 ∈ fs.names
  | .nil, _ => fun _ h => nomatch h
  | .others _, _ => fun _ h => nomatch h
  | .cons name .refused s rest, (v, vs) => by
    intro field h
    rcases List.mem_cons.mp h with rfl | h
    · exact List.mem_cons_self
    · exact List.mem_cons_of_mem _ (mem_names rest vs field h)
  | .cons name .noted s rest, (none, vs) => fun field h =>
    List.mem_cons_of_mem _ (mem_names rest vs field h)
  | .cons name .noted s rest, (some v, vs) => by
    intro field h
    rcases List.mem_cons.mp h with rfl | h
    · exact List.mem_cons_self
    · exact List.mem_cons_of_mem _ (mem_names rest vs field h)

/-- Fields of other names leave a field as it is. -/
theorem Fills.lift {name : String} {absence : Absence} {s : Shape} {rest : Fields}
    {u w : rest.Partial} {fields : List (String × Json)} (x : Option s.Value)
    (h : Fills rest.slot u fields w) (hname : ∀ field ∈ fields, field.1 ≠ name) :
    Fills (Fields.cons name absence s rest).slot (x, u) fields (x, w) := by
  induction h with
  | nil u => exact .nil _
  | @known u v w other j r fields hslot hread _ ih =>
    have hne : other ≠ name := hname _ List.mem_cons_self
    refine .known (r := r.map fun vs => (x, vs)) ?_ (hread.map _)
      (ih fun field hf => hname field (List.mem_cons_of_mem _ hf))
    simp only [Fields.slot, beq_eq_false_iff_ne.mpr hne, hslot]
    rfl
  | @unknown u w other j fields hslot hskim _ ih =>
    have hne : other ≠ name := hname _ List.mem_cons_self
    refine .unknown ?_ hskim (ih fun field hf => hname field (List.mem_cons_of_mem _ hf))
    simp only [Fields.slot, beq_eq_false_iff_ne.mpr hne, hslot]
    rfl

theorem reads_record {fs : Fields} {vs : fs.Values}
    (h : Fills fs.slot fs.blank (fs.toFields vs) (fs.filled vs)) :
    Reads (Shape.record fs).reader ((Shape.record fs).toJson vs) vs := by
  intro rest _
  have hbody := h.objectBody rest
  show Reader.runFirst (Reader.recordFirst fs.slot fs.blank fs.complete? fs.sequence)
    (some '{' :: (Source.ofChars (renderFields (fs.toFields vs)) ++ rest)) = _
  rw [runFirst_cons (by decide), Reader.recordFirst, if_pos (by decide), hbody]
  simp only [Fields.complete?_filled]
  rfl

/-- The first field of a record and the fields after it. -/
theorem Fills.first {name : String} {absence : Absence} {s : Shape} {rest : Fields} {v : s.Value}
    {w : rest.Partial} {fields : List (String × Json)} (h : Fills rest.slot rest.blank fields w)
    (hv : Reads s.reader (s.toJson v) v) (hname : ∀ field ∈ fields, field.1 ≠ name) :
    Fills (Fields.cons name absence s rest).slot (none, rest.blank)
      ((name, s.toJson v) :: fields) (some v, w) := by
  refine .known (r := s.reader.map fun v => (some v, rest.blank)) ?_ (hv.map _)
    (h.lift (some v) hname)
  simp only [Fields.slot, beq_self_eq_true, if_true]
  rfl

/-- No field after the first has its name. -/
theorem Fields.ne_of_nodup {name : String} {rest : Fields} {vs : rest.Values}
    (h : (name :: rest.names).Nodup) : ∀ field ∈ rest.toFields vs, field.1 ≠ name := by
  intro field hf he
  exact (List.nodup_cons.mp h).1 (he ▸ Fields.mem_names rest vs field hf)

mutual

theorem Shape.reads : (s : Shape) → (v : s.Value) → s.Fits v → Reads s.reader (s.toJson v) v
  | .flag, b, _ => reads_flag b
  | .whole _ _, n, h => reads_whole n h
  | .real, _, h => h
  | .text, t, _ => reads_text t
  | .instant, t, h => (reads_text t.text).filterMap h
  | .checked _, _, h => h
  | .optional s, none, _ => reads_optional_none s.reader
  | .optional s, some v, h => reads_optional_some (Shape.reads s v h.1) h.2
  | .list s, _, h => reads_list fun v hv => Shape.reads s v (h v hv)
  | .record fs, vs, h => reads_record (Fields.fills fs vs h.1 h.2)
  | .choice _, n, _ => reads_choice n
  | .tagged _ s, v, h => reads_tagged (Shape.reads s v h)

theorem Fields.fills : (fs : Fields) → (vs : fs.Values) → fs.names.Nodup → fs.Fit vs →
    Fills fs.slot fs.blank (fs.toFields vs) (fs.filled vs)
  | .nil, _, _, _ => .nil _
  | .others _, _, _, _ => .nil _
  | .cons _ .refused s rest, (v, vs), hnames, h =>
    (Fields.fills rest vs (List.nodup_cons.mp hnames).2 h.2).first (Shape.reads s v h.1)
      (Fields.ne_of_nodup hnames)
  | .cons _ .noted _ rest, (none, vs), hnames, h =>
    (Fields.fills rest vs (List.nodup_cons.mp hnames).2 h).lift none (Fields.ne_of_nodup hnames)
  | .cons _ .noted s rest, (some v, vs), hnames, h =>
    (Fields.fills rest vs (List.nodup_cons.mp hnames).2 h.2).first (Shape.reads s v h.1)
      (Fields.ne_of_nodup hnames)

end

/-! ## Messages -/

namespace Message

variable {α : Type} [Message α]

/-- A message whose value fits is read back from its text. -/
theorem readSource_write {a : α} (h : (shape α).Fits (toValue a)) :
    (readSource (Source.ofChars (write a).toList) : Except Fault α) = .ok (ofValue (toValue a)) := by
  rw [readSource, write, toText, String.toList_ofList, toJson,
    (Shape.reads (shape α) (toValue a) h).parseSource]
  rfl

end Message

end Json
end BotFleet
