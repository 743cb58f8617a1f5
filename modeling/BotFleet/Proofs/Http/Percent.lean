import BotFleet.Http.Percent
import BotFleet.Proofs.Text.Numeral
import BotFleet.Proofs.Text.Utf8

/-
Texts that stand for themselves in request targets.
-/

namespace BotFleet
namespace Http
namespace Percent

theorem decode?_of_no_percent {part : String} (h : '%' ∉ part.toList) :
    decode? part = some part := by
  rw [decode?, unescape_of_no_percent h, Utf8.decode?_encode, Option.map_some,
    String.ofList_toList]

theorem decode?_ofInt (n : Int) : decode? (Numeral.ofInt n) = some (Numeral.ofInt n) :=
  decode?_of_no_percent (Numeral.not_mem_ofInt (by decide) (by decide))

/-! ## Fields of a query -/

/-- A field without escapes and plus signs is what it is sent as. -/
theorem decodeField_of_plain {field : List Char} (hpercent : '%' ∉ field) (hplus : '+' ∉ field) :
    decodeField field = String.ofList field := by
  have hblanks : (field.map fun c => if c = '+' then ' ' else c) = field := by
    refine (List.map_congr_left fun c hc => ?_).trans (List.map_id field)
    exact if_neg fun h : c = '+' => hplus (h ▸ hc)
  rw [decodeField, hblanks, unescape_of_no_percent hpercent, Utf8.decodeLossy, Utf8.units_encode,
    List.map_map]
  exact congrArg String.ofList (List.map_id field)

/-- A part of a query is parted at the first equality sign. -/
theorem fieldOf_append {name value : List Char} (hname : '=' ∉ name) :
    fieldOf (name ++ '=' :: value) = (decodeField name, decodeField value) := by
  have hall : ∀ c ∈ name, (c != '=') = true := fun c hc => bne_iff_ne.mpr fun h => hname (h ▸ hc)
  have hfront : (name ++ '=' :: value).takeWhile (· != '=') = name := by
    rw [List.takeWhile_append_of_pos hall, List.takeWhile_cons_of_neg (by decide), List.append_nil]
  have hrest : (name ++ '=' :: value).drop (name.length + 1) = value := by
    rw [← List.drop_drop, List.drop_left]
    rfl
  rw [fieldOf, hfront, hrest]

end Percent
end Http
end BotFleet
