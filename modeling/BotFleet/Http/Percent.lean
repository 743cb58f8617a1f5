import BotFleet.Text.Digit
import BotFleet.Text.Utf8

/-
Escapes in request targets.

A percent sign and two hexadecimal digits stand for one byte.  A percent sign
without them stands for itself, so every text means something.  In the fields of
a query a plus sign also stands for a blank.
-/

namespace BotFleet
namespace Http
namespace Percent

def byte? (high low : Char) : Option UInt8 := do
  let high ← Digit.hexValue? high
  let low ← Digit.hexValue? low
  return UInt8.ofNat (high * 16 + low)

def unescape : List Char → List UInt8
  | [] => []
  | '%' :: high :: low :: rest =>
    match byte? high low with
    | some b => b :: unescape rest
    | none => String.utf8EncodeChar '%' ++ unescape (high :: low :: rest)
  | c :: rest => String.utf8EncodeChar c ++ unescape rest

theorem unescape_of_no_percent {s : List Char} (h : '%' ∉ s) : unescape s = Utf8.encode s := by
  fun_induction unescape s with
  | case1 => rfl
  | case2 => exact absurd List.mem_cons_self h
  | case3 => exact absurd List.mem_cons_self h
  | case4 c rest _ ih =>
    simp only [Utf8.encode, List.flatMap_cons] at ih ⊢
    rw [ih fun hm => h (List.mem_cons_of_mem _ hm)]

def decode? (part : String) : Option String :=
  (Utf8.decode? (unescape part.toList)).map String.ofList

def decodeField (field : List Char) : String :=
  String.ofList (Utf8.decodeLossy (unescape (field.map fun c => if c = '+' then ' ' else c)))

def fieldOf (part : List Char) : String × String :=
  let name := part.takeWhile (· != '=')
  (decodeField name, decodeField (part.drop (name.length + 1)))

def fields (query : String) : List (String × String) :=
  ((query.toList.splitOn '&').filter fun part => !part.isEmpty).map fieldOf

end Percent
end Http
end BotFleet
