/-
Why a call on the store fails.
-/

namespace BotFleet
namespace Store

inductive Fault where
  /-- A row with that identifier or name exists. -/
  | duplicate
  /-- A row that is referred to does not exist. -/
  | dangling
  /-- A row that was asked for does not exist. -/
  | rowMissing
  /-- The store itself does not work. -/
  | broken (detail : String)
deriving DecidableEq, Repr

def Fault.detail : Fault → String
  | .duplicate => "unique constraint failed"
  | .dangling => "foreign key constraint failed"
  | .rowMissing => "no rows returned"
  | .broken detail => detail

end Store
end BotFleet
