import Termbook.Term.Basic
import Termbook.Text.Name
import Termbook.Text.Quoted

/-! # Checked parts of terms

Numbers and operators that come from outside are checked before they become part of a term. -/

namespace Termbook

/-- Why something is no part of a term. -/
inductive PartError where
  /-- A number that does not fit into 64 bits. -/
  | numberOutOfRange (number : Int)
  /-- A symbol that belongs to no operator. -/
  | unknownOperator (symbol : String)
  deriving DecidableEq, Repr

/-- What is said about a part that was refused. -/
def PartError.message : PartError → String
  | .numberOutOfRange number => "Num out of 64-bit range: " ++ toString number
  | .unknownOperator symbol => quoted symbol ++ " is not a valid Oper"

/-- A number as a term, unless it is negative or too large. -/
def Term.ofInt (number : Int) : Except PartError Term :=
  if 0 ≤ number ∧ number ≤ maxNumber then .ok (.num (UInt64.ofNat number.toNat))
  else .error (.numberOutOfRange number)

/-- The operator with a symbol, or the complaint that there is none. -/
def Oper.named (symbol : String) : Except PartError Oper :=
  match Oper.ofSymbol? symbol with
  | some oper => .ok oper
  | none => .error (.unknownOperator symbol)

end Termbook
