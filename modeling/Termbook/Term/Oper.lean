/-! # Binary operators

The sixteen operators on numbers, each with its symbol and its name. -/

namespace Termbook

/-- A binary operator on 64-bit numbers. -/
inductive Oper where
  /-- Addition, `+`. -/
  | add
  /-- Subtraction, `-`. -/
  | sub
  /-- Multiplication, `*`. -/
  | mul
  /-- Division, `/`. -/
  | div
  /-- Remainder, `%`. -/
  | mod
  /-- Bitwise conjunction, `&`. -/
  | and
  /-- Bitwise disjunction, `|`. -/
  | or
  /-- Bitwise exclusive disjunction, `^`. -/
  | xor
  /-- Left shift, `<<`. -/
  | shl
  /-- Right shift, `>>`. -/
  | shr
  /-- Less or equal, `<=`. -/
  | lte
  /-- Less, `<`. -/
  | ltn
  /-- Equal, `==`. -/
  | eql
  /-- Greater or equal, `>=`. -/
  | gte
  /-- Greater, `>`. -/
  | gtn
  /-- Not equal, `!=`. -/
  | neq
  deriving DecidableEq, Repr

namespace Oper

/-- All operators, each one before those whose symbols are a shorter beginning of its own. -/
def all : List Oper :=
  [add, sub, mul, div, mod, and, or, xor, shl, shr, lte, ltn, eql, gte, gtn, neq]

/-- The symbol that stands for an operator in a term. -/
def symbol : Oper → String
  | add => "+"
  | sub => "-"
  | mul => "*"
  | div => "/"
  | mod => "%"
  | and => "&"
  | or => "|"
  | xor => "^"
  | shl => "<<"
  | shr => ">>"
  | lte => "<="
  | ltn => "<"
  | eql => "=="
  | gte => ">="
  | gtn => ">"
  | neq => "!="

/-- The name that stands for an operator in a term's debug form. -/
def name : Oper → String
  | add => "ADD"
  | sub => "SUB"
  | mul => "MUL"
  | div => "DIV"
  | mod => "MOD"
  | and => "AND"
  | or => "OR"
  | xor => "XOR"
  | shl => "SHL"
  | shr => "SHR"
  | lte => "LTE"
  | ltn => "LTN"
  | eql => "EQL"
  | gte => "GTE"
  | gtn => "GTN"
  | neq => "NEQ"

/-- The operator with a symbol. -/
def ofSymbol? (symbol : String) : Option Oper :=
  all.find? (·.symbol == symbol)

/-- Every operator is listed. -/
theorem mem_all (oper : Oper) : oper ∈ all := by
  cases oper <;> decide

/-- A symbol belongs to one operator only. -/
theorem ofSymbol?_symbol (oper : Oper) : ofSymbol? oper.symbol = some oper := by
  cases oper <;> decide

end Oper

end Termbook
