import Termbook.Term.Basic

/-! # Debug form of terms

A term spelled out constructor by constructor, without any sugar and with raw names. -/

namespace Termbook

namespace Term

mutual

/-- The debug form of a term. -/
def debug : Term → String
  | .var name => "Var(" ++ name ++ ")"
  | .dup first second expr body =>
      "Dup(" ++ first ++ ", " ++ second ++ ", " ++ debug expr ++ ", " ++ debug body ++ ")"
  | .letIn name expr body => "Let(" ++ name ++ ", " ++ debug expr ++ ", " ++ debug body ++ ")"
  | .lam name body => "Lam(" ++ name ++ ", " ++ debug body ++ ")"
  | .app func argm => "App(" ++ debug func ++ ", " ++ debug argm ++ ")"
  | .ctr name args => "Ctr(" ++ name ++ ", [" ++ ", ".intercalate (debugList args) ++ "])"
  | .num value => "Num(" ++ toString value.toNat ++ ")"
  | .op2 oper left right =>
      "Op2(" ++ oper.name ++ ", " ++ debug left ++ ", " ++ debug right ++ ")"

/-- The debug forms of a list of terms. -/
def debugList : List Term → List String
  | [] => []
  | term :: rest => debug term :: debugList rest

end

end Term

end Termbook
