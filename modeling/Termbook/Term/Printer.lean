import Termbook.Node.Printer

/-! # Printing terms -/

namespace Termbook

namespace Term

/-- The canonical text of a term. -/
def render (term : Term) : String :=
  (Node.ofTerm term).render

end Term

end Termbook
