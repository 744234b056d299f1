import Termbook.Term.Chain
import Termbook.Text.Literal

/-! # The layout of terms

The canonical text of a term by plain recursion: what is written around the texts of the subterms,
with every constructor examined anew for a string literal and then for a list. It says what the
printer with its stack and its rejected numbers writes. -/

namespace Termbook

namespace Term

/-- What comes onto a spine is smaller than the application or stood there before. -/
theorem sizeOf_le_or_mem_of_mem_spineOnto {term part : Term} {rest : List Term}
    (member : part ∈ term.spineOnto rest) : sizeOf part ≤ sizeOf term ∨ part ∈ rest := by
  fun_induction spineOnto term rest with
  | case1 rest func argm ih =>
      rcases ih member with small | member
      · left; simp only [app.sizeOf_spec]; omega
      · rcases List.mem_cons.mp member with rfl | member
        · left; simp only [app.sizeOf_spec]; omega
        · exact .inr member
  | case2 head rest =>
      rcases List.mem_cons.mp member with rfl | member
      · exact .inl (Nat.le_refl _)
      · exact .inr member

/-- The terms on the spine of an application are smaller than the application. -/
theorem sizeOf_lt_of_mem_spine {func argm part : Term} (member : part ∈ (app func argm).spine) :
    sizeOf part < sizeOf (app func argm) := by
  have : sizeOf part ≤ sizeOf func ∨ part ∈ [argm] := sizeOf_le_or_mem_of_mem_spineOnto member
  simp only [app.sizeOf_spec, List.mem_singleton] at this ⊢
  rcases this with small | rfl <;> omega

/-- The items of a list chain are smaller than the chain. -/
theorem sizeOf_lt_of_mem_toList? {term item : Term} {items : List Term}
    (view : term.toList? = some items) (member : item ∈ items) : sizeOf item < sizeOf term := by
  fun_induction toList? term generalizing items with
  | case1 head rest ih =>
      obtain ⟨others, otherView, rfl⟩ := Option.map_eq_some_iff.mp view
      rcases List.mem_cons.mp member with rfl | member
      · simp only [ctr.sizeOf_spec, List.cons.sizeOf_spec]; omega
      · have := ih otherView member
        simp only [ctr.sizeOf_spec, List.cons.sizeOf_spec]; omega
  | case2 => simp at view
  | case3 => simp_all
  | case4 => simp at view
  | case5 => simp at view

/-- The canonical text of a term, by recursion on its parts. -/
def plain : Term → String
  | var name => name
  | num value => toString value.toNat
  | dup first second expr body =>
      "dup " ++ first ++ " " ++ second ++ " = " ++ plain expr ++ "; " ++ plain body
  | letIn name expr body => "let " ++ name ++ " = " ++ plain expr ++ "; " ++ plain body
  | lam name body => "λ" ++ name ++ " " ++ plain body
  | app func argm =>
      "(" ++ " ".intercalate ((app func argm).spine.attach.map fun part => plain part.1) ++ ")"
  | op2 oper left right =>
      "(" ++ oper.symbol ++ " " ++ plain left ++ " " ++ plain right ++ ")"
  | ctr name args =>
      match (ctr name args).toText?.bind literal? with
      | some literal => String.ofList literal
      | none =>
          match _view : (ctr name args).toList? with
          | some items => "[" ++ ", ".intercalate (items.attach.map fun item => plain item.1) ++ "]"
          | none =>
              "(" ++ name ++ String.join (args.attach.map fun arg => " " ++ plain arg.1) ++ ")"
termination_by term => sizeOf term
decreasing_by
  · simp only [dup.sizeOf_spec]; omega
  · simp only [dup.sizeOf_spec]; omega
  · simp only [letIn.sizeOf_spec]; omega
  · simp only [letIn.sizeOf_spec]; omega
  · simp only [lam.sizeOf_spec]; omega
  · exact sizeOf_lt_of_mem_spine part.2
  · simp only [op2.sizeOf_spec]; omega
  · simp only [op2.sizeOf_spec]; omega
  · exact sizeOf_lt_of_mem_toList? _view item.2
  · have := List.sizeOf_lt_of_mem arg.2
    simp only [ctr.sizeOf_spec]; omega

end Term

end Termbook
