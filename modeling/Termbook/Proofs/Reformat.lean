import Termbook.Command.Session
import Termbook.Proofs.Books
import Termbook.Proofs.LineEnds

/-! # Printing a printed book again

A run that finds a printed book in its file reads it back and prints it again. Its line ends are
unified on the way in, before anything is read; so a book is printed as it stands in the file if and
only if there is no carriage return in it, and that can only be the case in its string literals. -/

namespace Termbook

open Termbook.Parser
open Cursor (start)

variable {rules : List Rule}

/-! ## Reading printed books back -/

/-- A printed book is the lines of its rules up to the last one, which has no newline after it. -/
theorem render_append_singleton (front : List Rule) (last : Rule) :
    (Book.mk (front ++ [last])).render.toList = ruleLines front last.render.toList := by
  have nonempty : front ++ [last] ≠ [] := by simp
  have lines := render_append_newline nonempty []
  apply List.append_cancel_right
  rw [lines]
  simp [ruleLines]

/-- A printed rule at the end of a text is the last one that is read. -/
theorem Rule.Printable.outcome_rules {last : Rule} (printable : last.Printable) (number : Nat) :
    (Parser.rules number (start last.render.toList)).outcome = .done [last] (start []) := by
  have shape : last.render.toList =
      last.lhs.render.toList ++ ' ' :: '=' :: ' ' :: (last.rhs.render.toList ++ []) := by
    simp [Rule.render, String.toList_append]
  obtain ⟨atRule, left⟩ :=
    printable.skipGap_start (' ' :: '=' :: ' ' :: (last.rhs.render.toList ++ []))
  have done : (numberedRule number (start last.render.toList)).outcome = .done last (start []) := by
    rw [outcome_numberedRule_eq_done, shape, atRule]
    exact printable.outcome_rule endsName_nil
  -- no newline follows the last rule, and nothing else does
  have ended : (Parser.rules (number + 1) (start [])).outcome = .done [] (start []) := by
    rw [Termbook.outcome_rules]
    rfl
  rw [Termbook.outcome_rules, if_neg, outcome_bind_of_done done, outcome_bind_pure, ended]
  · rfl
  · rw [shape, Cursor.rest_skipGap, Cursor.rest_start]
    exact left

/-- A printed book is read back up to its end. -/
theorem outcome_readBook_printed (printable : ∀ rule ∈ rules, rule.Printable) :
    (readBook (Book.mk rules).render.toList).outcome = .done ⟨rules⟩ (start []) := by
  have sameRules : (Parser.rules 0 (start (Book.mk rules).render.toList)).outcome =
      .done rules (start []) := by
    rcases List.eq_nil_or_concat rules with rfl | ⟨front, last, rfl⟩
    · rw [outcome_rules]
      rfl
    · rw [List.concat_eq_append] at printable ⊢
      have frontPrintable : ∀ rule ∈ front, rule.Printable := fun rule member =>
        printable rule (List.mem_append_left _ member)
      have lastPrintable : last.Printable := printable last (by simp)
      rw [render_append_singleton, outcome_rules_ruleLines frontPrintable,
        lastPrintable.outcome_rules]
      rfl
  rw [readBook, book, outcome_map, sameRules]
  rfl

/-! ## Line ends -/

/-- The rule with line ends unified in both of its sides. -/
def Rule.unified (rule : Rule) : Rule :=
  ⟨rule.lhs.unified, rule.rhs.unified⟩

theorem Rule.Printable.unified {rule : Rule} (printable : rule.Printable) :
    rule.unified.Printable :=
  ⟨Term.Named.unified printable.1, Term.Named.unified printable.2⟩

/-- A printable term turns into the one with line ends unified. -/
theorem Term.Printable.unifies {term : Term} (printable : term.Printable) :
    Unifies term.render.toList term.unified.render.toList := by
  rw [Term.render_eq_plain, Term.render_eq_plain]
  exact (printable.legible true).unifies printable.wellNamed

/-- A printable rule turns into the one with line ends unified. -/
theorem Rule.Printable.unifies {rule : Rule} (printable : rule.Printable) :
    Unifies rule.render.toList rule.unified.render.toList := by
  have equals : Unifies " = ".toList " = ".toList := unifies_self (by decide)
  rw [Rule.render, Rule.render, String.toList_append, String.toList_append, String.toList_append,
    String.toList_append]
  exact (printable.1.unifies.append equals).append printable.2.unifies

/-- A printed book turns into the printed book with line ends unified. -/
theorem unifies_render (printable : ∀ rule ∈ rules, rule.Printable) :
    Unifies (Book.mk rules).render.toList (Book.mk (rules.map Rule.unified)).render.toList := by
  simp only [Book.render]
  induction rules with
  | nil => exact fun _ => rfl
  | cons rule others ih =>
      have first := (printable rule List.mem_cons_self).unifies
      have rest := ih fun other member => printable other (List.mem_cons_of_mem _ member)
      cases others with
      | nil => simpa using first
      | cons other others =>
          have newline : Unifies "\n".toList "\n".toList := unifies_self (by decide)
          simp only [List.map_cons, String.intercalate_cons_cons, String.toList_append] at rest ⊢
          exact (first.append newline).append rest

/-- A printed book with its line ends unified is a printed book again. -/
theorem unifyLineEnds_render (printable : ∀ rule ∈ rules, rule.Printable) :
    unifyLineEnds (Book.mk rules).render.toList =
      (Book.mk (rules.map Rule.unified)).render.toList := by
  have whole := unifies_render printable []
  rw [List.append_nil] at whole
  rw [whole]
  exact List.append_nil _

/-! ## Runs -/

variable {config : Config}

/-- Formatting a printed book prints the book. -/
theorem format_printed (printable : ∀ rule ∈ rules, rule.Printable) (asBook : config.mode = .book) :
    Session.format false config (Book.mk rules).render.toList =
      ⟨[(Book.mk rules).render], config.timing, .exit 0⟩ := by
  have read : (config.mode.formatter (start (Book.mk rules).render.toList)).outcome =
      .done (Book.mk rules).render (start []) := by
    rw [asBook, Mode.formatter, outcome_map, ← readBook, outcome_readBook_printed printable]
    rfl
  simp only [Session.format, read]
  rfl

/-- A quiet run over a printed book prints the book with its line ends unified. -/
theorem run_printed (printable : ∀ rule ∈ rules, rule.Printable) (asBook : config.mode = .book)
    (quiet : config.debug = false) :
    Session.fresh.run (some config) (.file (Book.mk rules).render.toUTF8) =
      (.fresh, ⟨[String.ofList (unifyLineEnds (Book.mk rules).render.toList)], config.timing,
        .exit 0⟩) := by
  have unifiedPrintable : ∀ rule ∈ rules.map Rule.unified, rule.Printable := by
    intro rule member
    obtain ⟨rule, inside, rfl⟩ := List.mem_map.mp member
    exact (printable rule inside).unified
  have formatted := format_printed unifiedPrintable asBook
  have banner : Session.banner config = [] := by
    rw [Session.banner, quiet]
    rfl
  rw [unifyLineEnds_render printable, String.ofList_toList]
  simp only [Session.run, decodeText?_toUTF8, unifyLineEnds_render printable, Session.fresh, quiet,
    Bool.or_self, formatted, banner]
  rfl

/-- What a run prints that tells no time and prints one text. -/
theorem output_singleton (text elapsed : String) (ending : Ending) :
    (Report.mk [text] false ending).output elapsed = text ++ "\n" := by
  simp [Report.output]

/-- A run over a printed book, neither traced nor timed, succeeds and prints the book with its line
ends unified, and a newline after it; so it prints just the book if and only if there is no carriage
return in it. -/
theorem run_reprints_book (rules : List Rule) (printable : ∀ rule ∈ rules, rule.Printable)
    (config : Config) (asBook : config.mode = .book) (quiet : config.debug = false)
    (untimed : config.timing = false) (elapsed : String) :
    let text := (Book.mk rules).render
    let report := (Session.fresh.run (some config) (.file text.toUTF8)).2
    report.ending = .exit 0 ∧
      report.output elapsed = String.ofList (unifyLineEnds text.toList) ++ "\n" ∧
      (report.output elapsed = text ++ "\n" ↔ '\r' ∉ text.toList) := by
  intro text report
  have prints : report = ⟨[String.ofList (unifyLineEnds text.toList)], false, .exit 0⟩ := by
    rw [← untimed]
    exact congrArg Prod.snd (run_printed printable asBook quiet)
  have output : report.output elapsed = String.ofList (unifyLineEnds text.toList) ++ "\n" := by
    rw [prints, output_singleton]
  refine ⟨by rw [prints], output, ?_⟩
  rw [output]
  constructor
  · intro same
    have kept : unifyLineEnds text.toList = text.toList := by
      have characters := congrArg String.toList same
      rw [String.toList_append, String.toList_append, String.toList_ofList] at characters
      exact List.append_cancel_right characters
    rw [← kept]
    exact carriageReturn_notMem_unifyLineEnds text.toList
  · intro none
    rw [unifyLineEnds_eq_self none, String.ofList_toList]

/-- A book of two rules, of which the first has a carriage return in its text: the run succeeds and
prints both rules, but with a newline in that text. -/
theorem run_reprints_book_two :
    let rules := [Rule.mk (.var "f") (.ofText ['a', '\r', 'b']), Rule.mk (.var "g") (.num 1)]
    let report := (Session.fresh.run (some ⟨"/book", .book, false, false⟩)
      (.file (Book.mk rules).render.toUTF8)).2
    (∀ rule ∈ rules, rule.Printable) ∧
      (Book.mk rules).render = "f = \x22a\rb\x22\ng = 1" ∧
      report.ending = .exit 0 ∧ report.output "0" = "f = \x22a\nb\x22\ng = 1\n" ∧
      report.output "0" ≠ (Book.mk rules).render ++ "\n" := by
  intro rules report
  have printable : ∀ rule ∈ rules, rule.Printable := by
    intro rule member
    rcases List.mem_pair.mp member with rfl | rfl
    · exact ⟨.var (by decide), Term.named_ofText _⟩
    · exact ⟨.var (by decide), .num⟩
  have isLiteral : literal? ['a', '\r', 'b'] = some ['\x22', 'a', '\r', 'b', '\x22'] := rfl
  have shape : (Book.mk rules).render = "f = \x22a\rb\x22\ng = 1" := by
    simp +decide [rules, Book.render, Rule.render, Term.render_eq_plain, Term.plain,
      Term.plain_ofText isLiteral]
  have reprints := run_reprints_book rules printable ⟨"/book", .book, false, false⟩ rfl rfl rfl "0"
  have carriageReturn : '\r' ∈ (Book.mk rules).render.toList := by
    rw [shape]
    decide
  refine ⟨printable, shape, reprints.1, ?_, fun same => reprints.2.2.mp same carriageReturn⟩
  rw [reprints.2.1, shape]
  decide

/-- A carriage return in a text is printed as a newline. -/
theorem carriageReturn_not_reprinted :
    (∀ rule ∈ [Rule.mk (.var "f") (.ofText ['\r'])], rule.Printable) ∧
      (Book.mk [⟨.var "f", .ofText ['\r']⟩]).render = "f = \x22\r\x22" ∧
      (Session.fresh.run (some ⟨"/book", .book, false, false⟩)
        (.file (Book.mk [⟨.var "f", .ofText ['\r']⟩]).render.toUTF8)).2.output "0" =
          "f = \x22\n\x22\n" ∧
      "f = \x22\n\x22\n" ≠ (Book.mk [⟨.var "f", .ofText ['\r']⟩]).render ++ "\n" := by
  have printable : ∀ rule ∈ [Rule.mk (.var "f") (.ofText ['\r'])], rule.Printable := by
    intro rule member
    obtain rfl := List.mem_singleton.mp member
    exact ⟨.var (by decide), Term.named_ofText _⟩
  have shape : (Book.mk [⟨.var "f", .ofText ['\r']⟩]).render = "f = \x22\r\x22" := by
    have isLiteral : literal? ['\r'] = some ['\x22', '\r', '\x22'] := rfl
    simp [Book.render, Rule.render, Term.render_eq_plain, Term.plain_ofText isLiteral, Term.plain]
  refine ⟨printable, shape, ?_, ?_⟩
  · rw [run_printed printable rfl rfl, shape]
    rfl
  · rw [shape]
    decide

end Termbook
