import Termbook.Proofs.Order
import Termbook.Proofs.Sessions

/-! # The tracing switch

Whether a reading is traced is asked wherever something could be noted. Here the readers are written
with that question in them. They turn out to be the readers that always note, seen with or without
their events, since every way to put parsers together keeps what is seen apart from how a reply
ends. So the switch reaches no value, no place and no fault. A run prints the same with tracing on
and off, except for the lines of the trace, which come first. -/

namespace Termbook

open Termbook.Parser
open Cursor (start)

variable {α β ι : Type}

/-! ## What is seen of a reply -/

/-- A reply as it is seen: its events only if the reading is traced. -/
def Reply.seen (tracing : Bool) (reply : Reply α) : Reply α :=
  ⟨if tracing then reply.trace else [], reply.outcome⟩

@[simp] theorem Reply.outcome_seen (tracing : Bool) (reply : Reply α) :
    (reply.seen tracing).outcome = reply.outcome := rfl

namespace Parser

/-- A parser as it is seen: with the events of its replies only if the reading is traced. -/
def seen (tracing : Bool) (parser : Parser α) : Parser α := fun c => (parser c).seen tracing

variable (tracing : Bool)

theorem seen_apply (parser : Parser α) (c : Cursor) :
    parser.seen tracing c = (parser c).seen tracing := rfl

/-- Nothing is missed of a parser that notes nothing. -/
theorem seen_eq_self {parser : Parser α}
    (silent : Always (fun reply => reply.trace = []) parser) : parser.seen tracing = parser := by
  funext c
  have nothing : (parser c).trace = [] := silent c
  rw [seen_apply]
  revert nothing
  rcases parser c with ⟨trace, outcome⟩
  rintro rfl
  cases tracing <;> rfl

/-! ## Parsers put together -/

@[simp] theorem seen_pure (value : α) : (pure value : Parser α).seen tracing = pure value := by
  cases tracing <;> rfl

@[simp] theorem seen_bind (first : Parser α) (next : α → Parser β) :
    (first >>= next).seen tracing =
      first.seen tracing >>= fun value => (next value).seen tracing := by
  funext c
  simp only [seen_apply, bind_apply]
  -- the events of both parts are added up, or left out, either way
  rcases first c with ⟨trace, ⟨value, d⟩ | fault | _⟩ <;> cases tracing <;> rfl

@[simp] theorem seen_map (change : α → β) (parser : Parser α) :
    (change <$> parser).seen tracing = change <$> parser.seen tracing := by
  funext c
  simp only [seen_apply, map_apply]
  rcases parser c with ⟨trace, ⟨value, d⟩ | fault | _⟩ <;> rfl

@[simp] theorem seen_guard (opening : Parser Bool) (body : Parser α) :
    (guard opening body).seen tracing = guard (opening.seen tracing) (body.seen tracing) := by
  funext c
  simp only [seen_apply, guard, ← seen_map]
  rcases opening c with ⟨trace, ⟨_ | _, d⟩ | fault | _⟩ <;> cases tracing <;> rfl

@[simp] theorem seen_maybe (parser : Parser (Option α)) :
    (maybe parser).seen tracing = maybe (parser.seen tracing) := by
  funext c
  simp only [seen_apply, maybe]
  rcases parser c with ⟨trace, ⟨_ | _, d⟩ | fault | _⟩ <;> rfl

@[simp] theorem seen_choice (alternatives : List (Parser (Option α))) :
    (choice alternatives).seen tracing = choice (alternatives.map (seen tracing)) := by
  induction alternatives with
  | nil => exact seen_pure tracing none
  | cons alternative others ih =>
      funext c
      simp only [seen_apply, List.map_cons]
      rw [choice, choice, ← ih]
      simp only [seen_apply]
      rcases alternative c with ⟨trace, ⟨_ | _, d⟩ | fault | _⟩ <;> cases tracing <;> rfl

@[simp] theorem seen_grammar (label : String) (alternatives : List (Parser (Option α))) :
    (grammar label alternatives).seen tracing =
      grammar label (alternatives.map (seen tracing)) := by
  funext c
  simp only [grammar, ← seen_choice, seen_apply]
  rcases choice alternatives c with ⟨trace, ⟨_ | _, d⟩ | fault | _⟩ <;> rfl

@[simp] theorem seen_closes (closing : Closing) :
    (closes closing).seen tracing = closes ⟨closing.label, closing.parser.seen tracing⟩ := by
  funext c
  simp only [closes, seen_apply]
  rcases closing.parser c with ⟨trace, ⟨_ | _, d⟩ | fault | _⟩ <;> rfl

@[simp] theorem seen_lookAhead (parser : Parser α) :
    (lookAhead parser).seen tracing = lookAhead (parser.seen tracing) := by
  funext c
  simp only [lookAhead, seen_apply]
  rcases parser c with ⟨trace, ⟨_, d⟩ | fault | _⟩ <;> rfl

theorem seen_ite (condition : Prop) [Decidable condition] (parser other : Parser α) :
    (if condition then parser else other).seen tracing =
      if condition then parser.seen tracing else other.seen tracing :=
  apply_ite (seen tracing) condition parser other

/-! ## Recursion -/

theorem seen_below (limit : Nat) (parser : Parser α) :
    (below limit parser).seen tracing = below limit (parser.seen tracing) := by
  funext c
  simp only [seen_apply, below]
  split
  · rfl
  · cases tracing <;> rfl

/-- A recursive parser is seen as the recursion of its step as that is seen. -/
theorem seen_fix {step shown : (ι → Parser α) → ι → Parser α}
    (same : ∀ again parameter, (step again parameter).seen tracing =
      shown (fun next => (again next).seen tracing) parameter) (parameter : ι) :
    seen tracing (fix step parameter) = fix shown parameter := by
  funext c
  induction size : c.remaining using Nat.strongRecOn generalizing parameter c with
  | ind size ih =>
      -- the step asks for the recursion only where less is left, and there it is known
      have inner (next : ι) : (below c.remaining (fix step next)).seen tracing =
          below c.remaining (fix shown next) :=
        (seen_below tracing _ _).trans (below_congr fun d less => ih _ (size ▸ less) next d rfl)
      calc (fix step parameter c).seen tracing
          = (step (fun next => below c.remaining (fix step next)) parameter).seen tracing c :=
            congrArg (Reply.seen tracing) (fix_eq_below step parameter c)
        _ = shown (fun next => below c.remaining (fix shown next)) parameter c := by
            rw [same]
            exact congrArg (shown · parameter c) (funext inner)
        _ = fix shown parameter c := (fix_eq_below shown parameter c).symm

/-! ## Parsers that note nothing -/

@[simp] theorem seen_token (pattern : List Char) : (token pattern).seen tracing = token pattern :=
  seen_eq_self tracing (inherited_silent.token pattern)

@[simp] theorem seen_require (pattern : List Char) :
    (require pattern).seen tracing = require pattern :=
  seen_eq_self tracing (inherited_silent.require pattern)

@[simp] theorem seen_requireName : requireName.seen tracing = requireName :=
  seen_eq_self tracing inherited_silent.requireName

@[simp] theorem seen_fail (expected : String) :
    (fail expected : Parser α).seen tracing = fail expected :=
  seen_eq_self tracing (inherited_silent.fail expected)

@[simp] theorem seen_failAt (expected : String) (place : Cursor) :
    (failAt expected place : Parser α).seen tracing = failAt expected place :=
  seen_eq_self tracing (inherited_silent.failAt expected place)

@[simp] theorem seen_atEnd : atEnd.seen tracing = atEnd :=
  seen_eq_self tracing inherited_silent.atEnd

@[simp] theorem seen_skip : skip.seen tracing = skip :=
  seen_eq_self tracing inherited_silent.skip

@[simp] theorem seen_here : here.seen tracing = here :=
  seen_eq_self tracing inherited_silent.here

/-! ## Repetition -/

theorem seen_manyUntilFrom (closing : Closing) (element : Nat → Parser α) (number : Nat) :
    (manyUntilFrom closing element number).seen tracing =
      manyUntilFrom ⟨closing.label, closing.parser.seen tracing⟩
        (fun number => (element number).seen tracing) number := by
  refine seen_fix tracing (fun again number => ?_) number
  simp only [seen_bind, seen_closes, seen_ite, seen_pure, seen_lookAhead, seen_atEnd, seen_fail]

theorem seen_manyUntil (pattern : List Char) (element : Parser α) :
    (manyUntil (.token pattern) element).seen tracing =
      manyUntil (.token pattern) (element.seen tracing) := by
  rw [manyUntil, seen_manyUntilFrom, Closing.token, seen_token]
  rfl

theorem seen_sequence (opening closing : List Char) (element : Parser α) :
    (sequence opening closing element).seen tracing =
      sequence opening closing (element.seen tracing) := by
  simp only [sequence, seen_bind, seen_require, seen_manyUntil]

end Parser

/-! ## Bodies and openings -/

namespace Form

variable (tracing : Bool)

theorem seen_lamHead : lamHead.seen tracing = lamHead :=
  seen_eq_self tracing inherited_silent.bodyClosed.lamHead

theorem seen_operReader : operReader.seen tracing = operReader :=
  seen_eq_self tracing inherited_silent.operReader

theorem seen_lstItem (term : Parser Term) :
    (lstItem term).seen tracing = lstItem (term.seen tracing) := by
  simp only [lstItem, seen_bind, seen_token, seen_pure]

/-- A body notes nothing itself, so what is seen of it is what is seen of the subterms. -/
theorem seen_body (term : Parser Term) (form : Form) :
    (form.body term).seen tracing = form.body (term.seen tracing) := by
  cases form with
  | letIn => simp only [body, letBody, seen_bind, seen_require, seen_requireName, seen_pure]
  | dup => simp only [body, dupBody, seen_bind, seen_require, seen_requireName, seen_pure]
  | lam =>
      simp only [body, lamBody, seen_bind, seen_ite, seen_lamHead, seen_fail, seen_requireName,
        seen_pure]
  | ctr =>
      simp only [body, ctrBody, seen_bind, seen_ite, seen_token, seen_requireName, seen_manyUntil,
        seen_pure]
  | op2 => simp only [body, op2Body, seen_bind, seen_require, seen_operReader, seen_pure]
  | app => simp only [body, appBody, seen_map, seen_sequence]
  | num => exact seen_eq_self tracing inherited_silent.numBody
  | chr => exact seen_eq_self tracing inherited_silent.chrBody
  | str => exact seen_eq_self tracing inherited_silent.strBody
  | lst => simp only [body, lstBody, seen_map, seen_sequence, seen_lstItem]
  | var => simp only [body, varBody, seen_map, seen_requireName]

/-- An opening notes nothing. -/
theorem seen_opening (form : Form) : form.opening.seen tracing = form.opening := by
  funext c
  obtain ⟨d, opened⟩ := form.opening_apply c
  rw [seen_apply, opened]
  cases tracing <;> rfl

end Form

/-! ## Readers with a switch -/

namespace Switched

variable (tracing : Bool)

/-- Note an event of this place if the reading is traced. -/
def note (event : Cursor → Event) : Parser Unit :=
  if tracing then Parser.note event else pure ()

/-- Read a term in a form, if the form applies; note the form if the reading is traced. -/
def form (term : Parser Term) (form : Form) : Parser (Option Term) :=
  guard form.opening do
    note tracing (.accepted form.label)
    form.body term

/-- The parser of terms, with a switch for its notes. -/
def term : Parser Term :=
  fix (fun self _ => grammar "Term" (Form.all.map (form tracing (self ())))) ()

/-- The parser of rules, with a switch for its notes. -/
def rule : Parser (Option Rule) :=
  maybe do
    let some lhs ← choice (Form.all.map (form tracing (term tracing))) | return none
    if ← token ['='] then
      let rhs ← term tracing
      return some ⟨lhs, rhs⟩
    return none

/-- The parser of a rule of a book, with a switch for its notes. -/
def numberedRule (number : Nat) : Parser Rule := do
  let _ ← skip
  let place ← here
  let some read ← rule tracing | failAt "definition" place
  note tracing fun _ => .ruleRead number place read
  return read

/-- The parser of books, with a switch for its notes. -/
def book : Parser Book :=
  Book.mk <$> manyUntilFrom (.ofParser atEnd) (numberedRule tracing) 0

/-- Reads a text in a mode and answers its canonical text, with a switch for the notes. -/
def formatter : Mode → Parser String
  | .term => Term.render <$> term tracing
  | .rule => (fun found => found.elim "No rule found." Rule.render) <$> rule tracing
  | .book => Book.render <$> book tracing

/-- A note with a switch is a note as it is seen. -/
theorem note_eq_seen (event : Cursor → Event) :
    note tracing event = (Parser.note event).seen tracing := by
  cases tracing <;> rfl

theorem form_seen (term : Parser Term) (form : Form) :
    Switched.form tracing (term.seen tracing) form = (form.parser term).seen tracing := by
  simp only [Switched.form, Form.parser, guarded, seen_guard, seen_bind, Form.seen_opening,
    Form.seen_body, note_eq_seen]

theorem forms_seen (term : Parser Term) :
    Form.all.map (form tracing (term.seen tracing)) =
      (Form.parsers term).map (Parser.seen tracing) := by
  rw [Form.parsers, List.map_map]
  exact List.map_congr_left fun form _ => form_seen tracing term form

/-- The parser of terms with a switch is the parser of terms as it is seen. -/
theorem term_eq_seen : term tracing = Parser.term.seen tracing := by
  refine (seen_fix tracing (fun again _ => ?_) ()).symm
  rw [seen_grammar, forms_seen]

/-- The parser of rules with a switch is the parser of rules as it is seen. -/
theorem rule_eq_seen : rule tracing = Parser.rule.seen tracing := by
  rw [rule, Parser.rule, seen_maybe, seen_bind, seen_choice, term_eq_seen, forms_seen]
  refine congrArg maybe (congrArg (_ >>= ·) (funext fun lhs => ?_))
  cases lhs with
  | none => exact (seen_pure tracing none).symm
  | some lhs => simp only [seen_bind, seen_ite, seen_token, seen_pure]

theorem numberedRule_eq_seen (number : Nat) :
    numberedRule tracing number = (Parser.numberedRule number).seen tracing := by
  simp only [numberedRule, Parser.numberedRule, seen_bind, seen_skip, seen_here, rule_eq_seen]
  refine congrArg (_ >>= ·) (funext fun _ => congrArg (_ >>= ·) (funext fun place =>
    congrArg (_ >>= ·) (funext fun read => ?_)))
  cases read with
  | none => exact (seen_failAt tracing _ _).symm
  -- here the switch is asked
  | some read => simp only [seen_bind, note_eq_seen, seen_pure]

/-- The parser of books with a switch is the parser of books as it is seen. -/
theorem book_eq_seen : book tracing = Parser.book.seen tracing := by
  rw [book, Parser.book, seen_map, seen_manyUntilFrom, Closing.ofParser, seen_atEnd,
    funext (numberedRule_eq_seen tracing)]

theorem formatter_eq_seen (mode : Mode) :
    formatter tracing mode = mode.formatter.seen tracing := by
  cases mode with
  | term => rw [formatter, Mode.formatter, seen_map, term_eq_seen]
  | rule => rw [formatter, Mode.formatter, seen_map, rule_eq_seen]
  | book => rw [formatter, Mode.formatter, seen_map, book_eq_seen]

end Switched

/-! ## Runs -/

/-- A text begins with the mark of traces. -/
def Marked (text : String) : Prop :=
  ∃ rest, text = "[PARSE] " ++ rest

/-- What is written after a marked text leaves it marked. -/
theorem Marked.append {text : String} (marked : Marked text) (more : String) :
    Marked (text ++ more) := by
  obtain ⟨rest, rfl⟩ := marked
  exact ⟨rest ++ more, String.append_assoc⟩

/-- Every line of a trace is marked. -/
theorem Event.marked_line (length : Nat) (event : Event) : Marked (event.line length) := by
  cases event with
  | accepted label place =>
      have mark : Marked "[PARSE] " := ⟨"", by decide⟩
      exact ((mark.append label).append " @ ").append _
  | ruleRead number place rule =>
      have mark : Marked "[PARSE] Read rule " := ⟨"Read rule ", by decide⟩
      exact ((((mark.append _).append " @ ").append _).append ": ").append _

/-- Reading a text and printing its canonical text comes to an end in every mode. -/
theorem ends_formatter (mode : Mode) (c : Cursor) : (mode.formatter c).outcome.Ends := by
  cases mode with
  | term => exact inherited_ends.map _ ends_term c
  | rule => exact inherited_ends.map _ ends_rule c
  | book => exact inherited_ends.map _ ends_book c

/-- A run that does not name the word for tracing asks for no trace. -/
theorem asksTrace_ofArgs {directory : String} {args : List String} (source : Source)
    (unasked : "debug" ∉ args.tail) :
    Run.asksTrace (Config.ofArgs directory args, source) = false := by
  cases args with
  | nil => rfl
  | cons path words => simpa [Run.asksTrace, Config.ofArgs] using unasked

namespace Session

/-- What a run prints of a reply and how it ends: all that was noted, then the answer. It asks
nothing about tracing. -/
def reportOf (config : Config) (text : List Char) (reply : Reply String) : Report :=
  let trace := reply.trace.map (Event.line text.length)
  match reply.outcome with
  | .done output _ => ⟨trace ++ [output], config.timing, .exit 0⟩
  | .failed fault => ⟨trace ++ ["Parse error: " ++ (fault.report text).message], false, .exit 1⟩
  | .endless => ⟨trace, false, .endless⟩

/-- A run reads its text by the parser with the switch. -/
theorem format_eq_reportOf (tracing : Bool) (config : Config) (text : List Char) :
    format tracing config text =
      reportOf config text (Switched.formatter tracing config.mode (start text)) := by
  rw [Switched.formatter_eq_seen, seen_apply, format, reportOf, Reply.outcome_seen]
  cases tracing <;> rfl

/-- A run by itself ends with a status or with a file that is no text. -/
theorem ending_alone (run : Run) :
    (∃ status, run.alone.ending = .exit status) ∨ run.alone.ending = .undecodable := by
  obtain ⟨_ | config, error | content⟩ := run
  -- without arguments the file is not even looked at
  · exact .inl ⟨2, rfl⟩
  · exact .inl ⟨2, rfl⟩
  · exact .inl ⟨1, rfl⟩
  · cases decoded : decodeText? content with
    | none => exact .inr (by simp only [Run.alone, Session.run, decoded])
    | some text =>
        left
        simp only [Run.alone, Session.run, decoded, format]
        rcases ends_formatter config.mode (start text) with ⟨output, next, done⟩ | ⟨fault, failed⟩
        · exact ⟨0, by rw [done]⟩
        · exact ⟨1, by rw [failed]⟩

end Session

namespace Run

/-- A run that reads no text has no trace. -/
theorem traceLines_eq_nil {run : Run} (unread : run.text? = none) : run.traceLines = [] := by
  rw [traceLines, unread]
  cases run.1 <;> rfl

theorem marked_of_mem_traceLines {run : Run} {entry : String} (member : entry ∈ run.traceLines) :
    Marked entry := by
  rw [traceLines] at member
  split at member
  · obtain ⟨event, -, rfl⟩ := List.mem_map.mp member
    exact event.marked_line _
  · contradiction

/-- All that a traced run prints is its trace and then all that it prints by itself. -/
theorem output_traced (run : Run) (elapsed : String) :
    run.traced.output elapsed =
      String.join (run.traceLines.map (· ++ "\n")) ++ run.alone.output elapsed := by
  simp only [traced, Report.output, List.append_assoc, List.map_append, String.join_append]
  rfl

end Run

/-- If a run does not ask for a trace, tracing changes neither how it ends nor what it prints, but
for the lines of the trace, which come first. There are none if no text is read. A run reads its
text by the parser with the switch, and the parsers with the switch answer the value or the fault of
the text whether tracing is on or off. -/
theorem Session.tracing_only_adds_lines (directory : String) (args : List String) (source : Source)
    (unasked : "debug" ∉ args.tail) :
    let run : Run := (Config.ofArgs directory args, source)
    let traced := ((Session.mk true).run run.1 run.2).2
    let plain := ((Session.mk false).run run.1 run.2).2
    ((∃ status, traced.ending = .exit status ∧ plain.ending = .exit status) ∨
        traced.ending = .undecodable ∧ plain.ending = .undecodable) ∧
      (∃ trace : List String, (∀ entry ∈ trace, Marked entry) ∧
        traced = { plain with printed := trace ++ plain.printed } ∧
        (∀ elapsed, traced.output elapsed =
          String.join (trace.map (· ++ "\n")) ++ plain.output elapsed) ∧
        (run.text? = none → trace = [])) ∧
      (∀ tracing config text, Session.format tracing config text =
        Session.reportOf config text (Switched.formatter tracing config.mode (start text))) ∧
      ∀ text,
        ((readTerm text).outcome.Ends ∧ (readRule text).outcome.Ends ∧
          (readBook text).outcome.Ends) ∧
        ∀ tracing, (Switched.term tracing (start text)).outcome = (readTerm text).outcome ∧
          (Switched.rule tracing (start text)).outcome = (readRule text).outcome ∧
          (Switched.book tracing (start text)).outcome = (readBook text).outcome := by
  intro run traced plain
  have added : traced = run.traced := Session.report_of_tracing (asksTrace_ofArgs source unasked)
  have alone : plain = run.alone := rfl
  rw [added, alone]
  -- what tracing adds is the trace of the reading, which is there with tracing off too
  refine ⟨?_, ⟨run.traceLines, ?_, rfl, run.output_traced, Run.traceLines_eq_nil⟩,
    Session.format_eq_reportOf, fun text => ⟨⟨ends_term _, ends_rule _, ends_book _⟩,
      fun tracing => ⟨?_, ?_, ?_⟩⟩⟩
  · rcases Session.ending_alone run with ⟨status, exits⟩ | undecodable
    · exact .inl ⟨status, exits, exits⟩
    · exact .inr ⟨undecodable, undecodable⟩
  · exact fun entry => Run.marked_of_mem_traceLines
  · rw [Switched.term_eq_seen]
    rfl
  · rw [Switched.rule_eq_seen]
    rfl
  · rw [Switched.book_eq_seen]
    rfl

/-- Of a run on a file that holds a variable, tracing adds the line that notes it. -/
theorem Session.tracing_only_adds_lines_variable :
    let run : Run := (Config.ofArgs "/" ["there", "term"], .file "x".toUTF8)
    let traced := ((Session.mk true).run run.1 run.2).2
    let plain := ((Session.mk false).run run.1 run.2).2
    "debug" ∉ ["there", "term"].tail ∧ plain = ⟨["x"], false, .exit 0⟩ ∧
      ∃ trace : List String, (∀ entry ∈ trace, Marked entry) ∧
        traced = { plain with printed := trace ++ plain.printed } ∧
        trace = ["[PARSE] var @ 0"] := by
  intro run traced plain
  have unasked : "debug" ∉ ["there", "term"].tail := by decide
  obtain ⟨-, ⟨trace, marked, added, -⟩, -⟩ :=
    Session.tracing_only_adds_lines "/" ["there", "term"] (.file "x".toUTF8) unasked
  have decoded : decodeText? "x".toUTF8 = some ['x'] := decodeText?_toUTF8 "x"
  have read : Parser.term (start ['x']) =
      ⟨[.accepted "var" (start ['x'])], .done (.var "x") (start [])⟩ := by
    rw [Parser.term_eq_body]
    rfl
  have rendered : (Term.var "x").render = "x" := by
    rw [Term.render_eq_plain, Term.plain]
  have printed (tracing : Bool) : ((Session.mk tracing).run run.1 run.2).2 =
      ⟨if tracing then ["[PARSE] var @ 0", "x"] else ["x"], false, .exit 0⟩ := by
    have config : Config.ofArgs "/" ["there", "term"] =
        some ⟨Path.absolute "/" "there", .term, false, false⟩ := rfl
    simp only [run, config, Session.run, decoded, format, Mode.formatter, Parser.map_apply, read,
      rendered]
    cases tracing <;> rfl
  have alone : plain = ⟨["x"], false, .exit 0⟩ := printed false
  have lines : ["[PARSE] var @ 0"] ++ ["x"] = trace ++ ["x"] := by
    have all : traced = { plain with printed := trace ++ plain.printed } := added
    rw [alone] at all
    exact congrArg Report.printed ((printed true).symm.trans all)
  exact ⟨unasked, alone, trace, marked, added, (List.append_cancel_right lines).symm⟩

end Termbook
