import Termbook.Command.Session
import Termbook.Proofs.LineEnds

/-! # What a run leaves behind

The runs of a session have one thing in common, whether the reading is traced. A run that gets to
read its text leaves tracing off; any other run leaves it as it was, or on if it asks for a trace.
So tracing stays on from a run that asks for a trace in vain until some text is read, and that
reading is traced whether it asks for it or not. Nothing else in a report depends on earlier
runs. -/

namespace Termbook

open Cursor (start)

/-! ## Runs -/

/-- A run of the command line: what the arguments ask for, and what is found at the path. -/
abbrev Run := Option Config × Source

namespace Run

/-- The text that a run gets to read. -/
def text? : Run → Option (List Char)
  | (some _, .file content) => decodeText? content
  | _ => none

/-- Whether a run asks for a trace. -/
def asksTrace (run : Run) : Bool :=
  run.1.any Config.debug

/-- What a run does in a session of its own. -/
def alone (run : Run) : Report :=
  (Session.fresh.run run.1 run.2).2

/-- The trace of what a run reads, line by line. -/
def traceLines (run : Run) : List String :=
  match run.1, run.text? with
  | some config, some text =>
      (config.mode.formatter (start text)).trace.map (Event.line text.length)
  | _, _ => []

/-- What a run does by itself, with the trace of its reading before it. -/
def traced (run : Run) : Report :=
  { run.alone with printed := run.traceLines ++ run.alone.printed }

end Run

/-! ## One run -/

namespace Session

/-- A run that reads its text leaves tracing off. Any other one leaves it on if it was on or if the
run asks for it. -/
theorem tracing_run (session : Session) (run : Run) :
    (session.run run.1 run.2).1.tracing =
      (run.text?.isNone && (session.tracing || run.asksTrace)) := by
  obtain ⟨config, source⟩ := run
  cases config with
  | none => simp [Session.run, Run.text?, Run.asksTrace]
  | some config =>
      cases source with
      | unreadable error => simp [Session.run, Run.text?, Run.asksTrace]
      | file content =>
          cases decoded : decodeText? content with
          | none => simp [Session.run, Run.text?, Run.asksTrace, decoded]
          | some text => simp [Session.run, Run.text?, decoded]

/-- Tracing shows in a report as lines before those that are there without it. -/
theorem format_true (config : Config) (text : List Char) :
    format true config text =
      { format false config text with
        printed := (config.mode.formatter (start text)).trace.map (Event.line text.length) ++
          (format false config text).printed } := by
  simp only [format]
  cases (config.mode.formatter (start text)).outcome <;> simp

/-- Whether tracing is on already makes a difference to no run that asks for a trace. -/
theorem report_of_asksTrace {run : Run} (asks : run.asksTrace = true) (session : Session) :
    (session.run run.1 run.2).2 = run.alone := by
  obtain ⟨_ | config, source⟩ := run
  · rfl
  · have debug : config.debug = true := asks
    simp only [Run.alone, Session.run, debug, Bool.or_true]

/-- If tracing is on, a run that does not ask for it has its reading traced. -/
theorem report_of_tracing {run : Run} (asksNot : run.asksTrace = false) :
    ((Session.mk true).run run.1 run.2).2 = run.traced := by
  obtain ⟨_ | config, source⟩ := run
  · rfl
  · have quiet : config.debug = false := asksNot
    rcases source with error | content
    · rfl
    · cases decoded : decodeText? content with
      | none => simp [Run.traced, Run.traceLines, Run.alone, Run.text?, Session.run, decoded]
      | some text =>
          have banner : banner config = [] := by
            simp only [Session.banner, quiet]
            rfl
          simp only [Run.traced, Run.traceLines, Run.alone, Run.text?, Session.run, decoded, banner,
            quiet, Bool.or_false, format_true]
          rfl

/-- What a run does in a session: what it does by itself, with the trace of its reading before it if
tracing is on without the run's asking for it. -/
theorem report_run (session : Session) (run : Run) :
    (session.run run.1 run.2).2 =
      if session.tracing = true ∧ run.asksTrace = false then run.traced else run.alone := by
  obtain ⟨tracing⟩ := session
  cases tracing with
  | false =>
      rw [if_neg fun both => absurd both.1 (by decide)]
      rfl
  | true =>
      cases asks : run.asksTrace with
      | true =>
          -- the run would have turned tracing on anyway
          rw [if_neg fun both => absurd both.2 (by decide)]
          exact report_of_asksTrace asks ⟨true⟩
      | false =>
          rw [if_pos ⟨rfl, rfl⟩]
          exact report_of_tracing asks

end Session

/-! ## Many runs -/

/-- The session after some runs. -/
def Session.after (session : Session) (runs : List Run) : Session :=
  runs.foldl (fun session run => (session.run run.1 run.2).1) session

/-- Some runs leave tracing on: a run asked for a trace, and from it on no run read its text. -/
def LeavesTracing (runs : List Run) : Prop :=
  ∃ earlier run later, runs = earlier ++ run :: later ∧ run.asksTrace = true ∧
    ∀ other ∈ run :: later, other.text? = none

/-- One more run leaves tracing on if it does not read its text, and either asks for a trace or
comes after runs that leave tracing on. -/
theorem leavesTracing_concat (runs : List Run) (run : Run) :
    LeavesTracing (runs ++ [run]) ↔
      run.text? = none ∧ (LeavesTracing runs ∨ run.asksTrace = true) := by
  constructor
  · rintro ⟨earlier, asking, later, split, asks, unread⟩
    -- the run that asks is the last one, or it is among the others
    rcases List.eq_nil_or_concat later with rfl | ⟨later, last, rfl⟩
    · obtain ⟨rfl, same⟩ := List.append_inj' split rfl
      obtain rfl : run = asking := List.singleton_inj.mp same
      exact ⟨unread run List.mem_cons_self, .inr asks⟩
    · rw [List.concat_eq_append, ← List.cons_append, ← List.append_assoc] at split
      obtain ⟨rfl, same⟩ := List.append_inj' split rfl
      obtain rfl : run = last := List.singleton_inj.mp same
      refine ⟨unread run (by simp), .inl ⟨earlier, asking, later, rfl, asks, ?_⟩⟩
      intro other member
      rw [List.concat_eq_append, ← List.cons_append] at unread
      exact unread other (List.mem_append_left _ member)
  · rintro ⟨unread, ⟨earlier, asking, later, rfl, asks, before⟩ | asks⟩
    · refine ⟨earlier, asking, later ++ [run], by simp, asks, fun other member => ?_⟩
      rw [← List.cons_append] at member
      rcases List.mem_append.mp member with member | member
      · exact before other member
      · rwa [List.mem_singleton.mp member]
    · refine ⟨runs, run, [], rfl, asks, fun other member => ?_⟩
      rwa [List.mem_singleton.mp member]

namespace Session

/-- The last run comes after all others. -/
theorem after_concat (session : Session) (runs : List Run) (run : Run) :
    session.after (runs ++ [run]) = ((session.after runs).run run.1 run.2).1 := by
  rw [after, List.foldl_append]
  rfl

/-- Tracing is on after some runs if and only if they leave it on. -/
theorem tracing_after_iff (runs : List Run) :
    (Session.fresh.after runs).tracing = true ↔ LeavesTracing runs := by
  induction runs using List.reverseRecOn with
  | nil =>
      constructor
      · exact nofun
      · rintro ⟨earlier, run, later, split, -⟩
        simp at split
  | append_singleton runs run ih =>
      rw [after_concat, tracing_run, leavesTracing_concat, ← ih]
      simp

instance (runs : List Run) : Decidable (LeavesTracing runs) :=
  decidable_of_iff _ (tracing_after_iff runs)

/-- The report of a run is that of the run in the session after the earlier ones. -/
theorem runAll_getElem? (session : Session) (runs : List Run) (i : Nat) :
    (session.runAll runs)[i]? =
      runs[i]?.map fun run => ((session.after (runs.take i)).run run.1 run.2).2 := by
  induction runs generalizing session i with
  | nil => rfl
  | cons run runs ih =>
      obtain ⟨config, source⟩ := run
      cases i with
      | zero => rfl
      | succ i =>
          simp only [runAll, List.getElem?_cons_succ, List.take_succ_cons, ih]
          rfl

/-- Runs that read their texts wherever they ask for a trace leave tracing off. -/
theorem not_leavesTracing {runs : List Run}
    (read : ∀ run ∈ runs, run.asksTrace = true → run.text? ≠ none) : ¬LeavesTracing runs := by
  rintro ⟨earlier, run, later, rfl, asks, unread⟩
  exact read run (by simp) asks (unread run List.mem_cons_self)

/-- If every run that asks for a trace gets to read its text, each run does what it does by itself,
and tracing is off in the end. -/
theorem runAll_eq_map_alone {runs : List Run}
    (read : ∀ run ∈ runs, run.asksTrace = true → run.text? ≠ none) :
    Session.fresh.runAll runs = runs.map Run.alone ∧ Session.fresh.after runs = .fresh := by
  constructor
  · refine List.ext_getElem? fun i => ?_
    rw [runAll_getElem?, List.getElem?_map]
    refine congrArg (Option.map · _) (funext fun run => ?_)
    have off : ¬LeavesTracing (runs.take i) :=
      not_leavesTracing fun run member => read run (List.mem_of_mem_take member)
    rw [report_run, if_neg fun both => off ((tracing_after_iff _).mp both.1)]
  · have off : ¬(Session.fresh.after runs).tracing = true :=
      mt (tracing_after_iff runs).mp (not_leavesTracing read)
    rw [Bool.not_eq_true] at off
    exact congrArg Session.mk off

/-- In a session each run does what it does by itself. The one exception is a run that does not ask
for a trace, after runs of which one asked for it and none has read its text since: it does the same
with the trace of its reading before it. And tracing is on after some runs just in that case. -/
theorem runAll_reports (runs : List Run) :
    (∀ i, (Session.fresh.runAll runs)[i]? =
        runs[i]?.map fun run =>
          if LeavesTracing (runs.take i) ∧ run.asksTrace = false then run.traced
          else run.alone) ∧
      ((Session.fresh.after runs).tracing = true ↔ LeavesTracing runs) := by
  refine ⟨fun i => ?_, tracing_after_iff runs⟩
  simp only [runAll_getElem?, report_run, tracing_after_iff]

/-- A run that asks for a trace and finds no file has the reading of the next run traced. -/
theorem missing_file_leaves_tracing :
    let first : Run := (some ⟨"/gone", .book, true, false⟩, .unreadable .noSuchFile)
    let second : Run := (some ⟨"/there", .term, false, false⟩, .file "x".toUTF8)
    (Session.fresh.after [first]).tracing = true ∧
      Session.fresh.runAll [first, second] =
        [first.alone, ⟨["[PARSE] var @ 0", "x"], false, .exit 0⟩] ∧
      second.alone = ⟨["x"], false, .exit 0⟩ ∧
      Session.fresh.runAll [first, second] ≠ [first, second].map Run.alone := by
  intro first second
  have decoded : decodeText? "x".toUTF8 = some ['x'] := decodeText?_toUTF8 "x"
  have read : Parser.term (start ['x']) =
      ⟨[.accepted "var" (start ['x'])], .done (.var "x") (start [])⟩ := by
    rw [Parser.term_eq_body]
    rfl
  have rendered : (Term.var "x").render = "x" := by
    rw [Term.render_eq_plain, Term.plain]
  have formatted (tracing : Bool) : format tracing ⟨"/there", .term, false, false⟩ ['x'] =
      ⟨if tracing then ["[PARSE] var @ 0", "x"] else ["x"], false, .exit 0⟩ := by
    simp only [format, Mode.formatter, Parser.map_apply, read, rendered]
    cases tracing <;> rfl
  have alone : second.alone = ⟨["x"], false, .exit 0⟩ := by
    simp only [second, Run.alone, Session.run, decoded, formatted]
    rfl
  have together : Session.fresh.runAll [first, second] =
      [first.alone, ⟨["[PARSE] var @ 0", "x"], false, .exit 0⟩] := by
    simp only [first, second, runAll, Session.run, decoded, formatted]
    rfl
  refine ⟨rfl, together, alone, fun same => ?_⟩
  rw [together, List.map_cons, List.map_singleton, alone] at same
  simp at same

end Session

end Termbook
