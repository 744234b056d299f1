import Termbook.Book.Reader
import Termbook.Command.Config
import Termbook.Text.Encoding
import Termbook.Text.Quoted

/-! # Sessions

A session runs the command line any number of times. Between the runs it keeps one thing: whether
the reading is traced. Tracing is turned on by a run that asks for it, before its text is even
looked at, and turned off once a text has been read, well or not. -/

namespace Termbook

/-- What is kept between runs. -/
structure Session where
  /-- Whether the next reading is traced. -/
  tracing : Bool
  deriving DecidableEq, Repr

/-- A session before its first run. -/
def Session.fresh : Session := ⟨false⟩

/-- Why a file cannot be read. -/
inductive ReadError where
  /-- There is no such file. -/
  | noSuchFile
  /-- It is a directory. -/
  | isDirectory
  /-- Any other reason of the system, by number and text. -/
  | other (number : Nat) (reason : String)
  deriving DecidableEq, Repr

/-- The system's number and text for a reason. -/
def ReadError.cause : ReadError → Nat × String
  | noSuchFile => (2, "No such file or directory")
  | isDirectory => (21, "Is a directory")
  | other number reason => (number, reason)

/-- What is said about a file that cannot be read. -/
def ReadError.message (error : ReadError) (path : String) : String :=
  "[Errno " ++ toString error.cause.1 ++ "] " ++ error.cause.2 ++ ": " ++ quoted path

/-- What is found at a path. -/
inductive Source where
  /-- Nothing that can be read. -/
  | unreadable (error : ReadError)
  /-- A file with some bytes. -/
  | file (content : ByteArray)

/-- How a run ends. -/
inductive Ending where
  /-- With an exit status. -/
  | exit (status : Nat)
  /-- With a file that is no text. -/
  | undecodable
  /-- Never. -/
  | endless
  deriving DecidableEq, Repr

/-- What a run does. -/
structure Report where
  /-- What it prints, each with a newline after it. -/
  printed : List String
  /-- Whether it tells the time at the end. -/
  timed : Bool
  /-- How it ends. -/
  ending : Ending
  deriving DecidableEq, Repr

/-- All that a run prints, given the time in milliseconds as it is to be told. -/
def Report.output (report : Report) (elapsed : String) : String :=
  let time := if report.timed then ["Time: " ++ elapsed ++ "ms"] else []
  String.join ((report.printed ++ time).map (· ++ "\n"))

/-- Reads a text in a mode and answers its canonical text. -/
def Mode.formatter : Mode → Parser String
  | term => Term.render <$> Parser.term
  | rule => (fun found => found.elim "No rule found." Rule.render) <$> Parser.rule
  | book => Book.render <$> Parser.book

namespace Session

/-- What is told if no argument is given. -/
def usage : String :=
  "Usage: python -m lamtext <input-file> [term|rule|file] [debug] [time]"

/-- What is told first if the reading is to be traced. -/
def banner (config : Config) : List String :=
  if config.debug then
    ["=== lamtext reader ===", "Input: " ++ config.inputPath, "Mode: " ++ config.mode.word, ""]
  else []

/-- Read a text and print its canonical text, after the trace if there is one. -/
def format (tracing : Bool) (config : Config) (text : List Char) : Report :=
  let reply := config.mode.formatter (.start text)
  let trace := if tracing then reply.trace.map (Event.line text.length) else []
  match reply.outcome with
  | .done output _ => ⟨trace ++ [output], config.timing, .exit 0⟩
  | .failed fault => ⟨trace ++ ["Parse error: " ++ (fault.report text).message], false, .exit 1⟩
  | .endless => ⟨trace, false, .endless⟩

/-- Run the command line once, on what is found at the path of its text. -/
def run (session : Session) (config : Option Config) (source : Source) : Session × Report :=
  match config with
  | none => (session, ⟨[usage], false, .exit 2⟩)
  | some config =>
      let tracing := session.tracing || config.debug
      -- a run that never gets to read its text leaves tracing as it has set it
      match source with
      | .unreadable error =>
          (⟨tracing⟩,
            ⟨banner config ++
              ["Failed to read file: " ++ config.inputPath,
                "Error: " ++ error.message config.inputPath], false, .exit 1⟩)
      | .file content =>
          match decodeText? content with
          | none => (⟨tracing⟩, ⟨banner config, false, .undecodable⟩)
          | some text =>
              let report := format tracing config text
              (⟨false⟩, { report with printed := banner config ++ report.printed })

/-- Run the command line several times in one session. -/
def runAll (session : Session) : List (Option Config × Source) → List Report
  | [] => []
  | (config, source) :: rest =>
      let (next, report) := session.run config source
      report :: next.runAll rest

end Session

end Termbook
