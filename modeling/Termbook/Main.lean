import Termbook.Command.Session

/-! # The command line program -/

open Termbook

/-- What is found at a path. -/
def lookUp (path : String) : IO Source := do
  try
    return .file (← IO.FS.readBinFile path)
  catch
    | .noFileOrDirectory .. => return .unreadable .noSuchFile
    | .inappropriateType _ number reason =>
        return .unreadable (if number = 21 then .isDirectory else .other number.toNat reason)
    | .permissionDenied _ number reason => return .unreadable (.other number.toNat reason)
    | error => return .unreadable (.other 5 (toString error))

/-- Format the text that the arguments name, and exit as the run ends. -/
def main (args : List String) : IO UInt32 := do
  let config := Config.ofArgs (← IO.currentDir).toString args
  let source ← match config with
    | none => pure (.file .empty)
    | some config => lookUp config.inputPath
  let started ← IO.monoMsNow
  let report := (Session.fresh.run config source).2
  let elapsed := (← IO.monoMsNow) - started
  IO.print (report.output (toString elapsed))
  match report.ending with
  | .exit status => return status.toUInt32
  | .undecodable =>
      IO.eprintln "The input is no UTF-8 text."
      return 1
  | .endless => return 1
