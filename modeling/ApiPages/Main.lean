import ApiPages.Command.Run
import Std.Time.DateTime.Timestamp

/-!
# The program
-/

namespace ApiPages

/-- What an error of the system says about a path that was read. A folder is no file. -/
def readFailure : IO.Error → FileRead
  | .noFileOrDirectory .. | .inappropriateType .. => .absent
  | _ => .unreadable

/-- What an error of the system says about a folder that was to be removed. -/
def removalFailure : IO.Error → Removal
  | .noFileOrDirectory .. => .absent
  | _ => .failed

/-- The operations on the files of the system. -/
def systemFiles : FileAccess IO where
  read path := do
    try return .content (← IO.FS.readFile path)
    catch e => return readFailure e
  makeFolder path := do
    try
      unless path.isEmpty do IO.FS.createDirAll path
      return true
    catch _ => return false
  write path content := do
    try
      IO.FS.writeFile path content
      return true
    catch _ => return false
  remove path := do
    try
      IO.FS.removeDirAll path
      return .removed
    catch e => return removalFailure e

/-- The time of the system. -/
def currentTime : IO Instant := do
  let now ← Std.Time.Timestamp.now
  return ⟨now.toSecondsSinceUnixEpoch.val⟩

end ApiPages

/-- Runs the command that the arguments ask for. -/
def main (arguments : List String) : IO UInt32 := do
  let time ← ApiPages.currentTime
  let report ← ApiPages.Command.run ApiPages.systemFiles time.text arguments
  IO.print report.output
  match report.outcome with
  | .done => pure ()
  | .refused => IO.eprint ApiPages.Command.usage
  | .failed f =>
    IO.eprintln ("Error: " ++ f.message)
    for cause in f.causes?.getD [] do
      IO.eprintln ("Caused by: " ++ cause)
  return report.outcome.status.toUInt32
