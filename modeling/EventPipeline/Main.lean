import EventPipeline.Command
import Std.Time.DateTime.Timestamp

/-! # Command line

With the word `publish` and a topic, JSON data and perhaps a namespace and a key, one event is
published. Without that word the pipeline of the configuration runs.
-/

namespace EventPipeline

/-- What the file system has under a path. -/
def findFile (path : String) : IO Source := do
  try
    let content ← IO.FS.readBinFile path
    return .file content.data.toList
  catch
    | .inappropriateType .. => return .directory
    | _ => return .missing

/-- The environment of this program, where the system shows it as a file. -/
def currentEnvironment : IO Environment := do
  match ← findFile "/proc/self/environ" with
  | .file block => return .ofBlock block
  | _ => return []

/-- The circumstances of this program, with the two files that a command may look up. -/
def currentSetting : IO Command.Setting := do
  let env ← currentEnvironment
  let envFile ← findFile ".env"
  let timestamp ← Std.Time.Timestamp.now
  let now := Int64.ofInt timestamp.toMillisecondsSinceUnixEpoch.val
  let setting : Command.Setting := ⟨env, fun _ => envFile, now⟩
  let path := Config.path setting.fullEnv
  let config ← findFile path
  return { setting with find := fun name => if name = ".env" then envFile else config }

/-- Prints what was logged. -/
def printLog (log : List LogEntry) : IO Unit :=
  log.forM fun e => IO.println e.line

/-- Prints a complaint, if there is one, and gives the exit code. -/
def finish (result : Except Command.Complaint Unit) : IO UInt32 := do
  match result with
  | .ok () => pure ()
  | .error complaint => IO.eprintln complaint.line
  return (Command.exitCode result).toUInt32

/-- Runs one of the two commands. -/
def runCommand (args : List String) : IO UInt32 := do
  let setting ← currentSetting
  setting.warning?.forM fun warning => IO.eprintln warning
  match args with
  | "publish" :: args =>
    let (result, log) := Command.publish setting args
    printLog log
    finish result
  | _ =>
    let (result?, log) := Command.serve setting false
    printLog log
    match result? with
    | some result => finish result
    | none =>
      while true do
        IO.sleep 1000
      return 0

end EventPipeline

/-- Runs one of the two commands. -/
def main (args : List String) : IO UInt32 := EventPipeline.runCommand args
