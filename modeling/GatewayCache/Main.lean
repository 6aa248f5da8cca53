import GatewayCache.CommandLine

/-! # The program

Reads arguments, settings and files, runs the command, and prints what it leaves.
-/

namespace GatewayCache.Main

open CommandLine

def programName : IO String := do
  let path ← IO.appPath
  return path.fileStem.getD ""

/-- The values of all settings of a program. -/
def settings (program : String) : IO Settings := do
  let config ← IO.getEnv (Setting.config.variableOf program)
  let fetchMembers ← IO.getEnv (Setting.fetchMembers.variableOf program)
  let dispatchRaw ← IO.getEnv (Setting.dispatchRaw.variableOf program)
  return fun
    | .config => config
    | .fetchMembers => fetchMembers
    | .dispatchRaw => dispatchRaw

/-- The bytes of a file, if it can be read. -/
def contents (path : String) : IO (Option ByteArray) := do
  try
    return some (← IO.FS.readBinFile path)
  catch _ => return none

def report (ending : Ending) : IO UInt32 := do
  let output ← IO.getStdout
  output.putStr ending.output
  output.flush
  unless ending.complaint.isEmpty do IO.eprintln ending.complaint
  return ending.code

end GatewayCache.Main

open GatewayCache CommandLine in
def main (arguments : List String) : IO UInt32 := do
  let program ← Main.programName
  let settings ← Main.settings program
  match parse settings arguments with
  | .error error => Main.report error.ending
  | .ok command => do
    let files ← command.files.mapM (fun path => do return (path, ← Main.contents path))
    Main.report (command.run program settings (fun path => (files.lookup path).join))
