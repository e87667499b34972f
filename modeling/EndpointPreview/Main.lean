import EndpointPreview.Cli.Run
/-!
The program: runs of the command line on the machine's files.
-/

open EndpointPreview

namespace EndpointPreview.Cli

def FileFault.ofError (e : IO.Error) : FileFault :=
  match e with
  | .noFileOrDirectory _ _ _ => .missing
  | .permissionDenied _ _ _ => .denied
  | .inappropriateType _ 20 _ => .notDirectory
  | .inappropriateType _ _ _ => .isDirectory
  | .invalidArgument _ 36 _ => .nameTooLong
  | e => .other (toString e)

def attempt (action : IO String) : IO (Except FileFault String) := do
  try
    return .ok (← action)
  catch e =>
    return .error (.ofError e)

def userDirectory : IO (Option String) := do
  match ← IO.getEnv "XDG_CONFIG_HOME" with
  | some directory => return some directory
  | none => return (← IO.getEnv "HOME").map (· ++ "/.config")

def machine : IO (System IO) := do
  return {
    settingsFile := ← IO.getEnv "RESTQL_CONFIG"
    settingsDirectory := ← userDirectory
    fileExists := fun path => do
      match ← attempt (IO.FS.readFile path) with
      | .ok _ => return true
      | .error cause => return cause ∉ [.missing, .notDirectory, .nameTooLong]
    readFile := fun path => attempt (IO.FS.readFile path)
    readInput := do attempt (do (← IO.getStdin).readToEnd) }

end EndpointPreview.Cli

def main (arguments : List String) : IO UInt32 := do
  let outcome ← Cli.run (← Cli.machine) arguments
  (← IO.getStdout).putStr outcome.output
  (← IO.getStderr).putStr outcome.error
  return UInt32.ofNat outcome.status
