import EndpointPreview.Cli.Arguments
import EndpointPreview.Cli.Report
import EndpointPreview.Config.Codec
/-!
Runs of the command line. What a run needs of the machine is given to it, so that it can be made
on a disk or on files held in memory.
-/

namespace EndpointPreview.Cli

inductive FileFault
  | missing
  | denied
  | notDirectory
  | isDirectory
  | nameTooLong
  | other (reason : String)
deriving DecidableEq

def FileFault.message : FileFault → String
  | .missing => "No such file or directory (os error 2)"
  | .denied => "Permission denied (os error 13)"
  | .notDirectory => "Not a directory (os error 20)"
  | .isDirectory => "Is a directory (os error 21)"
  | .nameTooLong => "File name too long (os error 36)"
  | .other reason => reason

structure System (m : Type → Type) where
  settingsFile : Option String
  settingsDirectory : Option String
  fileExists : String → m Bool
  readFile : String → m (Except FileFault String)
  readInput : m (Except FileFault String)

structure Outcome where
  status : Nat
  output : String
  error : String
deriving DecidableEq

inductive Failure
  | unreadableSettings (cause : FileFault)
  | badSettings (path : String)
  | unreadableFile (path : String) (cause : FileFault)
  | unreadableInput (cause : FileFault)
  | badConfig (fault : Json.Fault)

def Failure.message : Failure → String
  | .unreadableSettings cause => "IO error: " ++ cause.message ++ ": " ++ cause.message
  | .badSettings path => "Invalid settings file " ++ path ++ ": malformed settings"
  | .unreadableFile path cause => "reading " ++ path ++ ": " ++ cause.message
  | .unreadableInput cause => cause.message
  | .badConfig fault => "Invalid endpoint configuration: " ++ fault.message

variable {m : Type → Type} [Monad m]

def settingsAt (system : System m) (path : String) : ExceptT Failure m Settings := do
  match ← system.readFile path with
  | .error cause => throw (.unreadableSettings cause)
  | .ok content =>
    match Settings.ofToml? content with
    | none => throw (.badSettings path)
    | some settings => return settings

def settingsCandidates (system : System m) : List String :=
  "restql.toml" :: (system.settingsDirectory.map (· ++ "/restql/config.toml")).toList

def firstExisting (system : System m) : List String → m (Option String)
  | [] => return none
  | path :: paths => do
    if ← system.fileExists path then return some path else firstExisting system paths

def loadSettings (system : System m) (named : Option String) : ExceptT Failure m Settings := do
  match named.or system.settingsFile with
  | some path => settingsAt system path
  | none =>
    match ← (firstExisting system (settingsCandidates system) : m (Option String)) with
    | some path => settingsAt system path
    | none => return {}

def loadConfig (system : System m) (file : String) : ExceptT Failure m Config := do
  let content ←
    if file = "-" then
      match ← system.readInput with
      | .ok content => pure content
      | .error cause => throw (.unreadableInput cause)
    else
      match ← system.readFile file with
      | .ok content => pure content
      | .error cause => throw (.unreadableFile file cause)
  match Config.codec.decode content with
  | .ok config => return config
  | .error fault => throw (.badConfig fault)

def runCommand (system : System m) (settings : Settings) : Command → ExceptT Failure m Outcome
  | .compile file format host => do
    let config ← loadConfig system file
    let preview := config.preview (host.getD settings.host)
    return ⟨0, previewReport (format.getD settings.format) config preview, ""⟩
  | .validate file => do
    let config ← loadConfig system file
    let preview := config.preview settings.host
    return ⟨if preview.isValid then 0 else 1, validationReport preview, ""⟩
  | .operators => return ⟨0, operatorReport, ""⟩

def usage : String :=
  "Usage: restql [--config FILE] (compile FILE [--format text|json] [--host HOST] | " ++
    "validate FILE | operators)\n"

def run (system : System m) (arguments : List String) : m Outcome :=
  match Request.ofArguments? arguments with
  | none => return ⟨2, "", usage⟩
  | some .version => return ⟨0, "restql 0.3.0\n", ""⟩
  | some .help => return ⟨0, usage, ""⟩
  | some (.run named command) => do
    let result ← (do
      let settings ← loadSettings system named
      runCommand system settings command : ExceptT Failure m Outcome).run
    match result with
    | .ok outcome => return outcome
    | .error failure => return ⟨1, "", "Error: " ++ failure.message ++ "\n"⟩

end EndpointPreview.Cli
