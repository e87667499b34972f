import EndpointPreview.Settings
/-!
Arguments of the command line: switches in long or short form, a command, and its file.
-/

namespace EndpointPreview.Cli

inductive Command
  | compile (file : String) (format : Option Format) (host : Option String)
  | validate (file : String)
  | operators
deriving DecidableEq

inductive Request
  | run (config : Option String) (command : Command)
  | version
  | help
deriving DecidableEq

inductive Verb
  | compile | validate | operators
deriving DecidableEq

def Verb.ofWord? : String → Option Verb
  | "compile" => some .compile
  | "validate" => some .validate
  | "operators" => some .operators
  | _ => none

inductive Switch
  | config | format | host | version | help
deriving DecidableEq

namespace Switch

def ofLong? : String → Option Switch
  | "config" => some .config
  | "format" => some .format
  | "host" => some .host
  | "version" => some .version
  | "help" => some .help
  | _ => none

def ofShort? : Char → Option Switch
  | 'f' => some .format
  | 'V' => some .version
  | 'h' => some .help
  | _ => none

def known (verb : Option Verb) : Switch → Bool
  | .config | .help => true
  | .version => verb.isNone
  | .format | .host => verb = some .compile

end Switch

inductive Token
  | switch (which : Switch) (value : Option String)
  | unknown
  | separator
  | word (text : String)
deriving DecidableEq

/-- The value of a short switch follows directly or after an equals sign. -/
def attached : List Char → Option String
  | [] => none
  | '=' :: cs => some (String.ofList cs)
  | cs => some (String.ofList cs)

def Token.of (s : String) : Token :=
  match s.toList with
  | '-' :: '-' :: [] => .separator
  | '-' :: '-' :: cs =>
    let name := cs.takeWhile (· != '=')
    let value := (cs.dropWhile (· != '=')).tail?.map String.ofList
    match Switch.ofLong? (String.ofList name), value with
    | some .version, some _ | some .help, some _ | none, _ => .unknown
    | some which, value => .switch which value
  | '-' :: c :: cs =>
    match Switch.ofShort? c with
    | some which => .switch which (attached cs)
    | none => .unknown
  | _ => .word s

structure Line where
  verb : Option Verb := none
  outerConfig : Option String := none
  config : Option String := none
  format : Option Format := none
  host : Option String := none
  file : Option String := none
  separated : Bool := false

inductive Stop
  | usage | version | help
deriving DecidableEq

namespace Line

/-- A switch is given once, and only with values that it knows. -/
def set (line : Line) (which : Switch) (value : String) : Except Stop Line :=
  match which with
  | .config =>
    if line.config.isSome then .error .usage else .ok { line with config := some value }
  | .host => if line.host.isSome then .error .usage else .ok { line with host := some value }
  | .format =>
    match line.format, Format.ofWord? value with
    | none, some format => .ok { line with format := some format }
    | _, _ => .error .usage
  | .version | .help => .error .usage

def word (line : Line) (text : String) : Except Stop Line :=
  match line.verb with
  | none =>
    match Verb.ofWord? text with
    | some verb =>
      if line.separated then .error .usage
      else .ok { line with verb := some verb, outerConfig := line.config, config := none }
    | none => .error .usage
  | some .operators => .error .usage
  | some _ =>
    if line.file.isSome then .error .usage else .ok { line with file := some text }

def read (line : Line) (arguments : List String) : Except Stop Line :=
  match arguments with
  | [] => .ok line
  | argument :: rest =>
    if line.separated then do read (← line.word argument) rest
    else match Token.of argument, rest with
      | .separator, rest => read { line with separated := true } rest
      | .word text, rest => do read (← line.word text) rest
      | .unknown, _ => .error .usage
      | .switch which value, rest =>
        if !which.known line.verb then .error .usage
        else match which, value, rest with
          | .version, _, _ => .error .version
          | .help, _, _ => .error .help
          | which, some value, rest => do read (← line.set which value) rest
          | _, none, [] => .error .usage
          | which, none, next :: rest =>
            match Token.of next with
            | .word value => do read (← line.set which value) rest
            | _ => .error .usage
termination_by arguments.length

def command? (line : Line) : Option Command :=
  match line.verb, line.file with
  | some .compile, some file => some (.compile file line.format line.host)
  | some .validate, some file => some (.validate file)
  | some .operators, _ => some .operators
  | _, _ => none

end Line

def isHelp : List String → Bool
  | ["help"] => true
  | ["help", word] => word = "help" || (Verb.ofWord? word).isSome
  | _ => false

def Request.ofArguments? (arguments : List String) : Option Request :=
  if isHelp arguments then some .help
  else match Line.read {} arguments with
    | .error .usage => none
    | .error .version => some .version
    | .error .help => some .help
    | .ok line => line.command?.map (.run (line.config.or line.outerConfig))

end EndpointPreview.Cli
