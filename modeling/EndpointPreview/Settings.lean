import EndpointPreview.Toml.Reader
import EndpointPreview.Preview
/-!
Settings of the command line, from a TOML document. Unknown keys are passed over; a known key with
a value of another kind is refused.
-/

namespace EndpointPreview

inductive Format
  | text | json
deriving DecidableEq

def Format.ofWord? : String → Option Format
  | "text" => some .text
  | "json" => some .json
  | _ => none

structure Settings where
  host : String := defaultHost
  format : Format := .text
deriving DecidableEq

namespace Settings

/-- The value of a key in a table of known keys, which may also be written as the list of their
values in order. A date has keys of its own, none of them known. -/
def entry? (value : Toml.Value) (key : String) : Option (Option Toml.Value) :=
  match value with
  | .table _ entries => some (entries.lookup key)
  | .list items => some items.head?
  | .tables elements => some (elements.head?.map (.table .header))
  | .scalar .date => some none
  | _ => none

def text? : Toml.Value → Option String
  | .text s => some s
  | _ => none

def isEmpty : Toml.Value → Bool
  | .table _ entries => entries.isEmpty
  | .list items => items.isEmpty
  | .tables elements => elements.isEmpty
  | _ => false

def format? : Toml.Value → Option Format
  | .text s => Format.ofWord? s
  | .table _ [(key, value)] => if isEmpty value then Format.ofWord? key else none
  | _ => none

def read? (entries : Toml.Entries) (table key : String) (default : α)
    (take : Toml.Value → Option α) : Option α :=
  match entries.lookup table with
  | none => some default
  | some value => do
    match ← entry? value key with
    | none => some default
    | some value => take value

def ofToml? (s : String) : Option Settings := do
  let entries ← Toml.document s
  let host ← read? entries "api" "host" defaultHost text?
  let format ← read? entries "output" "format" .text format?
  return { host, format }

end Settings

end EndpointPreview
