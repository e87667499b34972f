import EndpointPreview.Cli.Run
/-!
A folder of files held in memory, as a system to run the command line on. Paths are followed name
by name, and every name but the last has to lead to a directory.
-/

namespace EndpointPreview.Cli

abbrev Folder : Type := List (List String × String)

inductive Place
  | file (content : String)
  | inside (way : List String)
  /-- A directory around the folder, in which no other name is known. -/
  | outside
deriving DecidableEq

namespace Folder

def names (path : String) : List String :=
  (Text.pieces '/' path).filter fun name => name ≠ "" ∧ name ≠ "."

def isDirectory (folder : Folder) (way : List String) : Bool :=
  folder.any fun (file, _) => way.isPrefixOf file && way ≠ file

def longestName : Nat := 255

def longestPath : Nat := 4095

def entry (folder : Folder) (way : List String) : Except FileFault Place :=
  match folder.lookup way with
  | some content => .ok (.file content)
  | none => if folder.isDirectory way then .ok (.inside way) else .error .missing

def step (folder : Folder) (place : Place) (name : String) : Except FileFault Place :=
  match place with
  | .file _ => .error .notDirectory
  | .inside way =>
    if name = "" ∨ name = "." then .ok (.inside way)
    else if name = ".." then .ok (if way = [] then .outside else .inside way.dropLast)
    else if longestName < name.utf8ByteSize then .error .nameTooLong
    else folder.entry (way ++ [name])
  | .outside =>
    if name = "" ∨ name = "." ∨ name = ".." then .ok .outside
    else if longestName < name.utf8ByteSize then .error .nameTooLong
    else .error .missing

def isAbsolute (path : String) : Bool :=
  path.toList.head? = some '/'

def place (folder : Folder) (path : String) : Except FileFault Place :=
  if path = "" then .error .missing
  else if longestPath < path.utf8ByteSize then .error .nameTooLong
  else (Text.pieces '/' path).foldlM folder.step
    (if isAbsolute path then .outside else .inside [])

def read (folder : Folder) (path : String) : Except FileFault String := do
  match ← folder.place path with
  | .file content => return content
  | .inside _ | .outside => .error .isDirectory

def holds (folder : Folder) (path : String) : Bool :=
  (folder.place path).isOk

def system (folder : Folder) (input : String) (settingsFile : Option String) : System Id where
  settingsFile := settingsFile
  settingsDirectory := some "xdg"
  fileExists path := folder.holds path
  readFile path := folder.read path
  readInput := .ok input

end Folder

end EndpointPreview.Cli
