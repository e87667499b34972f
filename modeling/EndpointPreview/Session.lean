import EndpointPreview.Config.Edit
import EndpointPreview.Preview
/-!
Editing sessions: the current configuration with its preview, and earlier configurations to go
back to.
-/

namespace EndpointPreview

structure Session where
  config : Config
  /-- Earlier configurations, the newest first. -/
  history : List Config
  /-- How many changes are in effect. -/
  version : Nat
  host : String
  preview : Preview

namespace Session

def historyLimit : Nat := 100

def start (config : Config) (host : String) : Session where
  config := config
  history := []
  version := 0
  host := host
  preview := config.preview host

def undoDepth (s : Session) : Nat :=
  s.history.length

def replace (s : Session) (next : Config) : Session :=
  { s with
    config := next
    history := (s.config :: s.history).take historyLimit
    version := s.version + 1
    preview := next.preview s.host }

def apply (s : Session) (edit : Edit) : Session :=
  s.replace (s.config.apply edit)

def undo? (s : Session) : Option Session :=
  match s.history with
  | [] => none
  | previous :: earlier =>
    some { s with
      config := previous
      history := earlier
      version := s.version - 1
      preview := previous.preview s.host }

end Session

end EndpointPreview
