import FogDispatch.CommandLine
import FogDispatch.Experiment
import FogDispatch.Overview
import FogDispatch.Settings.Layers
import FogDispatch.Settings.Yaml

/-!
# Sessions

A session does what the command line asks for, with the settings of that call.  Settings are shown
as they stand, a sweep is checked by its overviews, and a run is left to whoever knows how to reach
the decision service.
-/

namespace FogDispatch

/-- What a session has to show in the end. -/
inductive Showing where
  | nothing
  | settings (root : Settings.Value)
  | overviews (items : List (Overview Binary64))

namespace Showing

def text : Showing → String
  | nothing => ""
  | settings root => Settings.Yaml.write root
  | overviews items => String.join (items.map fun item => item.text ++ "\n")

end Showing

namespace CommandLine

variable {m : Type → Type} [Monad m]

/-- Does what is asked for; `simulate` runs a plan. -/
def Action.perform (host : Host m) (simulate : Plan Binary64 → m (Except Fault Unit))
    (settings : Settings.Layered) : Action → m (Except Fault Showing)
  | .showSettings => return .ok (.settings settings.root)
  | .validate => do
    match settings.plan with
    | .error fault => return .error fault
    | .ok plan => return (← Overview.ofSweep host plan).map .overviews
  | .run => do
    match settings.plan with
    | .error fault => return .error fault
    | .ok plan => return (← simulate plan).map fun _ => .nothing

/-- Puts the settings of a call together and does what it asks for. -/
def Invocation.perform (host : Host m) (find : String → Option ByteArray)
    (assignments : List (String × String)) (simulate : Plan Binary64 → m (Except Fault Unit))
    (call : Invocation) : m (Except Fault Showing) :=
  match Settings.Layered.forRun find call.file call.preset assignments with
  | .error fault => return .error fault
  | .ok settings => call.action.perform host simulate settings

end CommandLine
end FogDispatch
