import Overseer.Diagnostics.Filter

/-! Where each report comes from: the part of the program, and the names of its fields, as
filters know them. -/

namespace Overseer

open Diagnostics (Origin Filter)

def Event.origin (e : Event) : Origin :=
  let fields (part : String) (names : List String) : Origin :=
    ⟨"instwatch::" ++ part, "message" :: names⟩
  match e with
  | .treeSampled _ => fields "system::monitor" ["processes"]
  | .samplesEvicted _ _ => fields "system::monitor" ["removed", "remaining"]
  | .logRotated _ => fields "logs::rotating" ["path"]
  | .recordFailed _ | .logUnopened _ => fields "logs::writer" ["path", "error"]
  | .settingsInvalid _ => fields "config" ["path", "error"]
  | .instanceStarted => fields "supervisor" ["pid", "program", "log"]
  | .instanceResources =>
    fields "supervisor" ["pid", "processes", "cpu_percent", "rss_bytes", "threads"]
  | .pipesStillOpen => fields "supervisor" ["pid"]
  | .instanceExited => fields "supervisor" ["pid", "status", "polls"]

/-- The reports that a filter lets through. -/
def Diagnostics.Filter.select (f : Filter) (events : List Event) : List Event :=
  events.filter fun e => f.passes e.origin e.level

end Overseer
