/-! What the program reports about itself while it works. -/

namespace Overseer

inductive Level where
  | trace | debug | info | warn | error
  deriving DecidableEq, Repr

inductive Event where
  | treeSampled (processes : Nat)
  | samplesEvicted (removed remaining : Nat)
  | logRotated (path : String)
  | recordFailed (path : String)
  | logUnopened (path : String)
  | settingsInvalid (path : String)
  | instanceStarted
  | instanceResources
  | pipesStillOpen
  | instanceExited
  deriving DecidableEq, Repr

namespace Event

def level : Event → Level
  | treeSampled _ | samplesEvicted _ _ | logRotated _ => .debug
  | recordFailed _ | logUnopened _ | settingsInvalid _ | pipesStillOpen => .warn
  | instanceStarted | instanceResources | instanceExited => .info

def message : Event → String
  | treeSampled _ => "process tree sampled"
  | samplesEvicted _ _ => "evicted cpu samples"
  | logRotated _ => "rotated instance log"
  | recordFailed _ => "failed to write instance log record"
  | logUnopened _ => "cannot open instance log; output will be discarded"
  | settingsInvalid _ => "invalid config, using defaults"
  | instanceStarted => "instance started"
  | instanceResources => "instance resources"
  | pipesStillOpen => "output pipes still open after exit; closing log"
  | instanceExited => "instance exited"

end Event

end Overseer
