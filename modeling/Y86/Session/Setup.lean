import Y86.Session.Clock
import Y86.Settings

/-!
# Setting up a session

Settings say how large the memory of a session is, how many steps a run may take, and how fast a clock drives it.
-/

namespace Y86

namespace Settings

/-- The limits that settings describe. -/
def limits (s : Settings) : Except LimitsError Limits := Limits.make s.memorySize s.maxSteps

def session (s : Settings) : Except LimitsError Session := s.limits.map Session.start

def clock (s : Settings) : Clock := { interval := s.tickInterval }

end Settings

end Y86
