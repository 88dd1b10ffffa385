/-!
# The log of a session

Whatever a session does, it says in its log. An entry bears the cycle at which it was written.
-/

namespace Y86

/-- How much an entry of the log matters. -/
inductive LogLevel where
  /-- Something was done. -/
  | info
  /-- Something large was done. -/
  | success
  /-- A request had no effect, or a run was stopped. -/
  | warning
  /-- A request failed. -/
  | error
  deriving DecidableEq, Repr

def LogLevel.name : LogLevel → String
  | info => "info"
  | success => "success"
  | warning => "warning"
  | error => "error"

structure LogEntry where
  /-- The cycle at which it was written. -/
  cycle : Int
  level : LogLevel
  message : String
  deriving DecidableEq, Repr

end Y86
