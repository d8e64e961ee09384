namespace QtSheet

/-!
# Log entries

What a run tells about itself, apart from its findings.
-/

/-- How much an entry matters. -/
inductive LogLevel where
  | debug
  | warning
  deriving Repr, DecidableEq

/-- How a level is written. -/
def LogLevel.label : LogLevel → String
  | .debug => "DEBUG"
  | .warning => "WARNING"

/-- One entry of a log. -/
structure LogEntry where
  level : LogLevel
  message : String
  deriving Repr, DecidableEq

end QtSheet
