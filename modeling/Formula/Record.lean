/-! Records: what an operation notes about its work. -/

namespace Formula

/-- How much attention a record asks for. -/
inductive Level where
  | debug
  | info
  | warning
  | error
  deriving DecidableEq

/-- The written name of a level. -/
def Level.name : Level → String
  | debug => "DEBUG"
  | info => "INFO"
  | warning => "WARNING"
  | error => "ERROR"

/-- A line that an operation notes, with its level. -/
structure Record where
  level : Level
  text : String
  deriving DecidableEq

end Formula
