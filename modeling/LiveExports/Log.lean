/-!
# Log events

An event has a level and a detail, and a name where the caller gives one.  The name picks the level:
`error` and `warn` or `warning` in any case, every other name is information.
-/

namespace LiveExports

inductive LogLevel where
  | error
  | warning
  | information
deriving DecidableEq, Repr

/-- The level as it is shown. -/
def LogLevel.label : LogLevel → String
  | error => "ERROR"
  | warning => "WARN"
  | information => "INFO"

structure LogEvent where
  level : LogLevel
  name : Option String := none
  detail : String
deriving DecidableEq, Repr

namespace LogEvent

/-- The capital of a letter of the level names; the dotless i has the capital of `i`. -/
def capital (c : Char) : Char :=
  if c = 'ı' then 'I' else c.toUpper

/-- The level that an event name stands for. -/
def levelOf (name : String) : LogLevel :=
  let capitals := String.ofList (name.toList.map capital)
  if capitals = "ERROR" then .error
  else if capitals = "WARN" ∨ capitals = "WARNING" then .warning
  else .information

/-- An event under a name of its own. -/
def named (name detail : String) : LogEvent :=
  { level := levelOf name, name := some name, detail }

end LogEvent

end LiveExports
