import GatewayCache.Replay

/-! # Commands

What the program can be asked for, why a request may be refused, and the settings
of the environment that stand in for options.
-/

namespace GatewayCache.CommandLine

/-- A replay as it was asked for. -/
structure ReplayCommand where
  file : String
  config : Option String
  fetchMembers : Bool
  raw : Bool
  options : Replay.Options
  deriving Repr, DecidableEq

/-- What help can be about. -/
inductive HelpTopic where
  | program
  | kinds
  /-- The replay, in brief or at length. -/
  | replay (brief : Bool)
  | help
  deriving Repr, DecidableEq

/-- What was asked for. -/
inductive Command where
  | kinds
  | replay (command : ReplayCommand)
  | help (topic : HelpTopic)
  deriving Repr, DecidableEq

/-- Why arguments make no command. -/
inductive UsageError where
  | noCommand
  /-- An argument has no place. -/
  | unexpected (argument : String)
  /-- An option lacks its value. -/
  | missingValue (option : String)
  /-- A switch was given a value. -/
  | unwantedValue (option : String)
  /-- An option or a setting has a value that it cannot have. -/
  | invalidValue (option value : String)
  | repeated (option : String)
  | noFile
  deriving Repr, DecidableEq

def UsageError.message : UsageError → String
  | noCommand => "a command is needed: kinds, or replay with a log"
  | unexpected argument => s!"unexpected argument: {argument}"
  | missingValue option => s!"a value is needed for {option}"
  | unwantedValue option => s!"{option} takes no value"
  | invalidValue option value => s!"invalid value for {option}: {value}"
  | repeated option => s!"{option} can be given only once"
  | noFile => "a log is needed"

/-- A setting of the environment. -/
inductive Setting where
  | config
  | fetchMembers
  | dispatchRaw
  deriving Repr, DecidableEq

namespace Setting

/-- The name of a setting, behind the name of the program. -/
def name : Setting → String
  | config => "CONFIG"
  | fetchMembers => "FETCH_MEMBERS"
  | dispatchRaw => "DISPATCH_RAW"

/-- The variable of the environment that holds a setting of a program. -/
def variableOf (program : String) (setting : Setting) : String :=
  program.toUpper ++ "_" ++ setting.name

end Setting

abbrev Settings := Setting → Option String

end GatewayCache.CommandLine
