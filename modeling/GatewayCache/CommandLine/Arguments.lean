import GatewayCache.CommandLine.Command

/-! # Reading arguments

Options of a replay may stand before or after the log, each at most once, and
three of them have a setting that stands in for them. The first argument that has
no place decides the error, and a question for help goes before all that follows.
-/

namespace GatewayCache.CommandLine

/-- The arguments of a replay that were read so far. -/
structure Arguments where
  file : Option String := none
  config : Option String := none
  format : Option Replay.Format := none
  fetchMembers : Bool := false
  raw : Bool := false
  strict : Bool := false
  deriving Repr, DecidableEq

/-- What reading the arguments of a replay comes to. -/
inductive Parsed where
  | replay (arguments : Arguments)
  /-- A question for help, in brief or at length. -/
  | help (brief : Bool)
  deriving Repr, DecidableEq

namespace Arguments

def setFile (arguments : Arguments) (value : String) : Except UsageError Arguments :=
  if arguments.file.isSome then .error (.unexpected value)
  else if value.isEmpty then .error (.invalidValue "FILE" value)
  else .ok { arguments with file := some value }

/-- Takes the name of the configuration file. -/
def setConfig (arguments : Arguments) (value : String) : Except UsageError Arguments :=
  if arguments.config.isSome then .error (.repeated "--config")
  else if value.isEmpty then .error (.invalidValue "--config" value)
  else .ok { arguments with config := some value }

def setFormat (arguments : Arguments) (value : String) : Except UsageError Arguments :=
  if arguments.format.isSome then .error (.repeated "--format")
  else
    match Replay.Format.ofName? value with
    | some format => .ok { arguments with format := some format }
    | none => .error (.invalidValue "--format" value)

def setSwitch (arguments : Arguments) (name : String) : Except UsageError Arguments :=
  if name = "--fetch-members" then
    if arguments.fetchMembers then .error (.repeated name)
    else .ok { arguments with fetchMembers := true }
  else if name = "--raw" then
    if arguments.raw then .error (.repeated name) else .ok { arguments with raw := true }
  else if name = "--strict" then
    if arguments.strict then .error (.repeated name) else .ok { arguments with strict := true }
  else .error (.unexpected name)

def setOption (arguments : Arguments) (name value : String) : Except UsageError Arguments :=
  if name = "--config" then arguments.setConfig value
  else if name = "--format" then arguments.setFormat value
  else .error (.unexpected name)

end Arguments

def valueOptions : List String := ["--config", "--format"]

def switches : List String := ["--fetch-members", "--raw", "--strict"]

/-- Whether an argument starts with a hyphen and is more than that. -/
def looksLikeOption (argument : String) : Bool :=
  match argument.toList with
  | '-' :: _ :: _ => true
  | _ => false

/-- An argument up to its first equals sign, and the value behind it. -/
def splitValue (argument : String) : String × Option String :=
  let cs := argument.toList
  let name := cs.takeWhile (· != '=')
  match cs.drop name.length with
  | _ :: value => (String.ofList name, some (String.ofList value))
  | [] => (argument, none)

/-- Whether help is asked for in brief, by an argument that asks for it at all. -/
def helpAsked? (argument : String) : Option Bool :=
  match argument.toList with
  | '-' :: 'h' :: _ => some true
  | _ => if argument = "--help" then some false else none

/-- Takes arguments none of which is an option. -/
def takePlain (arguments : Arguments) (rest : List String) : Except UsageError Arguments :=
  rest.foldlM Arguments.setFile arguments

def readReplay (arguments : Arguments) : List String → Except UsageError Parsed
  | [] => .ok (.replay arguments)
  | argument :: rest =>
    if argument = "--" then do .ok (.replay (← takePlain arguments rest))
    else
      match helpAsked? argument, looksLikeOption argument, splitValue argument with
      | some brief, _, _ => .ok (.help brief)
      | none, false, _ => do readReplay (← arguments.setFile argument) rest
      | none, true, (name, some value) =>
        if switches.contains name then .error (.unwantedValue name)
        else do readReplay (← arguments.setOption name value) rest
      | none, true, (name, none) =>
        if valueOptions.contains name then
          match rest with
          | value :: rest =>
            if looksLikeOption value then .error (.missingValue name)
            else do readReplay (← arguments.setOption name value) rest
          | [] => .error (.missingValue name)
        else do readReplay (← arguments.setSwitch name) rest

/-- The boolean of a text, in upper or lower case. -/
def boolean? (text : String) : Option Bool :=
  let lower := text.toLower
  if ["1", "true", "yes", "on"].contains lower then some true
  else if ["0", "false", "no", "off", ""].contains lower then some false
  else none

/-- A switch from its setting, where the arguments did not turn it on. -/
def switch (settings : Settings) (setting : Setting) (given : Bool) :
    Except UsageError Bool :=
  if given then .ok true
  else
    match settings setting with
    | none => .ok false
    | some text => (boolean? text).elim (.error (.invalidValue setting.name text)) .ok

/-- The configuration file from its setting, where the arguments named none. -/
def configFile (settings : Settings) (given : Option String) :
    Except UsageError (Option String) :=
  match given, settings .config with
  | some file, _ => .ok (some file)
  | none, none => .ok none
  | none, some file =>
    if file.isEmpty then .error (.invalidValue Setting.config.name file) else .ok (some file)

def complete (settings : Settings) (arguments : Arguments) :
    Except UsageError ReplayCommand := do
  let config ← configFile settings arguments.config
  let fetchMembers ← switch settings .fetchMembers arguments.fetchMembers
  let raw ← switch settings .dispatchRaw arguments.raw
  match arguments.file with
  | none => .error .noFile
  | some file =>
    .ok ⟨file, config, fetchMembers, raw, ⟨arguments.format.getD .text, arguments.strict⟩⟩

/-- The command of arguments that name no log. -/
def readKinds : List String → Except UsageError Command
  | [] | ["--"] => .ok .kinds
  | "--" :: argument :: _ => .error (.unexpected argument)
  | argument :: _ =>
    if (helpAsked? argument).isSome then .ok (.help .kinds) else .error (.unexpected argument)

/-- The question for help about a command, or about the program. -/
def readHelp : List String → Except UsageError HelpTopic
  | [] => .ok .program
  | ["replay"] => .ok (.replay false)
  | ["kinds"] => .ok .kinds
  | ["help"] => .ok .help
  | argument :: _ => .error (.unexpected argument)

/-- The command of the arguments and settings. -/
def parse (settings : Settings) : List String → Except UsageError Command
  | [] => .error .noCommand
  | "kinds" :: rest => readKinds rest
  | "replay" :: rest => do
    match ← readReplay {} rest with
    | .help brief => .ok (.help (.replay brief))
    | .replay arguments => .ok (.replay (← complete settings arguments))
  | "help" :: rest => do .ok (.help (← readHelp rest))
  | argument :: _ =>
    if (helpAsked? argument).isSome then .ok (.help .program) else .error (.unexpected argument)

end GatewayCache.CommandLine
