import GatewayCache.Bus
import GatewayCache.CommandLine.Arguments
import GatewayCache.CommandLine.Help
import GatewayCache.Config.Reader
import GatewayCache.Text.Control

/-! # The command line

Two commands: one lists the updates that are processed, the other replays a log.
Switches only ever turn something on that the configuration left off.
-/

namespace GatewayCache.CommandLine

/-- What a program leaves behind. -/
structure Ending where
  code : UInt32
  output : String
  complaint : String := ""
  deriving Repr, DecidableEq

def unlines (lines : List String) : String := String.join (lines.map (· ++ "\n"))

/-- An ending for a failure while running. -/
def Ending.failure (output complaint : String) : Ending := ⟨1, output, complaint⟩

/-- An ending for a configuration that no machine can hold. -/
def Ending.oversized : Ending := ⟨101, "", "the event capacity is too large"⟩

def ReplayCommand.configuration (command : ReplayCommand) (files : String → Option ByteArray) :
    Option Config := do
  let config ←
    match command.config with
    | none => some {}
    | some path => do Config.ofText? (← String.fromUTF8? (← files path))
  some
    { config with
      fetchMembers := config.fetchMembers || command.fetchMembers
      dispatchRaw := config.dispatchRaw || command.raw }

def ReplayCommand.run (command : ReplayCommand) (files : String → Option ByteArray) : Ending :=
  match command.configuration files with
  | none => .failure "" "the configuration cannot be read"
  | some config =>
    if Bus.largestCapacity < config.eventCapacity.toNat then .oversized
    else
      match files command.file with
      | none => .failure "" s!"failed to open {command.file}"
      | some bytes =>
        let replayed := Replay.run (.empty config) command.options none (Text.fileLines bytes)
        match replayed.summary with
        | .error failure => .failure replayed.output.text failure.message
        | .ok summary =>
          { code := 0
            output := replayed.output.text ++ unlines (summary.write command.options.format) }

def Command.files : Command → List String
  | .replay command => command.config.toList ++ [command.file]
  | _ => []

def Command.run (program : String) (settings : Settings) (files : String → Option ByteArray) :
    Command → Ending
  | .kinds => ⟨0, unlines (UpdateKind.all.map UpdateKind.name), ""⟩
  | .help topic => ⟨0, Text.plain (unlines (Help.lines program settings topic)), ""⟩
  | .replay command => command.run files

/-- The ending for arguments that make no command. -/
def UsageError.ending (error : UsageError) : Ending := ⟨2, "", error.message⟩

/-- Runs the command of the arguments and settings, for a program of a name. -/
def run (program : String) (settings : Settings) (files : String → Option ByteArray)
    (arguments : List String) : Ending :=
  match parse settings arguments with
  | .error error => error.ending
  | .ok command => command.run program settings files

end GatewayCache.CommandLine
