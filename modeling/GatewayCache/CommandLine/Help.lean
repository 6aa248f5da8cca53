import GatewayCache.CommandLine.Command

/-! # Help

The descriptions of the program and its commands. A brief description has one
column for what can be given and one for what it means; one at length puts the
meaning below, with the values that can be chosen and what stands in. What spans
lines keeps the margin of the first, and names are in bold on a terminal.
-/

namespace GatewayCache.CommandLine.Help

/-- Something that can be given. -/
structure Entry where
  /-- Its names, the short one first; none for what is told by its place. -/
  names : List String
  value : String
  meaning : String
  /-- The values that can be chosen, with what each means. -/
  choices : List (String × String) := []
  /-- What holds where it is not given. -/
  notes : List String := []

def blanks (count : Nat) : String := String.ofList (List.replicate count ' ')

/-- A text in bold on a terminal. -/
def bold (text : String) : String := "\x1b[1m" ++ text ++ "\x1b[0m"

/-- A text whose lines behind the first stand after a margin. -/
def indented (margin text : String) : String :=
  String.ofList (text.toList.flatMap (fun c => if c = '\n' then c :: margin.toList else [c]))

/-- How an entry is given, with its names marked. A long name alone leaves room for a short one. -/
def Entry.form (entry : Entry) (mark : String → String) : String :=
  let room := if entry.names.head?.any (·.startsWith "--") then blanks 4 else ""
  let names := ", ".intercalate (entry.names.map mark)
  room ++ " ".intercalate ([names, entry.value].filter (fun part => !part.isEmpty))

/-- The width of the form of an entry. -/
def Entry.width (entry : Entry) : Nat := (entry.form id).length

/-- The values that can be chosen for an entry, in one note. -/
def Entry.choiceNotes (entry : Entry) : List String :=
  if entry.choices.isEmpty then []
  else
    let names := ", ".intercalate (entry.choices.map Prod.fst)
    [s!"[possible values: {names}]"]

/-- An entry in brief, behind a column of a width. -/
def Entry.brief (column : Nat) (entry : Entry) : String :=
  let form := "  " ++ entry.form bold ++ blanks (column - entry.width) ++ "  "
  let text := " ".intercalate (entry.meaning :: entry.notes ++ entry.choiceNotes)
  form ++ indented (blanks (column + 4)) text

def briefly (heading : String) (entries : List Entry) : List String :=
  let column := (entries.map Entry.width).foldl max 0
  "" :: heading :: entries.map (Entry.brief column)

def Entry.detailed (entry : Entry) : List String :=
  let margin := blanks 10
  let choice (value : String × String) := s!"{margin}- {bold value.1}: {value.2}"
  let choices :=
    if entry.choices.isEmpty then []
    else ["", margin ++ "Possible values:"] ++ entry.choices.map choice
  let notes := entry.notes.flatMap (fun note => [margin, margin ++ indented margin note])
  ["  " ++ entry.form bold, margin ++ entry.meaning] ++ choices ++ notes

def atLength (heading : String) (entries : List Entry) : List String :=
  ["", heading] ++ List.intercalate [""] (entries.map Entry.detailed)

/-- The note that names the variable of a setting with its value. -/
def settingNote (program : String) (settings : Settings) (setting : Setting) : String :=
  let value := (settings setting).getD ""
  s!"[env: {setting.variableOf program}={value}]"

/-- What the listing of update kinds is for. -/
def kindsPurpose : String := "List the update kinds the cache processes"

def replayPurpose : String :=
  "Replay a recorded dispatch log (JSON lines of \x7b\"t\", \"d\"\x7d frames)"

def helpPurpose : String := "Print this message or the help of the given subcommand(s)"

def commands : List Entry :=
  [⟨["replay"], "", replayPurpose, [], []⟩, ⟨["kinds"], "", kindsPurpose, [], []⟩,
   ⟨["help"], "", helpPurpose, [], []⟩]

/-- The question for help, with a remark on the other one. -/
def helpOption (remark : String) : Entry :=
  ⟨["-h", "--help"], "", "Print help" ++ remark, [], []⟩

def fileArgument : Entry := ⟨[], "<FILE>", "Dispatch log to replay", [], []⟩

def replayOptions (program : String) (settings : Settings) (remark : String) : List Entry :=
  let note := settingNote program settings
  [⟨["--config"], "<CONFIG>", "Cache configuration file (JSON). Flags below override it", [],
    [note .config]⟩,
   ⟨["--fetch-members"], "", "Hold guild joins until member chunking completes", [],
    [note .fetchMembers]⟩,
   ⟨["--raw"], "", "Also print every raw update", [], [note .dispatchRaw]⟩,
   ⟨["--format"], "<FORMAT>", "Output format for events and the summary",
    [("text", "One human-readable line per event"), ("json", "One JSON object per event")],
    ["[default: text]"]⟩,
   ⟨["--strict"], "", "Stop at the first line that is not valid JSON", [], []⟩,
   helpOption remark]

/-- The lines on a topic, for a program of a name, as they are on a terminal. -/
def lines (program : String) (settings : Settings) : HelpTopic → List String
  | .program =>
    ["Gateway entity cache tools", "", s!"Usage: {program} <COMMAND>"] ++
      briefly "Commands:" commands ++ briefly "Options:" [helpOption ""]
  | .kinds =>
    [kindsPurpose, "", s!"Usage: {program} kinds"] ++ briefly "Options:" [helpOption ""]
  | .replay brief =>
    let layout := if brief then briefly else atLength
    let remark := if brief then " (see more with '--help')" else " (see a summary with '-h')"
    [replayPurpose, "", s!"Usage: {program} replay [OPTIONS] <FILE>"] ++
      layout "Arguments:" [fileArgument] ++
      layout "Options:" (replayOptions program settings remark)
  | .help =>
    [helpPurpose, "", s!"Usage: {program} help [COMMAND]..."] ++
      briefly "Arguments:" [⟨[], "[COMMAND]...", "Print help for the subcommand(s)", [], []⟩]

end GatewayCache.CommandLine.Help
