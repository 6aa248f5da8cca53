/-! # Control sequences

Some characters are orders to a terminal: they are not shown, and they may begin
sequences or strings that are not shown either. A text without them says the same
in a file as on a terminal. White space that lays out lines is kept, also where it
stands inside a sequence.
-/

namespace GatewayCache.Text

/-- What the characters read so far have begun. -/
inductive ControlState where
  | outside
  | escape
  | intermediate
  | sequence
  | device
  | deviceParameters
  | deviceIntermediate
  /-- A string that lasts up to its terminator. -/
  | string
  /-- A command to the operating system. -/
  | command
  deriving Repr, DecidableEq

/-- Whether a character is one of a range. -/
def within (first last c : Char) : Bool := first.toNat ≤ c.toNat && c.toNat ≤ last.toNat

/-- Whether a character is white space that lays out lines. -/
def isLayout (c : Char) : Bool := ['\t', '\n', '\x0c', '\r'].contains c

def isGraphic (c : Char) : Bool := within ' ' '~' c || 0x80 ≤ c.toNat

/-- The byte that terminates a string, also as a part of a character. -/
def stringTerminator : UInt8 := 0x9c

namespace ControlState

/-- What a character makes of an escape sequence without intermediate characters. -/
def afterEscape (c : Char) : ControlState :=
  if within ' ' '/' c then intermediate
  else if c = '[' then sequence
  else if c = ']' then command
  else if c = 'P' then device
  else if ['X', '^', '_'].contains c then string
  else if within '0' '~' c then outside
  else escape

/-- What a character makes of a device control string without parameters. -/
def afterDevice (c : Char) : ControlState :=
  if within ' ' '/' c then deviceIntermediate
  else if within '0' '?' c then deviceParameters
  else if within '@' '~' c then string
  else device

/-- What a character makes of a device control string with parameters. -/
def afterParameters (c : Char) : ControlState :=
  if within ' ' '/' c then deviceIntermediate
  else if within '<' '~' c then string
  else deviceParameters

/-- The state after a character. Escape begins anew in every state; cancel and substitute end it. -/
def next (state : ControlState) (c : Char) : ControlState :=
  if c = '\x1b' then escape
  else if c = '\x18' ∨ c = '\x1a' then outside
  else
    match state with
    | outside => outside
    | escape => afterEscape c
    | intermediate => if within '0' '~' c then outside else intermediate
    | sequence => if within '@' '~' c then outside else sequence
    | device => afterDevice c
    | deviceParameters => afterParameters c
    | deviceIntermediate => if within '0' '~' c then string else deviceIntermediate
    | string => if (String.utf8EncodeChar c).contains stringTerminator then outside else string
    | command => if c = '\x07' then outside else command

/-- Whether a character is shown in a state. -/
def shows (state : ControlState) (c : Char) : Bool :=
  match state with
  | outside => isGraphic c || isLayout c
  | escape | intermediate | sequence => isLayout c
  | _ => false

/-- The characters that are shown. A run of them goes on as it would outside: only
the characters between runs, and those that are not ASCII, change the state. -/
def shown (state : ControlState) (inRun : Bool) : List Char → List Char
  | [] => []
  | c :: rest =>
    if (if inRun then outside else state).shows c then
      c :: shown (if 0x80 ≤ c.toNat then outside else state) true rest
    else shown (state.next c) false rest

end ControlState

/-- A text without control characters and sequences. -/
def plain (text : String) : String :=
  String.ofList (ControlState.outside.shown false text.toList)

end GatewayCache.Text
