import GatewayCache.Dispatch
import GatewayCache.Processing
import GatewayCache.Replay.Summary
import GatewayCache.Text.Lines

/-! # Replaying a log

A log holds one frame per line. Its updates are applied to a cache by the
processing loop, and every event is written out as one line. A line that cannot
be read is passed over, or ends the replay if reading is strict; a line that is
no text always ends it. Either way the updates before it are applied and their
events written first.
-/

namespace GatewayCache.Replay

/-- How a log is replayed. -/
structure Options where
  format : Format := .text
  /-- Whether a line that cannot be read ends the replay. -/
  strict : Bool := false
  deriving Repr, DecidableEq

/-- Why a replay gave no summary. -/
inductive Failure where
  /-- A line is not valid UTF-8. -/
  | undecodable
  /-- The line of this number, counted from one, cannot be read. -/
  | unparsable (line : Nat)
  | unwritable
  deriving Repr, DecidableEq

def Failure.message : Failure → String
  | undecodable => "failed to read dispatch log: stream did not contain valid UTF-8"
  | unparsable line => s!"line {line}: not a readable frame"
  | unwritable => "failed to write output"

/-- What reading a log found. -/
structure Reading where
  lines : Nat := 0
  /-- The number of lines without an update. -/
  skipped : Nat := 0
  dispatches : List Dispatch := []
  failure : Option Failure := none
  deriving Repr, DecidableEq

namespace Reading

/-- One more line before all others, which holds an update or none. -/
def after (dispatch : Option Dispatch) (rest : Reading) : Reading :=
  match dispatch with
  | some dispatch =>
    { rest with lines := rest.lines + 1, dispatches := dispatch :: rest.dispatches }
  | none => { rest with lines := rest.lines + 1, skipped := rest.skipped + 1 }

/-- Reads lines of which the first has a number. -/
def ofLines (strict : Bool) (number : Nat) : List (Option String) → Reading
  | [] => {}
  | none :: _ => { failure := some .undecodable }
  | some line :: rest =>
    match Dispatch.ofLine line with
    | .ok dispatch => (ofLines strict (number + 1) rest).after dispatch
    | .error _ =>
      if strict then { lines := 1, failure := some (.unparsable number) }
      else (ofLines strict (number + 1) rest).after none

end Reading

/-- Reads a log from its first line. -/
def read (strict : Bool) (log : List (Option String)) : Reading := Reading.ofLines strict 1 log

/-- Text that was written out, perhaps up to a limit. -/
structure Output where
  text : String := ""
  /-- The number of lines that were completed. -/
  lines : Nat := 0
  /-- The number of complete lines after which nothing can be written. -/
  limit : Option Nat := none
  failed : Bool := false
  deriving Repr, DecidableEq

namespace Output

/-- Writes one piece of text, unless the limit is reached. -/
def write (output : Output) (piece : String) : Output :=
  if output.failed then output
  else if output.limit.any (· ≤ output.lines) then { output with failed := true }
  else
    { output with
      text := output.text ++ piece
      lines := output.lines + piece.toList.count '\n' }

/-- Writes a text and ends the line. -/
def writeLine (output : Output) (text : String) : Output := (output.write text).write "\n"

def writeEvents (output : Output) (format : Format) (events : List Event) : Output :=
  events.foldl (fun output event => output.writeLine (format.event event)) output

end Output

/-- What a replay left behind. -/
structure Replayed where
  output : Output
  summary : Except Failure Summary

/-- The events of a loop that takes updates and ends when there are no more. -/
def events (cache : Cache) (dispatches : List Dispatch) : List Event × Cache :=
  let (events, state) := (Processing.ofCache cache).advanceAll dispatches
  let (last, state) := state.release
  (events ++ last, state.cache)

def run (cache : Cache) (options : Options) (limit : Option Nat) (log : List (Option String)) :
    Replayed :=
  let reading := read options.strict log
  let (events, cache) := events cache reading.dispatches
  let output := ({ limit } : Output).writeEvents options.format events
  if output.failed then ⟨output, .error .unwritable⟩
  else
    match reading.failure with
    | some failure => ⟨output, .error failure⟩
    | none =>
      ⟨output, .ok
        { lines := reading.lines
          dispatched := reading.dispatches.length
          skipped := reading.skipped
          events := events.length
          lagged := 0
          cache }⟩

end GatewayCache.Replay
