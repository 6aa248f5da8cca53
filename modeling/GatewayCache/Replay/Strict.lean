import GatewayCache.Replay.Schedule

/-! # Where a strict replay stops

A line can be read if it is text that is blank or holds a frame. A strict replay takes the lines
before the first that cannot be read, as a lenient one would that was given no more than
these, and then fails.
-/

namespace GatewayCache.Replay

/-- Whether a line can be read, be it that it holds no update. -/
def readable : Option String → Bool
  | none => false
  | some line => (Dispatch.ofLine line).isOk

/-- What a strict replay fails with at a line that cannot be read, with so many lines before it. -/
def failureAt (before : Nat) : Option String → Failure
  | none => .undecodable
  | some _ => .unparsable (before + 1)

/-- The cache as a replay leaves it, also where it fails. -/
def leftBy (cache : Cache) (strict : Bool) (log : List (Option String)) : Cache :=
  (events cache (read strict log).dispatches).2

/-- What remains of a replay when it is done. -/
structure Ending where
  written : List Event
  /-- The number of events that were lost before they could be written. -/
  lagged : Nat
  cache : Cache

def Underway.ending (state : Underway) : Ending := ⟨state.written, state.lagged, state.loop.state.cache⟩

/-- Some schedule of a replay ends like this, and comes to this result. -/
def ComesTo (strict : Bool) (cache : Cache) (log : List (Option String)) (ending : Ending)
    (result : Except Failure Summary) : Prop :=
  ∃ count state, Underway.Reaches strict (.start cache log) count state ∧ state.Done ∧
    state.ending = ending ∧ state.result = result

/-- A strict replay of a log fails at a line, and all else of it is what a lenient replay of the lines
before would come to. -/
structure StopsAt (cache : Cache) (format : Format) (log before : List (Option String))
    (line : Option String) : Prop where
  fails : (run cache { format, strict := true } none log).summary =
    .error (failureAt before.length line)
  /-- Wherever the output may end for reasons of its own. -/
  writes : ∀ limit, (run cache { format, strict := true } limit log).output =
    (run cache { format } limit before).output
  applies : ∃ summary, (run cache { format } none before).summary = .ok summary ∧
    summary.cache = leftBy cache true log
  /-- The schedules of both end alike, one for one. -/
  schedules : ∀ ending result, ComesTo true cache log ending result ↔
    result = .error (failureAt before.length line) ∧
      ∃ summary, ComesTo false cache before ending (.ok summary)

end GatewayCache.Replay
