import GatewayCache.Cache
import GatewayCache.Event.Report

/-! # Summary of a replay -/

namespace GatewayCache.Replay

/-- How events and the summary are written. -/
inductive Format where
  | text
  | json
  deriving Repr, DecidableEq

namespace Format

def ofName? (name : String) : Option Format :=
  if name = "text" then some .text else if name = "json" then some .json else none

def event (format : Format) (event : Event) : String :=
  match format with
  | text => event.describe
  | json => event.toJson.compact

end Format

/-- What a replay came to. -/
structure Summary where
  lines : Nat
  dispatched : Nat
  skipped : Nat
  events : Nat
  /-- Events that were lost before they could be written. -/
  lagged : Nat
  cache : Cache

namespace Summary

/-- The replay itself is the one receiver of its events. -/
def receivers : Nat := 1

def toJson (summary : Summary) : Json :=
  Json.object
    [("lines", Json.ofNat summary.lines), ("dispatched", Json.ofNat summary.dispatched),
     ("skipped", Json.ofNat summary.skipped), ("events", Json.ofNat summary.events),
     ("lagged", Json.ofNat summary.lagged), ("cache", summary.cache.statsJson receivers)]

/-- The kinds whose counts a summary for people gives. -/
def countedKinds : List Kind := [.guild, .channel, .thread, .user, .member, .role, .message]

def describe (summary : Summary) : List String :=
  let stats := summary.cache.stats
  let counts := countedKinds.map (fun kind => s!"{summary.cache.store.count kind} {kind.plural}")
  [s!"replayed {summary.dispatched} dispatches ({summary.lines} lines, {summary.skipped} skipped), {summary.events} events",
   s!"processed {stats.processed}, failed {stats.failed}, deferred {stats.deferred}, ignored {stats.ignored}",
   "cached " ++ ", ".intercalate counts]

def write (format : Format) (summary : Summary) : List String :=
  match format with
  | .text => summary.describe
  | .json => [summary.toJson.compact]

end Summary

end GatewayCache.Replay
