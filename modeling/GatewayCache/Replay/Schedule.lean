import GatewayCache.Bus
import GatewayCache.Processing.Telling
import GatewayCache.Processing.Turn
import GatewayCache.Replay

/-! # Replays under way

Three things go on at once in a replay. The log is read and its updates are queued, the
loop works them off, and what it emits is fetched from the bus and written out. Which of
them moves next is left to chance; only the loop has an order of its own, for it lets go
of every event whose gate has settled before it applies another update.
-/

namespace GatewayCache.Replay

/-- What the reader makes of a line: an update, none, or the end of the replay. -/
def readLine (strict : Bool) (number : Nat) : Option String → Except Failure (Option Dispatch)
  | none => .error .undecodable
  | some line =>
    match Dispatch.ofLine line with
    | .ok dispatch => .ok dispatch
    | .error _ => if strict then .error (.unparsable number) else .ok none

namespace Reading

/-- One more line after all others, which holds an update or none. -/
def add (reading : Reading) (dispatch : Option Dispatch) : Reading :=
  { reading with
    lines := reading.lines + 1
    skipped := reading.skipped + if dispatch.isSome then 0 else 1
    dispatches := reading.dispatches ++ dispatch.toList }

/-- The line after all others cannot be read; one that is no text is not even counted. -/
def fail (reading : Reading) (line : Option String) (failure : Failure) : Reading :=
  { reading with lines := reading.lines + line.toList.length, failure := some failure }

end Reading

/-- A replay under way. -/
structure Underway where
  /-- The lines that are still to be read. -/
  unread : List (Option String)
  /-- What reading found so far. -/
  reading : Reading := {}
  loop : Loop
  /-- The events that the loop emits before it does anything else. -/
  outbox : List Event := []
  bus : Bus
  /-- The events that were written out. -/
  written : List Event := []
  /-- The number of events that were lost before they could be written. -/
  lagged : Nat := 0

namespace Underway

def start (cache : Cache) (log : List (Option String)) : Underway where
  unread := log
  loop := .ofCache cache
  bus := ((Bus.ofCapacity cache.config.eventCapacity.toNat).subscribe).2

/-- The number of the line that is read next. -/
def number (state : Underway) : Nat := state.reading.lines + 1

/-- What the writer does with what it fetched from the bus. -/
def write (state : Underway) : Received → Underway
  | .lagged missed => { state with lagged := state.lagged + missed }
  | .event event => { state with written := state.written ++ [event] }

/-- One move of the reader, the loop or the writer. -/
inductive Step (strict : Bool) (state : Underway) : Underway → Prop where
  /-- The reader passes over a line without an update. -/
  | skip {line : Option String} {rest : List (Option String)} (next : state.unread = line :: rest)
      (reads : readLine strict state.number line = .ok none) :
      Step strict state { state with unread := rest, reading := state.reading.add none }
  /-- It queues an update once there is room. -/
  | feed {line : Option String} {rest : List (Option String)} {dispatch : Dispatch} {loop : Loop}
      (next : state.unread = line :: rest)
      (reads : readLine strict state.number line = .ok (some dispatch))
      (sent : state.loop.send dispatch = (true, loop)) :
      Step strict state
        { state with unread := rest, reading := state.reading.add (some dispatch), loop }
  /-- It gives up, and no more updates can come. -/
  | fail {line : Option String} {rest : List (Option String)} {failure : Failure}
      (next : state.unread = line :: rest)
      (reads : readLine strict state.number line = .error failure) :
      Step strict state
        { state with
          unread := [], reading := state.reading.fail line failure, loop := state.loop.close }
  /-- It comes to the end of the log. -/
  | close (read : state.unread = []) (isOpen : state.loop.isOpen = true) :
      Step strict state { state with loop := state.loop.close }
  /-- The loop lets go of an event whose gate has settled. -/
  | letGo {earlier later : List Deferred} {deferred : Deferred} (goesOn : state.loop.finished = false)
      (idle : state.outbox = []) (held : state.loop.state.pending = earlier ++ deferred :: later)
      (settled : state.loop.state.cache.gates.state deferred.gate ≠ .pending) :
      Step strict state
        { state with
          loop := { state.loop with
            state := { state.loop.state with pending := earlier ++ later } }
          outbox := state.loop.state.cache.gates.free [deferred] }
  /-- It applies the next update. -/
  | apply {dispatch : Dispatch} {rest : List Dispatch} (goesOn : state.loop.finished = false)
      (idle : state.outbox = []) (quiet : state.loop.state.Quiet)
      (next : state.loop.queue = dispatch :: rest) :
      Step strict state
        { state with
          loop := { state.loop with state := state.loop.state.apply dispatch, queue := rest }
          outbox := state.loop.state.cache.emitted dispatch }
  | emit {event : Event} {rest : List Event} (next : state.outbox = event :: rest) :
      Step strict state { state with outbox := rest, bus := state.bus.emit event }
  /-- It ends, as no more updates can come. -/
  | finish (goesOn : state.loop.finished = false) (idle : state.outbox = [])
      (quiet : state.loop.state.Quiet) (empty : state.loop.queue = [])
      (shut : state.loop.isOpen = false) :
      Step strict state { state with loop := state.loop.finish }
  /-- The writer fetches what is next for it on the bus. -/
  | receive {found : Received} {bus : Bus} (next : state.bus.receive 0 = (some found, bus)) :
      Step strict state ({ state with bus }.write found)

/-- `Reaches strict first count state`: so many moves from the first state lead there. -/
inductive Reaches (strict : Bool) (first : Underway) : Nat → Underway → Prop where
  | refl : Reaches strict first 0 first
  | step {count : Nat} {state next : Underway} (before : Reaches strict first count state)
      (step : state.Step strict next) : Reaches strict first (count + 1) next

/-- Everything is read, worked off and written. -/
def Done (state : Underway) : Prop :=
  state.unread = [] ∧ state.loop.finished = true ∧ (state.bus.receive 0).1 = none

/-- What the replay comes to. -/
def result (state : Underway) : Except Failure Summary :=
  match state.reading.failure with
  | some failure => .error failure
  | none =>
    .ok
      { lines := state.reading.lines
        dispatched := state.reading.dispatches.length
        skipped := state.reading.skipped
        events := state.written.length
        lagged := state.lagged
        cache := state.loop.state.cache }

end Underway

/-- The updates in lines of text, without those that cannot be read. -/
def updatesOf (lines : List String) : List Dispatch :=
  lines.filterMap (fun line => (Dispatch.ofLine line).toOption.join)

/-- What was written and what is summed up account for every line of a log, from a fresh cache on. -/
structure Accounts (config : Config) (lines : List String) (written : List Event)
    (summary : Summary) : Prop where
  /-- What the updates tell was written. Among it are the events that were held back and whose gates
  are open now, each once, and so no more than were counted. -/
  told : ∃ freed : List Event, (Cache.empty config).Told (updatesOf lines) written freed ∧
    freed.Perm (summary.cache.gates.free ((Cache.empty config).heldBack (updatesOf lines))) ∧
    freed.length ≤ summary.cache.stats.deferred
  /-- The updates were applied one after the other. -/
  applied : summary.cache = (Cache.empty config).applyAll (updatesOf lines)
  read : summary.lines = lines.length
  shared : summary.lines = summary.dispatched + summary.skipped
  dispatched : summary.dispatched = (updatesOf lines).length
  counted : summary.dispatched =
    summary.cache.stats.processed + summary.cache.stats.failed + summary.cache.stats.ignored
  events : summary.events = written.length
  lagged : summary.lagged = 0

end GatewayCache.Replay
