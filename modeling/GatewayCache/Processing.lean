import GatewayCache.Cache.Handler

/-! # The processing loop

Queued updates are applied in order. An event that was held back is emitted as
soon as its gate is open and before the next update is applied; if the gate
closes, or the loop ends first, it is dropped. The loop ends when no more updates
can come, or when it is told to stop, which leaves queued updates unapplied and
all but the first waits that have ended unattended.
-/

namespace GatewayCache

namespace Gates

/-- Those held back whose gates have opened or closed, in the order in which the gates did. -/
def ended (gates : Gates) (pending : List Deferred) : List Deferred :=
  gates.settled.flatMap (fun handle => pending.filter (fun deferred => deferred.gate = handle))

/-- The events of those whose gates have opened. -/
def free (gates : Gates) (waits : List Deferred) : List Event :=
  (waits.filter (fun deferred => gates.state deferred.gate = .ready)).map Deferred.event

/-- The events among those held back whose gates are open, in the order of opening. -/
def released (gates : Gates) (pending : List Deferred) : List Event :=
  gates.free (gates.ended pending)

/-- Those held back whose gates are still waited for. -/
def stillPending (gates : Gates) (pending : List Deferred) : List Deferred :=
  pending.filter (fun deferred => gates.state deferred.gate = .pending)

end Gates

/-- A cache with events that are held back. -/
structure Processing where
  cache : Cache
  /-- The events that are held back, oldest first. -/
  pending : List Deferred

namespace Processing

def ofCache (cache : Cache) : Processing := ⟨cache, []⟩

/-- Lets go of the events whose gates have opened or closed, and gives those to emit. -/
def release (state : Processing) : List Event × Processing :=
  (state.cache.gates.released state.pending,
    { state with pending := state.cache.gates.stillPending state.pending })

/-- Applies one update, holds its event back or emits it, and releases what it set free. -/
def advance (state : Processing) (dispatch : Dispatch) : List Event × Processing :=
  match state.cache.apply dispatch with
  | (.error _, cache) => (⟨cache, state.pending⟩ : Processing).release
  | (.ok outcome, cache) =>
    let (released, state) :=
      (⟨cache, state.pending ++ outcome.deferred.toList⟩ : Processing).release
    (outcome.events ++ released, state)

def advanceAll (state : Processing) : List Dispatch → List Event × Processing
  | [] => ([], state)
  | dispatch :: rest =>
    let (events, state) := state.advance dispatch
    let (more, state) := state.advanceAll rest
    (events ++ more, state)

end Processing

/-- A processing loop with its queue. -/
structure Loop where
  state : Processing
  /-- The updates to apply, oldest first. -/
  queue : List Dispatch := []
  isOpen : Bool := true
  stopped : Bool := false
  finished : Bool := false

namespace Loop

/-- The number of updates that the queue holds. -/
def queueCapacity : Nat := 1000

/-- Whether an update would be queued now. -/
def accepts (loop : Loop) : Bool :=
  loop.isOpen && !loop.finished && loop.queue.length < queueCapacity

/-- Queues an update, and tells whether it was. -/
def send (loop : Loop) (dispatch : Dispatch) : Bool × Loop :=
  if loop.accepts then (true, { loop with queue := loop.queue.concat dispatch }) else (false, loop)

def close (loop : Loop) : Loop := { loop with isOpen := false }

/-- Closes every gate and tells the loop to stop. -/
def shutdown (loop : Loop) : Loop :=
  { loop with state := { loop.state with cache := loop.state.cache.shutdown }, stopped := true }

/-- Ends the loop; what is still held back or queued is dropped. -/
def finish (loop : Loop) : Loop :=
  { loop with state := { loop.state with pending := [] }, queue := [], finished := true }

/-- The number of ended waits that a loop still attends to when it is told to stop. -/
def lastWaits : Nat := 127

/-- The events of the ended waits that a loop still attends to when it is told to stop. -/
def lastEvents (loop : Loop) : List Event :=
  let gates := loop.state.cache.gates
  gates.free ((gates.ended loop.state.pending).take lastWaits)

/-- Lets the loop run until there is nothing left to do, and gives the events it emits. -/
def settle (loop : Loop) : List Event × Loop :=
  if loop.finished then ([], loop)
  else if loop.stopped then (loop.lastEvents, loop.finish)
  else
    let (freed, state) := loop.state.release
    let (events, state) := state.advanceAll loop.queue
    let loop := { loop with state, queue := [] }
    (freed ++ events, if loop.isOpen then loop else loop.finish)

end Loop

end GatewayCache
