import GatewayCache.Event

/-! # The event bus

Events go to any number of receivers. The newest events are kept for receivers
that are slow, as many as the capacity says; one that fell further behind learns
how many it lost. Without receivers an event is not kept at all.
-/

namespace GatewayCache

/-- Events on their way to receivers. -/
structure Bus where
  capacity : Nat
  /-- The number of events that were kept so far. -/
  sent : Nat
  /-- The newest events, oldest first. -/
  kept : List Event
  /-- The events each receiver has seen, nothing for one that is gone. -/
  receivers : List (Option Nat)

/-- What a receiver finds. -/
inductive Received where
  /-- So many events were lost. -/
  | lagged (missed : Nat)
  | event (event : Event)
  deriving Repr, DecidableEq

/-- The number of events that are seen with it. -/
def Received.count : Received → Nat
  | lagged missed => missed
  | event _ => 1

namespace Bus

/-- A bus that keeps at least one event and as many as asked for, rounded up to a power of two. -/
def ofCapacity (least : Nat) : Bus := ⟨(max least 1).nextPowerOfTwo, 0, [], []⟩

/-- The largest capacity: no memory has room for more events. -/
def largestCapacity : Nat := 1 <<< 56

def receiverCount (bus : Bus) : Nat := (bus.receivers.filter Option.isSome).length

/-- Adds a receiver of the events from now on, and gives its number. -/
def subscribe (bus : Bus) : Nat × Bus :=
  (bus.receivers.length, { bus with receivers := bus.receivers.concat (some bus.sent) })

def unsubscribe (bus : Bus) (receiver : Nat) : Bus :=
  { bus with receivers := bus.receivers.set receiver none }

def emit (bus : Bus) (event : Event) : Bus :=
  if bus.receiverCount = 0 then bus
  else
    let kept := bus.kept.concat event
    { bus with sent := bus.sent + 1, kept := kept.drop (kept.length - bus.capacity) }

def emitAll (bus : Bus) (events : List Event) : Bus := events.foldl emit bus

/-- What a receiver that has seen so many events finds. -/
def unseen (bus : Bus) (seen : Nat) : List Received :=
  let oldest := bus.sent - bus.kept.length
  if seen < oldest then .lagged (oldest - seen) :: bus.kept.map .event
  else (bus.kept.drop (seen - oldest)).map .event

/-- The next thing that a receiver finds, and the bus after it; nothing for one that is gone. -/
def receive (bus : Bus) (receiver : Nat) : Option Received × Bus :=
  match bus.receivers[receiver]? with
  | some (some seen) =>
    match (bus.unseen seen).head? with
    | some found =>
      (some found,
        { bus with receivers := bus.receivers.set receiver (some (seen + found.count)) })
    | none => (none, bus)
  | _ => (none, bus)

/-- All that a receiver finds now; nothing for one that is gone. -/
def drain (bus : Bus) (receiver : Nat) : Option (List Received) × Bus :=
  match bus.receivers[receiver]? with
  | some (some seen) =>
    (some (bus.unseen seen), { bus with receivers := bus.receivers.set receiver (some bus.sent) })
  | _ => (none, bus)

end Bus

end GatewayCache
