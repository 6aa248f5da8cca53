import GatewayCache.Snowflake

/-! # Gates

A gate is a one-shot latch on which one guild's readiness is waited for. Once it
has opened or closed it never changes. At most one gate per guild is registered;
a gate that was registered before lives on for those who hold it, so gates are
told apart by handles and not by guilds.
-/

namespace GatewayCache

/-- The state of a gate. -/
inductive GateState where
  /-- Still waited for. -/
  | pending
  /-- The guild became ready. -/
  | ready
  /-- The guild went away first. -/
  | closed
  deriving Repr, DecidableEq

namespace GateState

def name : GateState → String
  | pending => "pending"
  | ready => "ready"
  | closed => "closed"

end GateState

/-- One gate. -/
structure Gate where
  guild : Snowflake
  state : GateState
  deriving Repr, DecidableEq

/-- A handle on one gate. -/
structure Handle where
  /-- The number of gates made before this one. -/
  number : Nat
  deriving Repr, DecidableEq

/-- The gates. -/
structure Gates where
  /-- Every gate that was made, in order. -/
  made : List Gate
  /-- The gate registered for each guild. -/
  registered : Std.ExtTreeMap Snowflake Handle
  /-- The gates that opened or closed, in the order in which they did. -/
  settled : List Handle

namespace Gates

def empty : Gates := ⟨[], ∅, []⟩

instance : Inhabited Gates := ⟨empty⟩

def gate? (gates : Gates) (handle : Handle) : Option Gate := gates.made[handle.number]?

/-- The state of the gate of a handle; one that was never made counts as closed. -/
def state (gates : Gates) (handle : Handle) : GateState :=
  (gates.gate? handle).elim .closed Gate.state

/-- The handle of a guild's registered gate. -/
def get? (gates : Gates) (guild : Snowflake) : Option Handle := gates.registered[guild]?

/-- The state of a guild's registered gate. -/
def stateOf? (gates : Gates) (guild : Snowflake) : Option GateState :=
  (gates.get? guild).map gates.state

def size (gates : Gates) : Nat := gates.registered.size

/-- Makes a pending gate that is not registered. -/
def create (gates : Gates) (guild : Snowflake) : Handle × Gates :=
  (⟨gates.made.length⟩, { gates with made := gates.made.concat ⟨guild, .pending⟩ })

/-- The guild's registered gate, or a pending one made and registered now. -/
def getOrCreate (gates : Gates) (guild : Snowflake) : Handle × Gates :=
  match gates.get? guild with
  | some handle => (handle, gates)
  | none =>
    let (handle, gates) := gates.create guild
    (handle, { gates with registered := gates.registered.insert guild handle })

/-- Ends the wait for a gate that is pending; others stay as they are. -/
def settle (gates : Gates) (handle : Handle) (outcome : GateState) : Gates :=
  if gates.state handle = .pending then
    { gates with
      made := gates.made.modify handle.number (fun (gate : Gate) => { gate with state := outcome })
      settled := gates.settled.concat handle }
  else gates

def signal (gates : Gates) (handle : Handle) : Gates := gates.settle handle .ready

def close (gates : Gates) (handle : Handle) : Gates := gates.settle handle .closed

/-- Opens the gate registered for a guild, and tells whether there is one. -/
def signalGuild (gates : Gates) (guild : Snowflake) : Bool × Gates :=
  match gates.get? guild with
  | some handle => (true, gates.signal handle)
  | none => (false, gates)

/-- Takes a guild's gate off the register and closes it. -/
def remove (gates : Gates) (guild : Snowflake) : Gates :=
  match gates.get? guild with
  | some handle => { gates.close handle with registered := gates.registered.erase guild }
  | none => gates

/-- Takes every gate off the register and closes it. -/
def closeAll (gates : Gates) : Gates :=
  { gates.registered.values.foldl close gates with registered := ∅ }

/-- Closes a gate that nobody holds any more, unless it is registered. -/
def abandon (gates : Gates) (handle : Handle) : Gates :=
  if gates.registered.values.contains handle then gates else gates.close handle

end Gates

end GatewayCache
