import GatewayCache.Gate

/-! # The gatehouse

The gates with those who use them. A caller is given the gate of a guild by the register
and holds it by a handle as long as it likes; meanwhile it can open the gate, close it and
wait for it. A wait does not hold the gate: once nobody holds a gate that is off the
register, the gate is gone, and its waits are over. The register itself can be let go of with
all that it has.
-/

namespace GatewayCache

/-- A wait for a gate. -/
structure Waiter where
  gate : Handle
  /-- How the wait ended, once it has. -/
  outcome : Option GateState
  deriving Repr, DecidableEq

/-- Looks at the gate, which ends the wait unless the gate is pending. -/
def Waiter.poll (gates : Gates) (waiter : Waiter) : Waiter :=
  if waiter.outcome.isSome ∨ gates.state waiter.gate = .pending then waiter
  else { waiter with outcome := some (gates.state waiter.gate) }

structure Gatehouse where
  gates : Gates
  /-- The handles that callers hold, each as often as it was given out. -/
  held : List Handle
  waiters : List Waiter

namespace Gatehouse

def empty : Gatehouse := ⟨.empty, [], []⟩

/-- What a caller can do. -/
inductive Act where
  /-- Asks the register for the gate of a guild. -/
  | getOrCreate (guild : Snowflake)
  /-- Asks the register for the gate of a guild if it has one. -/
  | get (guild : Snowflake)
  | signalGuild (guild : Snowflake)
  | remove (guild : Snowflake)
  | closeAll
  | signal (handle : Handle)
  | close (handle : Handle)
  /-- Lets go of a handle. -/
  | drop (handle : Handle)
  /-- Lets go of the register. -/
  | discard
  /-- Begins to wait for a gate. -/
  | wait (handle : Handle)
  /-- Looks whether a wait is over. -/
  | poll (waiter : Nat)
  deriving Repr, DecidableEq

/-- The guild that is named to the register. -/
def Act.guild? : Act → Option Snowflake
  | .getOrCreate guild | .get guild | .signalGuild guild | .remove guild => some guild
  | _ => none

/-- Whether the register is asked to do something. -/
def Act.isOnRegister (act : Act) : Bool := act.guild?.isSome || act = .closeAll

/-- A gate can only be opened, closed, waited for or let go of by those who hold it. -/
def act (house : Gatehouse) : Act → Gatehouse
  | .getOrCreate guild =>
    let (handle, gates) := house.gates.getOrCreate guild
    { house with gates, held := handle :: house.held }
  | .get guild => { house with held := (house.gates.get? guild).toList ++ house.held }
  | .signalGuild guild => { house with gates := (house.gates.signalGuild guild).2 }
  | .remove guild => { house with gates := house.gates.remove guild }
  | .closeAll => { house with gates := house.gates.closeAll }
  | .signal handle =>
    if handle ∈ house.held then { house with gates := house.gates.signal handle } else house
  | .close handle =>
    if handle ∈ house.held then { house with gates := house.gates.close handle } else house
  | .drop handle =>
    if handle ∈ house.held then
      let held := house.held.erase handle
      { house with
        held
        gates := if handle ∈ held then house.gates else house.gates.abandon handle }
    else house
  | .discard =>
    let unheld := house.gates.registered.values.filter (· ∉ house.held)
    { house with gates := { unheld.foldl Gates.close house.gates with registered := ∅ } }
  | .wait handle =>
    if handle ∈ house.held then { house with waiters := house.waiters.concat ⟨handle, none⟩ }
    else house
  | .poll waiter => { house with waiters := house.waiters.modify waiter (Waiter.poll house.gates) }

def run (house : Gatehouse) (acts : List Act) : Gatehouse := acts.foldl act house

/-- How a gate is kept. What acts do to the gate can be told from this and from the acts alone. -/
structure Tenure where
  registered : Bool
  /-- How often its handle is held. -/
  holders : Nat
  deriving Repr, DecidableEq

namespace Tenure

/-- A gate that was just made. -/
def made : Tenure := ⟨true, 1⟩

variable (guild : Snowflake) (handle : Handle)

/-- What an act makes of the gate with a handle, which is of a guild, if the act reaches the gate and
finds it pending. Letting go of it, or of the register, reaches a gate that nobody else keeps. -/
def reach? (tenure : Tenure) : Act → Option GateState
  | .signalGuild other => if tenure.registered ∧ other = guild then some .ready else none
  | .remove other => if tenure.registered ∧ other = guild then some .closed else none
  | .closeAll => if tenure.registered then some .closed else none
  | .signal other => if 0 < tenure.holders ∧ other = handle then some .ready else none
  | .close other => if 0 < tenure.holders ∧ other = handle then some .closed else none
  | .drop other => if tenure = ⟨false, 1⟩ ∧ other = handle then some .closed else none
  | .discard => if tenure = ⟨true, 0⟩ then some .closed else none
  | .getOrCreate _ | .get _ | .wait _ | .poll _ => none

/-- How the gate is kept after an act. -/
def next (tenure : Tenure) : Act → Tenure
  | .getOrCreate other | .get other =>
    if tenure.registered ∧ other = guild then { tenure with holders := tenure.holders + 1 }
    else tenure
  | .remove other => if other = guild then { tenure with registered := false } else tenure
  | .closeAll | .discard => { tenure with registered := false }
  | .drop other => if other = handle then { tenure with holders := tenure.holders - 1 } else tenure
  | .signalGuild _ | .signal _ | .close _ | .wait _ | .poll _ => tenure

def after (tenure : Tenure) (acts : List Act) : Tenure := acts.foldl (next guild handle) tenure

/-- The state of a gate that was pending: what the first act that reaches it makes of it. -/
def fate (tenure : Tenure) : List Act → GateState
  | [] => .pending
  | act :: rest => (tenure.reach? guild handle act).getD ((tenure.next guild handle act).fate rest)

end Tenure

end Gatehouse

end GatewayCache
