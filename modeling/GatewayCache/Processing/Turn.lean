import GatewayCache.Processing
import GatewayCache.Update.Content

/-! # Turns

A run of updates told without gates: what each update emits and holds back, which
guild it completes and which one was left by it. From this alone it follows which
events a run emits, and when.
-/

namespace GatewayCache

/-- An event that tells of a guild that was joined or can be reached again. -/
def Event.Welcomes (event : Event) (guild : Snowflake) : Prop :=
  ∃ record : Record, record.id = guild ∧
    (event = .guildJoin record ∨ event = .guildAvailable record)

/-- What one update comes to. -/
structure Turn where
  /-- The events emitted at once. -/
  events : List Event := []
  /-- The event held back, and the guild it waits for. -/
  held : Option (Snowflake × Event) := none
  /-- The guild whose last chunk of members was stored. -/
  chunked : Option Snowflake := none
  /-- The guild that became available with all of its members stored. -/
  filled : Option Snowflake := none
  left : Option Snowflake := none

namespace Turn

/-- The update makes a guild ready for those who wait. -/
def Completes (turn : Turn) (guild : Snowflake) : Prop :=
  turn.chunked = some guild ∨ turn.filled = some guild

/-- The update ends the wait for a guild, one way or the other. -/
def Ends (turn : Turn) (guild : Snowflake) : Prop := turn.Completes guild ∨ turn.left = some guild

instance (turn : Turn) (guild : Snowflake) : Decidable (turn.Completes guild) :=
  inferInstanceAs (Decidable (_ ∨ _))

instance (turn : Turn) (guild : Snowflake) : Decidable (turn.Ends guild) :=
  inferInstanceAs (Decidable (_ ∨ _))

/-- What becomes of the wait for a guild. -/
def verdict (turn : Turn) (guild : Snowflake) : GateState :=
  if turn.Completes guild then .ready else if turn.left = some guild then .closed else .pending

/-- Of the turns after one, another is the first that ends the wait for a guild, by completing it. -/
def Releases (turns : List Turn) (guild : Snowflake) (earlier now : Nat) : Prop :=
  earlier < now ∧ (∃ turn ∈ turns[now]?, turn.Completes guild) ∧
    ∀ between < now, earlier < between → ∀ turn ∈ turns[between]?, ¬ turn.Ends guild

instance (turns : List Turn) (guild : Snowflake) (earlier now : Nat) :
    Decidable (Releases turns guild earlier now) :=
  inferInstanceAs (Decidable (_ ∧ _ ∧ _))

/-- The event that was held back in one turn, if another lets it go. -/
def released? (turns : List Turn) (earlier now : Nat) : Option Event :=
  ((turns[earlier]?.bind held).filter (fun wait => Releases turns wait.1 earlier now)).map Prod.snd

/-- The events of a run: in each turn those of the update itself, and then those held back earlier that
it lets go. -/
def output (turns : List Turn) : List Event :=
  (List.range turns.length).flatMap (fun now =>
    turns[now]?.elim [] events ++ (List.range now).filterMap (released? turns · now))

end Turn

namespace Cache

/-- Whether the record of a guild is there and counts no more members than are stored. -/
def isComplete (cache : Cache) (guild : Snowflake) : Bool :=
  (cache.store.guild? guild).any (hasAllMembers cache.store)

/-- The turn of an update; one that is refused comes to nothing. -/
def turn (cache : Cache) (dispatch : Dispatch) : Turn :=
  match cache.apply dispatch with
  | (.error _, _) => {}
  | (.ok outcome, after) =>
    { events := outcome.events
      held := outcome.deferred.bind (fun deferred =>
        (after.gates.gate? deferred.gate).map (fun gate => (gate.guild, deferred.event)))
      chunked := dispatch.lastChunk?
      filled := dispatch.available?.filter after.isComplete
      left := dispatch.left? }

def turns (cache : Cache) : List Dispatch → List Turn
  | [] => []
  | dispatch :: rest => cache.turn dispatch :: (cache.apply dispatch).2.turns rest

end Cache

namespace Loop

def ofCache (cache : Cache) : Loop := { state := .ofCache cache }

/-- What can happen to a loop. -/
inductive Move where
  | send (dispatch : Dispatch)
  /-- The loop runs until there is nothing left to do. -/
  | settle
  | close
  | shutdown
  deriving Repr, DecidableEq

def move (loop : Loop) : Move → List Event × Loop
  | .send dispatch => ([], (loop.send dispatch).2)
  | .settle => loop.settle
  | .close => ([], loop.close)
  | .shutdown => ([], loop.shutdown)

def play (loop : Loop) : List Move → List Event × Loop
  | [] => ([], loop)
  | move :: rest =>
    let (events, loop) := loop.move move
    let (more, loop) := loop.play rest
    (events ++ more, loop)

/-- The updates that a move makes a loop apply. -/
def appliedBy (loop : Loop) : Move → List Dispatch
  | .settle => if loop.finished || loop.stopped then [] else loop.queue
  | _ => []

/-- The updates that a loop applies in the course of moves. -/
def applied (loop : Loop) : List Move → List Dispatch
  | [] => []
  | move :: rest => loop.appliedBy move ++ (loop.move move).2.applied rest

end Loop

end GatewayCache
