import GatewayCache.Processing

/-! # What updates tell

Updates applied to a cache one after the other, with what each of them emits, holds
back and sets free. No loop, queue or bus has a part in this: however updates are worked
off, it is what they should tell in the end.
-/

namespace GatewayCache

namespace Cache

/-- The events that an update emits at once; none if it is refused. -/
def emitted (cache : Cache) (dispatch : Dispatch) : List Event :=
  (cache.apply dispatch).1.toOption.elim [] Outcome.events

/-- The event that an update holds back. -/
def deferred? (cache : Cache) (dispatch : Dispatch) : Option Deferred :=
  (cache.apply dispatch).1.toOption.bind Outcome.deferred

/-- The events that updates hold back, oldest first. -/
def heldBack (cache : Cache) : List Dispatch → List Deferred
  | [] => []
  | dispatch :: rest => (cache.deferred? dispatch).toList ++ (cache.apply dispatch).2.heldBack rest

/-- An update makes a gate ready that was waited for until then. -/
def Opens (cache : Cache) (dispatch : Dispatch) (handle : Handle) : Prop :=
  cache.gates.state handle = .pending ∧ (cache.apply dispatch).2.gates.state handle = .ready

instance (cache : Cache) (dispatch : Dispatch) (handle : Handle) :
    Decidable (cache.Opens dispatch handle) := inferInstanceAs (Decidable (_ ∧ _))

/-- The events held back by earlier updates that the next one sets free. -/
def setFree (cache : Cache) (earlier : List Dispatch) (dispatch : Dispatch) : List Event :=
  ((cache.heldBack earlier).filter
    (fun deferred => (cache.applyAll earlier).Opens dispatch deferred.gate)).map Deferred.event

/-- What updates tell, and what of it was held back at first: each adds the events that it emits, and
then those that it sets free. Which of several that wait for one gate comes first is left to chance. -/
inductive Told (cache : Cache) : List Dispatch → List Event → List Event → Prop where
  | nil : Told cache [] [] []
  | snoc {earlier : List Dispatch} {events freed now : List Event} (dispatch : Dispatch)
      (before : Told cache earlier events freed) (all : now.Perm (cache.setFree earlier dispatch)) :
      Told cache (earlier ++ [dispatch])
        (events ++ ((cache.applyAll earlier).emitted dispatch ++ now)) (freed ++ now)

end Cache

namespace Processing

/-- No event is held back at a gate that has opened or closed. -/
def Quiet (state : Processing) : Prop :=
  ∀ deferred ∈ state.pending, state.cache.gates.state deferred.gate = .pending

/-- The loop right after it applied an update, with the events of the update yet to be emitted. -/
def apply (state : Processing) (dispatch : Dispatch) : Processing :=
  ⟨(state.cache.apply dispatch).2, state.pending ++ (state.cache.deferred? dispatch).toList⟩

end Processing

end GatewayCache
