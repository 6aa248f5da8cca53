import Mathlib.Data.List.Basic
import GatewayCache.Processing.Turn

/-! # Waits in a run

The output of a run grows turn by turn: a turn adds its own events, and those of the
waits that have gone on until then and that it completes.
-/

namespace GatewayCache

namespace Turn

theorem verdict_eq_ready {turn : Turn} {guild : Snowflake} :
    turn.verdict guild = .ready ↔ turn.Completes guild := by
  unfold verdict
  split
  · simp_all
  · split <;> simp_all

theorem verdict_eq_pending {turn : Turn} {guild : Snowflake} :
    turn.verdict guild = .pending ↔ ¬ turn.Ends guild := by
  unfold verdict Ends
  split
  · simp_all
  · split <;> simp_all

/-- The wait that began in one turn, if no later turn has ended it. -/
def waitingSince? (turns : List Turn) (earlier : Nat) : Option (Snowflake × Event) :=
  (turns[earlier]?.bind held).filter (fun wait =>
    ∀ between < turns.length, earlier < between → ∀ turn ∈ turns[between]?, ¬ turn.Ends wait.1)

/-- The waits that go on after a run, oldest first. -/
def waiting (turns : List Turn) : List (Snowflake × Event) :=
  (List.range turns.length).filterMap (waitingSince? turns)

variable {turns : List Turn} {earlier now : Nat}

theorem getElem?_append_of_lt (inside : now < turns.length) (next : Turn) :
    (turns ++ [next])[now]? = turns[now]? := List.getElem?_append_left inside

theorem getElem?_append_last (turns : List Turn) (next : Turn) :
    (turns ++ [next])[turns.length]? = some next := by simp

theorem waitingSince?_append (inside : earlier < turns.length) (next : Turn) :
    waitingSince? (turns ++ [next]) earlier =
      (waitingSince? turns earlier).filter (fun wait => ¬ next.Ends wait.1) := by
  have later : ∀ guild,
      (∀ between < (turns ++ [next]).length, earlier < between →
          ∀ turn ∈ (turns ++ [next])[between]?, ¬ turn.Ends guild) ↔
        (∀ between < turns.length, earlier < between →
          ∀ turn ∈ turns[between]?, ¬ turn.Ends guild) ∧ ¬ next.Ends guild := by
    intro guild
    rw [List.length_append, List.length_singleton]
    constructor
    · intro goesOn
      refine ⟨fun between before after => ?_, ?_⟩
      · rw [← getElem?_append_of_lt before next]
        exact goesOn between (by omega) after
      · exact goesOn turns.length (by omega) inside next (getElem?_append_last turns next)
    · rintro ⟨goesOn, last⟩ between before after
      rcases Nat.lt_succ_iff_lt_or_eq.mp before with within | rfl
      · rw [getElem?_append_of_lt within]
        exact goesOn between within after
      · rw [getElem?_append_last]
        rintro _ ⟨⟩
        exact last
  unfold waitingSince?
  rw [getElem?_append_of_lt inside, Option.filter_filter]
  congr 1
  funext wait
  rw [← Bool.decide_and, decide_eq_decide]
  exact later wait.1

theorem released?_append_last (inside : earlier < turns.length) (next : Turn) :
    released? (turns ++ [next]) earlier turns.length =
      ((waitingSince? turns earlier).filter (fun wait => next.Completes wait.1)).map Prod.snd := by
  have first : ∀ guild, Releases (turns ++ [next]) guild earlier turns.length ↔
      (∀ between < turns.length, earlier < between →
        ∀ turn ∈ turns[between]?, ¬ turn.Ends guild) ∧ next.Completes guild := by
    intro guild
    rw [Releases, getElem?_append_last]
    constructor
    · rintro ⟨-, ⟨_, ⟨⟩, completes⟩, goesOn⟩
      refine ⟨fun between before after => ?_, completes⟩
      rw [← getElem?_append_of_lt before next]
      exact goesOn between before after
    · rintro ⟨goesOn, completes⟩
      refine ⟨inside, ⟨next, rfl, completes⟩, fun between before after => ?_⟩
      rw [getElem?_append_of_lt before]
      exact goesOn between before after
  unfold released? waitingSince?
  rw [getElem?_append_of_lt inside, Option.filter_filter]
  congr 2
  funext wait
  rw [← Bool.decide_and, decide_eq_decide]
  exact first wait.1

theorem released?_append (before : earlier < now) (inside : now < turns.length) (next : Turn) :
    released? (turns ++ [next]) earlier now = released? turns earlier now := by
  have same : ∀ guild, Releases (turns ++ [next]) guild earlier now ↔
      Releases turns guild earlier now := by
    intro guild
    unfold Releases
    rw [getElem?_append_of_lt inside]
    refine and_congr_right fun _ => and_congr_right fun _ => ?_
    refine forall₂_congr fun between early => ?_
    rw [getElem?_append_of_lt (Nat.lt_trans early inside)]
  unfold released?
  rw [getElem?_append_of_lt (Nat.lt_trans before inside)]
  simp only [same]

theorem filterMap_range_congr {α : Type} {count : Nat} {first second : Nat → Option α}
    (same : ∀ index < count, first index = second index) :
    (List.range count).filterMap first = (List.range count).filterMap second :=
  List.filterMap_congr fun index member => same index (List.mem_range.mp member)

theorem waitingSince?_append_last (turns : List Turn) (next : Turn) :
    waitingSince? (turns ++ [next]) turns.length = next.held := by
  unfold waitingSince?
  rw [getElem?_append_last, Option.bind_some]
  cases next.held with
  | none => rfl
  | some wait =>
    refine if_pos (decide_eq_true fun between before after => ?_)
    rw [List.length_append, List.length_singleton] at before
    omega

/-- The waits after one more turn: those that it does not end, and its own. -/
theorem waiting_append (turns : List Turn) (next : Turn) :
    waiting (turns ++ [next]) =
      (waiting turns).filter (fun wait => ¬ next.Ends wait.1) ++ next.held.toList := by
  have own : [turns.length].filterMap (waitingSince? (turns ++ [next])) = next.held.toList := by
    rw [List.filterMap_cons, waitingSince?_append_last]
    cases next.held <;> rfl
  rw [waiting, List.length_append, List.length_singleton, List.range_succ, List.filterMap_append, own,
    filterMap_range_congr fun earlier inside => waitingSince?_append inside next, waiting,
    List.filter_filterMap]

/-- The output of one more turn: its own events, and those of the waits that it completes. -/
theorem output_append (turns : List Turn) (next : Turn) :
    output (turns ++ [next]) =
      output turns ++ (next.events ++
        ((waiting turns).filter (fun wait => next.Completes wait.1)).map Prod.snd) := by
  have sofar : (List.range turns.length).flatMap (fun now =>
      (turns ++ [next])[now]?.elim [] events ++
        (List.range now).filterMap (released? (turns ++ [next]) · now)) = output turns := by
    refine List.flatMap_congr fun now member => ?_
    have inside := List.mem_range.mp member
    rw [getElem?_append_of_lt inside,
      filterMap_range_congr fun earlier before => released?_append before inside next]
  have last : (List.range turns.length).filterMap
        (released? (turns ++ [next]) · turns.length) =
      ((waiting turns).filter (fun wait => next.Completes wait.1)).map Prod.snd := by
    rw [filterMap_range_congr fun earlier inside => released?_append_last inside next, waiting,
      List.filter_filterMap, List.map_filterMap]
  rw [output, List.length_append, List.length_singleton, List.range_succ, List.flatMap_append, sofar,
    List.flatMap_singleton, getElem?_append_last, last]
  rfl

end Turn

end GatewayCache
