import GatewayCache.Fetch.Calls

/-! # Fetching a list at once and in turn

Both go through the list in order and pass the store and the origin on from one reference
to the next. They differ in what they make of the results: a stream gives them all, and
who fetches all at once gets a map, or the first error there is.
-/

namespace GatewayCache

namespace Fetched

/-- A map of what was fetched has under each id the last record that tells it. -/
theorem getElem?_collect (records : Std.ExtTreeMap Snowflake Record) (fetched : List Fetched)
    (id : Snowflake) :
    (collect records fetched)[id]? =
      ((fetched.filterMap record?).filter (·.id = id)).getLast?.or records[id]? := by
  unfold collect
  induction fetched.filterMap record? generalizing records with
  | nil => simp
  | cons record rest ih =>
    rw [List.foldl_cons, ih, Std.ExtTreeMap.getElem?_insert]
    by_cases same : record.id = id
    · cases last : (rest.filter (·.id = id)).getLast? <;> simp [same, last, List.getLast?_cons]
    · simp [same]

end Fetched

namespace References

variable {σ : Type} {origin : Origin σ} {config : Config}

/-- Where nothing but what the origin does not know is missing from the stream, fetching all at once goes
the same way, and comes to the records so far with those of the stream laid over them. -/
theorem fetchFrom_of_settled (inOrder : Bool) {references : List Reference} {store : Store}
    {state : σ} (records : Std.ExtTreeMap Snowflake Record)
    (settled : ∀ item ∈ (streamFrom origin config references store state).1, item.isSettled) :
    fetchFrom origin config inOrder records false references store state =
      let (fetched, after) := streamFrom origin config references store state
      (.records (Fetched.collect records fetched), after) := by
  induction references generalizing store state records with
  | nil => rfl
  | cons reference rest ih =>
    rw [streamFrom] at settled ⊢
    rw [fetchFrom]
    generalize reference.fetch origin config store state = came at settled ⊢
    obtain ⟨fetched, next, later⟩ := came
    cases fetched with
    | hanging => cases settled .hanging (List.mem_singleton_self _)
    | record record =>
      obtain ⟨-, more⟩ := List.forall_mem_cons.mp settled
      exact ih (records.insert record.id record) more
    | error error =>
      obtain ⟨first, more⟩ := List.forall_mem_cons.mp settled
      cases error with
      | notFound => exact ih records more
      | origin | unplaceable => cases first

/-- If all that a stream misses is what the origin does not know, then fetching the list at once leads to
the same store by the same calls, and to a map with the last record of the stream under each id. -/
theorem fetchAll_agrees_with_stream (origin : Origin σ) (config : Config) (references : References)
    (store : Store) (state : σ) (calls : List Reference)
    (settled : ∀ item ∈ (references.stream origin.noting config store (state, calls)).1,
      item.isSettled) :
    let (fetched, after) := references.stream origin.noting config store (state, calls)
    ∃ records : Std.ExtTreeMap Snowflake Record,
      references.fetchAll origin.noting config store (state, calls) = (.records records, after) ∧
      ∀ id, records[id]? = ((fetched.filterMap Fetched.record?).filter (·.id = id)).getLast? := by
  refine ⟨_, fetchFrom_of_settled _ ∅ settled, fun id => ?_⟩
  rw [Fetched.getElem?_collect]
  simp

/-- The origin tells of one user under two ids, with another name each time, and does not know a third.
The last name is kept, and the id that is asked for again is not fetched again. -/
theorem fetchAll_agrees_with_stream_renamed :
    let origin : Origin Nat := fun reference asked =>
      (if reference.key.id = ⟨7⟩ then .missing else .payload (.obj
        [("id", .str "5"), ("name", .str (if asked = 0 then "a" else "b"))]), asked + 1)
    let references := References.global .user [⟨5⟩, ⟨6⟩, ⟨7⟩, ⟨5⟩]
    ∃ (records : Std.ExtTreeMap Snowflake Record) (after : Store),
      references.fetchAll origin.noting {} .empty (0, []) =
        (.records records, after, 3, (References.global .user [⟨5⟩, ⟨6⟩, ⟨7⟩]).each) ∧
      records[(⟨5⟩ : Snowflake)]?.map Record.fields = some [("id", .str "5"), ("name", .str "b")] := by
  intro origin references
  obtain ⟨records, came, last⟩ :=
    fetchAll_agrees_with_stream origin {} references .empty 0 [] (by decide +kernel)
  refine ⟨records, _, came, ?_⟩
  rw [last]
  decide +kernel

end References

end GatewayCache
