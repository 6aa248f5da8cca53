import GatewayCache.Proofs.Json.History
import GatewayCache.Proofs.Placement
import GatewayCache.Store.Flat

/-! # Updates put on one record

Putting updates on a record lays each over the fields that are there. What the record
holds in the end is told by the history of each key, at every level, and no single
update takes a field away.
-/

namespace GatewayCache.Store

variable {kind : Kind} {key address : Key}

theorem operateAll_puts (fit : address? kind key = some address) (updates : List Fields)
    (store : Store) :
    (store.operateAll (updates.map (Operation.put kind key))).2 =
      (updates.map (Record.mk kind address)).foldl writeRecord store := by
  induction updates generalizing store with
  | nil => rfl
  | cons update rest ih =>
    have first : (store.operate (.put kind key update)).2 = store.write kind address update := by
      simp only [operate, put, fit]
    have step : (store.operateAll ((update :: rest).map (Operation.put kind key))).2 =
        ((store.write kind address update).operateAll (rest.map (Operation.put kind key))).2 := by
      rw [← first]
      rfl
    rw [step, ih]
    rfl

theorem fieldsAt_puts (fit : address? kind key = some address) (updates : List Fields)
    (store : Store) :
    (store.operateAll (updates.map (Operation.put kind key))).2.fieldsAt kind address =
      pile onto (store.fieldsAt kind address) updates := by
  rw [operateAll_puts fit]
  induction updates generalizing store with
  | nil => rfl
  | cons update rest ih =>
    rw [List.map_cons, List.foldl_cons, ih, writeRecord, fieldsAt_write, if_pos rfl]
    rfl

/-- Every kind is stored by default, so the records are those that are written of a payload. -/
theorem operateAll_puts_again (fit : address? kind key = some address) {updates : List Fields}
    (ordered : ∀ update ∈ updates, update.ordered) (store : Store) :
    ((store.operateAll (updates.map (Operation.put kind key))).2.operateAll
        (updates.map (Operation.put kind key))).2 =
      (store.operateAll (updates.map (Operation.put kind key))).2 := by
  have stored : ∀ record ∈ updates.map (Record.mk kind address),
      Config.stores {} record.kind := by
    intro record _
    cases record.kind <;> rfl
  have all : ∀ store : Store, (updates.map (Record.mk kind address)).foldl writeRecord store =
      writeAll {} store (updates.map (Record.mk kind address)) := by
    intro store
    rw [writeAll, List.filter_eq_self.mpr stored]
  rw [operateAll_puts fit, operateAll_puts fit, all, all]
  refine writeAll_writeAll {} (fun record member => ?_) store
  obtain ⟨update, here, rfl⟩ := List.mem_map.mp member
  exact ordered update here

/-- Updates put one after another on a record that was not there leave, at every level of its fields,
what the history of each key tells. On any record, one update takes no key away, neither from its
fields nor from an object in them that is still one, and the same updates once more change nothing. -/
theorem put_history (fit : address? kind key = some address) {updates : List Fields}
    (ordered : ∀ update ∈ updates, update.ordered) (store : Store) :
    let puts := updates.map (Operation.put kind key)
    let after := (store.operateAll puts).2
    (store.fieldsAt kind address = none →
      ((after.fieldsAt kind address).isSome ↔ updates ≠ []) ∧
      ∀ fields, after.fieldsAt kind address = some fields →
        ∀ path inner, fields.inside? path = some inner →
          Fields.Outcome (Fields.history updates path) inner) ∧
    (∀ update ∈ updates, ∀ (store : Store) (old : Fields), store.fieldsAt kind address = some old →
      ∃ new, (store.operate (.put kind key update)).2.fieldsAt kind address = some new ∧
        ∀ path before after, old.inside? path = some before → new.inside? path = some after →
          ∀ name, before.contains name → after.contains name) ∧
    (after.operateAll puts).2 = after := by
  intro puts after
  refine ⟨fun fresh => ?_, fun update member store old here => ?_, ?_⟩
  · have held : after.fieldsAt kind address = pile onto none updates := by
      rw [← fresh]
      exact fieldsAt_puts fit updates store
    by_cases nothing : updates = []
    · subst nothing
      exact ⟨by simp [held, pile], fun fields found => by simp [held, pile] at found⟩
    · rw [pile_onto_none ordered nothing] at held
      refine ⟨by simp [held, nothing], fun fields found path inner reached => ?_⟩
      obtain rfl := Option.some.inj (held.symm.trans found)
      obtain ⟨sorted, rfl⟩ := Fields.inside?_merged ordered reached
      exact Fields.outcome_merged sorted
  · refine ⟨old.merge update, ?_, fun path before after reached still name => ?_⟩
    · have one := fieldsAt_puts fit [update] store
      rw [here] at one
      exact one
    · exact Fields.contains_inside?_merge (ordered update member) reached still
  · exact operateAll_puts_again fit ordered store

/-- A field is an object, is reset and becomes one again, with another update in between. -/
theorem put_history_reset :
    let updates : List Fields :=
      [[("a", .obj [("x", .str "1")])], [("a", .null), ("c", .null)],
       [("a", .obj [("y", .obj [("p", .str "2")])])], [("b", .arr [])],
       [("a", .obj [("y", .obj [("q", .str "3")])])]]
    let puts := updates.map (Operation.put .member (.scoped ⟨1⟩ ⟨7⟩))
    let after := (empty.operateAll puts).2
    let inner : Fields := [("y", .obj [("p", .str "2"), ("q", .str "3")])]
    after.fieldsAt .member (.scoped ⟨1⟩ ⟨7⟩) =
        some [("a", .obj inner), ("b", .arr []), ("c", .null)] ∧
      Fields.Outcome [[("y", .obj [("p", .str "2")])], [("y", .obj [("q", .str "3")])]] inner ∧
      (after.operateAll puts).2 = after := by
  intro updates puts after inner
  have fit : address? .member (.scoped ⟨1⟩ ⟨7⟩) = some (.scoped ⟨1⟩ ⟨7⟩) := rfl
  have ordered : ∀ update ∈ updates, update.ordered := by decide
  obtain ⟨levels, -, again⟩ := put_history fit ordered empty
  have stored : after.fieldsAt .member (.scoped ⟨1⟩ ⟨7⟩) =
      some [("a", .obj inner), ("b", .arr []), ("c", .null)] := by decide +kernel
  exact ⟨stored, (levels rfl).2 _ stored ["a"] inner rfl, again⟩

end GatewayCache.Store
