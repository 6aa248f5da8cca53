import GatewayCache.Placement
import GatewayCache.Proofs.Json.Merge
import GatewayCache.Proofs.Split
import GatewayCache.Proofs.Store.Cells

/-! # Writing records in turn

Records written one after another are histories of the cells that they go to. So
writing the same records again has no effect, whatever else was written, as long
as their own cells have not moved in the meantime.
-/

namespace GatewayCache.Store

theorem writeAll_nil (config : Config) (store : Store) : writeAll config store [] = store := rfl

theorem writeAll_append (config : Config) (store : Store) (first second : List Record) :
    writeAll config store (first ++ second) =
      writeAll config (writeAll config store first) second := by
  simp [writeAll]

theorem writeAll_singleton (config : Config) (store : Store) (record : Record) :
    writeAll config store [record] =
      if config.stores record.kind then store.writeRecord record else store := by
  by_cases stored : config.stores record.kind <;> simp [writeAll, stored]

theorem placeRoot_snd (config : Config) (store : Store) (root : Record) :
    (placeRoot config store root).2 = writeAll config store [root] := by
  rw [writeAll_singleton, placeRoot]
  split <;> rfl

theorem placeRoot_after (config : Config) (store : Store) (root : Record) :
    (placeRoot config store root).1.after.kind = root.kind ∧
      (placeRoot config store root).1.after.key = root.key := by
  unfold placeRoot
  split
  · cases before : store.recordAt root.kind root.key with
    | none => simp [changeBy, before]
    | some record =>
      simp only [recordAt, Option.map_eq_some_iff] at before
      obtain ⟨fields, found, rfl⟩ := before
      simp [changeBy, recordAt, found, Record.merge]
  · exact ⟨rfl, rfl⟩

theorem place_after (config : Config) (store : Store) (split : Split) :
    (store.place config split).1.after.kind = split.root.kind ∧
      (store.place config split).1.after.key = split.root.key :=
  placeRoot_after config _ split.root

theorem place_snd (config : Config) (store : Store) (split : Split) :
    (store.place config split).2 = writeAll config store split.records := by
  rw [place, placeRoot_snd, placeEmbedded, Split.records, writeAll_append]

theorem placeAll_snd (config : Config) (store : Store) (splits : List Split) :
    (store.placeAll config splits).2 = writeAll config store (splits.flatMap Split.records) := by
  induction splits generalizing store with
  | nil => rfl
  | cons split rest ih =>
    rw [List.flatMap_cons, writeAll_append, ← place_snd, ← ih]
    rfl

theorem placeAll_ids (config : Config) (store : Store) (splits : List Split) :
    ((store.placeAll config splits).1.map Change.after).map Record.id =
      splits.map (fun split => split.root.id) := by
  induction splits generalizing store with
  | nil => rfl
  | cons split rest ih =>
    have first : (store.place config split).1.after.id = split.root.id :=
      congrArg Key.id (place_after config store split).2
    have later := ih (store.place config split).2
    simp only [placeAll, List.map_cons, first]
    rw [later]

theorem pile_onto_some (fields : Fields) (values : List Fields) :
    pile onto (some fields) values = some (fields.mergeAll values) := by
  induction values generalizing fields with
  | nil => rfl
  | cons value rest ih => exact ih (fields.merge value)

theorem pile_onto_none {values : List Fields} (ordered : ∀ value ∈ values, value.ordered)
    (nonempty : values ≠ []) : pile onto none values = some (Fields.mergeAll [] values) := by
  cases values with
  | nil => exact absurd rfl nonempty
  | cons first rest =>
    have fresh : pile onto none (first :: rest) = pile onto (some first) rest := rfl
    rw [fresh, pile_onto_some, Fields.mergeAll, Fields.mergeAll, List.foldl_cons,
      Fields.nil_merge (ordered first (by simp))]

theorem pile_onto_pile {values : List Fields} (ordered : ∀ value ∈ values, value.ordered)
    (content : Option Fields) :
    pile onto (pile onto content values) values = pile onto content values := by
  cases content with
  | some fields => rw [pile_onto_some, pile_onto_some, Fields.mergeAll_mergeAll ordered]
  | none =>
    cases values with
    | nil => rfl
    | cons first rest =>
      rw [pile_onto_none ordered (by simp), pile_onto_some, Fields.mergeAll_mergeAll ordered]

theorem mem_entriesOf {config : Config} {records : List Record} {entry : (Kind × Key) × Fields}
    (member : entry ∈ entriesOf config records) :
    ∃ record ∈ records, config.stores record.kind ∧ entry = entryOf record := by
  simp only [entriesOf, List.mem_map, List.mem_filter] at member
  obtain ⟨record, ⟨here, stored⟩, rfl⟩ := member
  exact ⟨record, here, stored, rfl⟩

/-- What is written to a cell is laid over its content, whatever is in other cells. -/
theorem fieldsAt_writeAll (config : Config) (records : List Record) (store : Store) (kind : Kind)
    (place : Key) :
    (writeAll config store records).fieldsAt kind place =
      pile onto (store.fieldsAt kind place) (valuesAt (kind, place) (entriesOf config records)) := by
  rw [writeAll_eq_layAll]
  exact cells.get?_layAll onto (kind, place) (entriesOf config records) store

theorem fieldsAt_writeAll_of_untouched {config : Config} {records : List Record} {store : Store}
    {kind : Kind} {place : Key}
    (untouched : ∀ record ∈ records, config.stores record.kind →
      (record.kind, record.key) ≠ (kind, place)) :
    (writeAll config store records).fieldsAt kind place = store.fieldsAt kind place := by
  rw [fieldsAt_writeAll, valuesAt_eq_nil]
  · rfl
  · intro entry member
    obtain ⟨record, here, stored, rfl⟩ := mem_entriesOf member
    exact untouched record here stored

theorem entries_stable (config : Config) {records : List Record}
    (ordered : ∀ record ∈ records, record.fields.ordered) :
    Cells.Stable onto (entriesOf config records) := by
  intro place content
  apply pile_onto_pile
  intro value member
  simp only [valuesAt, List.mem_map, List.mem_filter] at member
  obtain ⟨entry, ⟨inside, -⟩, rfl⟩ := member
  obtain ⟨record, here, -, rfl⟩ := mem_entriesOf inside
  exact ordered record here

/-- The cells of some records hold in one store what they hold in another. -/
def Unmoved (config : Config) (records : List Record) (store other : Store) : Prop :=
  ∀ record ∈ records, config.stores record.kind →
    other.fieldsAt record.kind record.key = store.fieldsAt record.kind record.key

theorem writeAll_of_unmoved {config : Config} {records : List Record}
    (ordered : ∀ record ∈ records, record.fields.ordered) {store other : Store}
    (unmoved : Unmoved config records (writeAll config store records) other) :
    writeAll config other records = other := by
  rw [writeAll_eq_layAll]
  apply cells.layAll_eq_self onto
  · intro entry _ value found
    exact held found
  · intro place
    by_cases untouched : ∀ entry ∈ entriesOf config records, entry.1 ≠ place
    · rw [valuesAt_eq_nil untouched]
      rfl
    · simp only [ne_eq, Classical.not_forall, Classical.not_not] at untouched
      obtain ⟨entry, member, rfl⟩ := untouched
      obtain ⟨record, here, stored, rfl⟩ := mem_entriesOf member
      have left : cells.get? (entryOf record).1 other =
          pile onto (cells.get? (entryOf record).1 store)
            (valuesAt (entryOf record).1 (entriesOf config records)) :=
        (unmoved record here stored).trans (fieldsAt_writeAll config records store _ _)
      rw [left, entries_stable config ordered]

theorem writeAll_writeAll (config : Config) {records : List Record}
    (ordered : ∀ record ∈ records, record.fields.ordered) (store : Store) :
    writeAll config (writeAll config store records) records = writeAll config store records :=
  writeAll_of_unmoved ordered (fun _ _ _ => rfl)

/-- The record that a placement reports is the one that is stored then, or the root where its kind is
not stored. -/
theorem place_after_eq (config : Config) (store : Store) (split : Split) :
    some (store.place config split).1.after =
      if config.stores split.root.kind then
        (store.place config split).2.recordAt split.root.kind split.root.key
      else some split.root := by
  unfold place placeRoot
  split
  · simp only [changeBy, recordAt, writeRecord, fieldsAt_write, if_true, Option.map_some]
    cases (store.placeEmbedded config split).fieldsAt split.root.kind split.root.key <;> rfl
  · rfl

/-- Placing a payload where its cells are as it left them has no effect, and reports the same record. -/
theorem place_of_unmoved {config : Config} {split : Split}
    (ordered : split.InOrder) {store other : Store}
    (unmoved : Unmoved config split.records (store.place config split).2 other) :
    (other.place config split).2 = other ∧
      (other.place config split).1.after = (store.place config split).1.after := by
  have same : (other.place config split).2 = other := by
    rw [place_snd] at unmoved ⊢
    exact writeAll_of_unmoved ordered unmoved
  refine ⟨same, Option.some.inj ?_⟩
  rw [place_after_eq, place_after_eq, same]
  split
  · next stored =>
    have root : split.root ∈ split.records := by simp [Split.records]
    rw [recordAt, recordAt, unmoved split.root root stored]
  · rfl

theorem placeAll_of_unmoved {config : Config} {splits : List Split}
    (ordered : ∀ split ∈ splits, split.InOrder)
    {store other : Store}
    (unmoved : Unmoved config (splits.flatMap Split.records) (store.placeAll config splits).2 other) :
    (other.placeAll config splits).2 = other := by
  rw [placeAll_snd] at unmoved ⊢
  refine writeAll_of_unmoved (fun record member => ?_) unmoved
  obtain ⟨split, here, inside⟩ := List.mem_flatMap.mp member
  exact ordered split here record inside

end GatewayCache.Store
