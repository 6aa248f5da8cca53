import Mathlib.Data.List.Induction
import GatewayCache.Proofs.Cache.Replacement
import GatewayCache.Proofs.Intake
import GatewayCache.Proofs.Split.Parts

/-! # What a payload writes

Taking a payload in writes while it reads, level by level, and an embedded object
that is refused on the way stays inline. All the same the store has no say in any of
it: there is one list of writes, known from the payload and the configuration alone,
and every store ends as what it was with these writes merged into it.
-/

namespace GatewayCache

namespace Part

/-- A payload that nothing was found around but perhaps its guild. -/
def ofPayload (kind : Kind) (guild : Option Snowflake) (payload : Fields) : Part :=
  ⟨kind, ⟨guild, none⟩, payload⟩

/-- The records of the objects embedded in a part whose kinds are stored, in the order of writing. -/
def writes (config : Config) (part : Part) : List Record :=
  (part.held.flatMap records).filter (fun record => config.stores record.kind)

/-- A record is what an object embedded in a part, at any depth, comes to as a record of its own. -/
def Embeds (part : Part) (record : Record) : Prop :=
  ∃ held ∈ part.held, ∃ inner, held.Within inner ∧ inner.root? = some record

variable {config : Config} {part : Part} {split : Split} {record : Record}

theorem embeds_of_mem_writes (member : record ∈ part.writes config) :
    config.stores record.kind ∧ part.Embeds record := by
  obtain ⟨inside, stored⟩ := List.mem_filter.mp member
  obtain ⟨held, here, within⟩ := List.mem_flatMap.mp inside
  obtain ⟨inner, own, below, apart, rfl⟩ := exists_root within
  exact ⟨stored, held, here, inner, below, root?_of_split apart⟩

end Part

namespace Store

/-- The content of a cell with the fields of those records laid over it that go there, in turn. -/
def contentAfter (content : Option Fields) (kind : Kind) (key : Key) (writes : List Record) :
    Option Fields :=
  (writes.filter (fun write => (write.kind, write.key) = (kind, key))).foldl
    (fun content write => some (onto content write.fields)) content

theorem contentAfter_of_untouched {content : Option Fields} {kind : Kind} {key : Key}
    {writes : List Record} (untouched : ∀ write ∈ writes, (write.kind, write.key) ≠ (kind, key)) :
    contentAfter content kind key writes = content := by
  unfold contentAfter
  rw [List.filter_eq_nil_iff.mpr (by simpa using untouched)]
  rfl

theorem contentAfter_concat (content : Option Fields) (kind : Kind) (key : Key) (writes : List Record)
    (write : Record) :
    contentAfter content kind key (writes ++ [write]) =
      if (write.kind, write.key) = (kind, key) then
        some (onto (contentAfter content kind key writes) write.fields)
      else contentAfter content kind key writes := by
  unfold contentAfter
  rw [List.filter_append, List.foldl_append, List.filter_singleton]
  by_cases here : (write.kind, write.key) = (kind, key) <;> simp [here]

theorem isSome_contentAfter {write : Record} {writes : List Record} (here : write ∈ writes)
    (content : Option Fields) : (contentAfter content write.kind write.key writes).isSome := by
  induction writes using List.reverseRecOn with
  | nil => cases here
  | append_singleton front last ih =>
    rw [contentAfter_concat]
    split
    · rfl
    · next apart =>
      rcases List.mem_append.mp here with earlier | now
      · exact ih earlier
      · rw [List.mem_singleton.mp now] at apart
        exact absurd rfl apart

theorem fieldsAt_foldl_writeRecord (store : Store) (kind : Kind) (key : Key)
    (writes : List Record) :
    (writes.foldl writeRecord store).fieldsAt kind key =
      contentAfter (store.fieldsAt kind key) kind key writes := by
  induction writes generalizing store with
  | nil => rfl
  | cons write rest ih =>
    rw [List.foldl_cons, ih, writeRecord, fieldsAt_write]
    unfold contentAfter
    by_cases here : (write.kind, write.key) = (kind, key)
    · obtain ⟨rfl, rfl⟩ := Prod.mk.inj here
      simp
    · rw [if_neg here, List.filter_cons_of_neg (by simpa using here)]

end Store

namespace Intake

variable {config : Config} {part : Part} {split : Split}

theorem placeEmbedded_of_split (apart : part.split = .ok split) (store : Store) :
    store.placeEmbedded config split = (part.writes config).foldl Store.writeRecord store := by
  rw [Store.placeEmbedded, Store.writeAll, Part.split_embedded apart, Part.writes]

/-- Writing the record of a payload last reports it laid over what is there by then. -/
theorem placeRoot_eq (store : Store) (root : Record) :
    store.placeRoot config root =
      let before := if config.stores root.kind then store.recordAt root.kind root.key else none
      (⟨before, before.elim root (fun record => record.merge root.fields)⟩,
        (if config.stores root.kind then [root] else []).foldl Store.writeRecord store) := by
  unfold Store.placeRoot
  split
  · simp only [Store.changeBy, List.foldl_cons, List.foldl_nil]
    cases store.recordAt root.kind root.key <;> rfl
  · rfl

theorem split_of_decompose {kind : Kind} {guild : Option Snowflake} {payload : Fields}
    {store after : Store} {root : Record}
    (done : (decompose config kind guild (.obj payload)).on store = (.ok root, after)) :
    ∃ split, (Part.ofPayload kind guild payload).split = .ok split ∧ split.root = root ∧
      after = store.placeEmbedded config split := by
  rw [decompose_on] at done
  cases apart : Split.ofJson kind guild (.obj payload) with
  | error error =>
    rw [apart] at done
    cases done
  | ok split =>
    rw [apart] at done
    obtain ⟨made, written⟩ := Prod.mk.inj done
    exact ⟨split, apart, Except.ok.inj made, written.symm⟩

theorem split_of_place {kind : Kind} {guild : Option Snowflake} {payload : Fields}
    {store after : Store} {change : Change}
    (done : (place config kind guild (.obj payload)).on store = (.ok change, after)) :
    ∃ split, (Part.ofPayload kind guild payload).split = .ok split ∧
      after = store.writeAll config split.records := by
  rw [place_on] at done
  cases apart : Split.ofJson kind guild (.obj payload) with
  | error error =>
    rw [apart] at done
    cases done
  | ok split =>
    rw [apart] at done
    refine ⟨split, apart, ?_⟩
    rw [← Store.place_snd]
    exact (Prod.mk.inj done).2.symm

/-- Taking a payload apart or taking it in never looks at the store: either both are refused with one
error for all stores, before anything is written, or there are one record and one list of writes of
objects embedded in the payload. These are merged into the store, each into its own cell, and where the
payload is taken in and its kind is stored, the record of the payload is merged last. -/
theorem decompose_place_writes (config : Config) (kind : Kind) (guild : Option Snowflake)
    (payload : Json) :
    (∃ error, ∀ store,
      (decompose config kind guild payload).on store = (.error error, store) ∧
      (place config kind guild payload).on store = (.error error, store)) ∨
    ∃ fields normalized writes, payload = .obj fields ∧
      (Part.ofPayload kind guild fields).root? = some normalized ∧
      normalized.kind = kind ∧ kind.identify fields = .ok normalized.id ∧
      (∀ write ∈ writes,
        config.stores write.kind ∧ (Part.ofPayload kind guild fields).Embeds write) ∧
      ∀ store,
        let embedded := writes.foldl Store.writeRecord store
        let all := writes ++ if config.stores kind then [normalized] else []
        let before := if config.stores kind then embedded.recordAt kind normalized.key else none
        (decompose config kind guild payload).on store = (.ok normalized, embedded) ∧
        (place config kind guild payload).on store =
          (.ok ⟨before, before.elim normalized (fun record => record.merge normalized.fields)⟩,
            all.foldl Store.writeRecord store) ∧
        ∀ other key,
          embedded.fieldsAt other key =
            Store.contentAfter (store.fieldsAt other key) other key writes ∧
          (all.foldl Store.writeRecord store).fieldsAt other key =
            Store.contentAfter (store.fieldsAt other key) other key all ∧
          ((∀ write ∈ all, (write.kind, write.key) ≠ (other, key)) →
            embedded.fieldsAt other key = store.fieldsAt other key ∧
            (all.foldl Store.writeRecord store).fieldsAt other key = store.fieldsAt other key) := by
  cases apart : Split.ofJson kind guild payload with
  | error error =>
    refine .inl ⟨error, fun store => ⟨?_, ?_⟩⟩
    · simp only [decompose_on, apart, played]
    · simp only [place_on, apart]
  | ok split =>
    cases payload with
    | null | bool | num | str | arr => simp [Split.ofJson] at apart
    | obj fields =>
      have own : (Part.ofPayload kind guild fields).split = .ok split := apart
      have sameKind : split.root.kind = kind := Part.split_root_kind own
      refine .inr ⟨fields, split.root, (Part.ofPayload kind guild fields).writes config, rfl,
        Part.root?_of_split own, sameKind, Part.split_root_id own,
        fun write member => Part.embeds_of_mem_writes member, fun store => ⟨?_, ?_, ?_⟩⟩
      · simp only [decompose_on, apart, played, placeEmbedded_of_split own]
      · simp only [place_on, apart, Store.place, placeEmbedded_of_split own, placeRoot_eq, sameKind,
          List.foldl_append]
      · intro other key
        refine ⟨Store.fieldsAt_foldl_writeRecord .., Store.fieldsAt_foldl_writeRecord .., ?_⟩
        intro untouched
        rw [Store.fieldsAt_foldl_writeRecord, Store.fieldsAt_foldl_writeRecord]
        exact ⟨Store.contentAfter_of_untouched fun write member =>
          untouched write (List.mem_append_left _ member),
          Store.contentAfter_of_untouched untouched⟩

end Intake

end GatewayCache
