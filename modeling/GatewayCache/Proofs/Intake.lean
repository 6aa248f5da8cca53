import GatewayCache.Intake
import GatewayCache.Proofs.Placement
import GatewayCache.Proofs.Split

/-! # Intake is splitting and then writing

A payload is written while it is taken apart, and an embedded object may be refused
in the middle of that. Still nothing is left behind by a refusal: what can be
refused is refused before its first write, so taking a payload in does exactly what
splitting it first and writing all of its records afterwards does.
-/

namespace GatewayCache

open Split (Context Splitter Remainder Draft Sifted)

namespace Intake

variable {config : Config}

/-- What a payload that was taken apart, or refused, does to a store. -/
def played (config : Config) (result : Except CacheError Split) (store : Store) :
    Except CacheError Record × Store :=
  match result with
  | .ok split => (.ok split.root, store.placeEmbedded config split)
  | .error error => (.error error, store)

/-- At one place a function that takes payloads in does what a function that splits them says, and it is
refused only before its first write. -/
structure Follows (config : Config) (taker : Taker) (splitter : Splitter) (kind : Kind)
    (context : Context) : Prop where
  /-- Both come to the same record, and the embedded records are written. -/
  on_eq : ∀ payload store,
    (taker kind context payload).on store = played config (splitter kind context payload) store
  /-- What can be split can stand alone. -/
  alone : ∀ {payload split}, splitter kind context payload = .ok split →
    standsAlone kind context.guild payload
  /-- The key of a split payload is fit for its kind. -/
  address : ∀ {payload split}, splitter kind context payload = .ok split →
    Store.address? split.root.kind split.root.key = some split.root.key

theorem put_on {kind : Kind} {key : Key} (fit : Store.address? kind key = some key)
    (fields : Fields) (store : Store) :
    (put kind key fields).on store =
      (.ok (store.changeBy kind key fields), store.write kind key fields) := by
  simp only [put, Store.put, fit, Action.on_bind, Action.on_get]
  rfl

theorem commit_on {record : Record}
    (fit : Store.address? record.kind record.key = some record.key) (store : Store) :
    (commit config record).on store =
      (.ok (store.placeRoot config record).1, (store.placeRoot config record).2) := by
  unfold commit Store.placeRoot
  split
  · exact put_on fit record.fields store
  · rfl

/-- What became of an embedded object, without the records. -/
def Taken.of : Split.Extracted → Taken
  | .stored id _ => .stored id
  | .inline object => .inline object

variable {taker : Taker} {splitter : Splitter} {context : Context} {target : Target}

theorem extract_on (follows : ∀ kind ∈ target.kinds, Follows config taker splitter kind context)
    (beside : Option Json) (object : Fields) (store : Store) :
    (extract config taker context target beside object).on store =
      let extracted := Split.extract splitter context target beside object
      (.ok (.of extracted), store.writeAll config extracted.records) := by
  have among := Split.promote_kind target context.guild beside object
  unfold extract Split.extract
  rcases promoted : Split.promote target context.guild beside object with ⟨kind, payload⟩
  rw [promoted] at among
  have follows := follows kind among
  simp only
  cases apart : splitter kind context payload with
  | error error =>
    split
    · simp [follows.on_eq, apart, played, Taken.of, Split.Extracted.records, Store.writeAll_nil]
    · simp [Taken.of, Split.Extracted.records, Store.writeAll_nil]
  | ok split =>
    rw [if_pos (follows.alone apart)]
    simp only [Action.on_bind, Action.on_attempt, follows.on_eq, apart, played,
      commit_on (follows.address apart), Action.on_pure, Taken.of, Split.Extracted.records]
    rw [Store.placeRoot_snd, Store.placeEmbedded, ← Store.writeAll_append]
    rfl

theorem sift_on (follows : ∀ kind ∈ target.kinds, Follows config taker splitter kind context)
    (items : List Json) (store : Store) :
    (sift config taker context target items).on store =
      let sifted := Split.sift splitter context target items
      (.ok (sifted.ids, sifted.left), store.writeAll config sifted.records) := by
  induction items generalizing store with
  | nil => simp [sift, Split.sift, Store.writeAll_nil]
  | cons item rest ih =>
    cases item with
    | obj object =>
      simp only [sift, Split.sift, Action.on_bind, extract_on follows, ih]
      cases Split.extract splitter context target none object with
      | stored id records => simp [Taken.of, Split.Extracted.records, Store.writeAll_append]
      | inline object => simp [Taken.of, Split.Extracted.records, Store.writeAll_nil]
    | null | bool | num | str | arr =>
      simp only [sift, Split.sift, Action.on_bind, ih]
      split <;> simp_all

/-- A draft is what is left of the payload, with the records of the draft written. -/
theorem takeRelation_on {parent : Option Kind} {relation : Relation}
    (follows : Split.leadsBack relation parent = false →
      ∀ kind ∈ relation.target.kinds, Follows config taker splitter kind context)
    (draft : Draft) (store : Store) :
    (takeRelation config taker parent context draft.rest relation).on
        (store.writeAll config draft.embedded) =
      let next := Split.takeRelation splitter parent context draft relation
      (.ok next.rest, store.writeAll config next.embedded) := by
  unfold takeRelation
  cases back : Split.leadsBack relation parent with
  | true => simp [Split.takeRelation_of_leadsBack back]
  | false =>
    have follows := follows back
    simp only [Bool.false_eq_true, if_false]
    split
    · next object one found =>
      rw [Split.takeRelation_object back one found]
      simp only [Action.on_bind, extract_on follows, Store.writeAll_append]
      cases Split.extract splitter context relation.target (draft.rest.handOver relation).1
        object <;> rfl
    · next items many found =>
      rw [Split.takeRelation_items back many found]
      simp [sift_on follows, Store.writeAll_append, Except.map]
    · next notOne notMany =>
      rw [Split.takeRelation_other (fun one object => notOne object one)
        (fun many items => notMany items many)]
      rfl

theorem takeRelations_on {parent : Option Kind} {relations : List Relation}
    (follows : ∀ relation ∈ relations, Split.leadsBack relation parent = false →
      ∀ kind ∈ relation.target.kinds, Follows config taker splitter kind context)
    (draft : Draft) (store : Store) :
    (relations.foldlM (takeRelation config taker parent context) draft.rest).on
        (store.writeAll config draft.embedded) =
      let done := relations.foldl (Split.takeRelation splitter parent context) draft
      (.ok done.rest, store.writeAll config done.embedded) := by
  induction relations generalizing draft with
  | nil => rfl
  | cons relation rest ih =>
    simp only [List.foldlM_cons, List.foldl_cons, Action.on_bind,
      takeRelation_on (follows relation (by simp))]
    exact ih (fun later member => follows later (by simp [member])) _

/-- To follow at one place is to follow at the places of what is embedded there. -/
theorem step_follows {kind : Kind}
    (follows : ∀ guild, ∀ relation ∈ kind.relations,
      Split.leadsBack relation context.parent = false →
        ∀ target ∈ relation.target.kinds, Follows config taker splitter target ⟨guild, some kind⟩) :
    Follows config (step config taker) (Split.step splitter) kind context where
  on_eq payload store := by
    unfold step Split.step
    simp only [Action.on_bind, Action.on_liftExcept]
    cases kind.identify payload with
    | error error => rfl
    | ok id =>
      simp only [bind, Except.bind]
      cases Split.keyOf kind id (Split.guildOf kind id payload context.guild) with
      | error error => rfl
      | ok key =>
        have taken := takeRelations_on (follows (Split.guildOf kind id payload context.guild))
          ⟨Split.entering kind (Split.guildOf kind id payload context.guild) payload, []⟩ store
        rw [Store.writeAll_nil] at taken
        simp only [taken]
        rfl
  alone {payload split} done := by
    obtain ⟨id, key, identified, keyed, -⟩ := Split.step_ok done
    have known := (Split.keyOf_ok keyed).2.2
    simp only [standsAlone, identified, Except.isOk, Except.toBool, Bool.true_and,
      Bool.or_eq_true, Bool.not_eq_true']
    by_cases inGuild : kind.isScoped
    · rcases Split.guildOf_isSome inGuild (known inGuild) with around | named
      · exact .inl (.inr around)
      · exact .inr named
    · exact .inl (.inl (by simpa using inGuild))
  address done := by
    obtain ⟨id, key, -, keyed, rfl⟩ := Split.step_ok done
    exact (Split.keyOf_ok keyed).1

theorem nested_follows (config : Config) (levels : Nat) (kind : Kind) (context : Context) :
    Follows config (nested config levels) (Split.nested levels) kind context := by
  induction levels generalizing kind context with
  | zero =>
    exact ⟨fun _ _ => rfl, fun done => by simp [Split.nested] at done,
      fun done => by simp [Split.nested] at done⟩
  | succ levels ih => exact step_follows fun guild _ _ _ target _ => ih target ⟨guild, some kind⟩

theorem decompose_on (config : Config) (kind : Kind) (guild : Option Snowflake) (payload : Json)
    (store : Store) :
    (decompose config kind guild payload).on store =
      played config (Split.ofJson kind guild payload) store := by
  cases payload with
  | obj payload => exact (nested_follows config Split.maxLevels kind ⟨guild, none⟩).on_eq payload store
  | null | bool | num | str | arr => rfl

/-- Taking a payload in is refused where splitting it is, and then writes nothing; otherwise it does
what placing the split payload does. -/
theorem place_on (config : Config) (kind : Kind) (guild : Option Snowflake) (payload : Json)
    (store : Store) :
    (place config kind guild payload).on store =
      match Split.ofJson kind guild payload with
      | .ok split => (.ok (store.place config split).1, (store.place config split).2)
      | .error error => (.error error, store) := by
  simp only [place, Action.on_bind, decompose_on]
  cases apart : Split.ofJson kind guild payload with
  | error error => rfl
  | ok split =>
    have fit : Store.address? split.root.kind split.root.key = some split.root.key := by
      cases payload with
      | obj payload => exact (nested_follows config Split.maxLevels kind ⟨guild, none⟩).address apart
      | null | bool | num | str | arr => simp [Split.ofJson] at apart
    simp only [played, commit_on fit]
    rfl

end Intake

end GatewayCache
