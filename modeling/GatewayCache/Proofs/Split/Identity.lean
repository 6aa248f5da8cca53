import GatewayCache.Proofs.Record
import GatewayCache.Proofs.Split.Parts

/-! # Identity of split records

A record tells the id in its key, although it was taken apart: a member's user, which
the member is identified by, leaves its id behind when it becomes a record of its own,
and stays only where it has none to tell.
-/

namespace GatewayCache

/-- A record that tells the id it is kept under. -/
structure Record.Identified (record : Record) : Prop where
  address : Store.address? record.kind record.key = some record.key
  keyed : record.kind.Keyed record.id record.fields
  ordered : record.fields.ordered

namespace Part

variable {part outer inner : Part} {split : Split} {id : Snowflake}

/-- Outside of guilds, all that a payload needs to be taken apart is an id. -/
theorem exists_split_of_identify (free : part.kind.isScoped = false)
    (identified : part.kind.identify part.payload = .ok id) :
    ∃ split, part.split = .ok split := by
  rw [Part.split, ← Split.nested_maxLevels]
  simp [Split.step, identified, Split.keyOf, free, bind, Except.bind]

/-- What is left of a payload with one relation to a single entity: the id of the entity, or the object
where it was. -/
theorem root_of_single {field idField : String} {target : Kind}
    (one : part.kind.relations = [.single field target idField]) (plain : part.kind ≠ .message)
    (notGuild : field ≠ "guild_id") (forward : part.context.parent ≠ some target)
    (apart : part.split = .ok split) :
    split.root.fields =
      let fields := Split.withGuild part.kind part.guild? part.payload
      match part.payload.get? field with
      | some (.obj object) =>
        match (Part.mk target ⟨part.guild?, some part.kind⟩ object).split with
        | .ok entity => (fields.erase field).insert idField entity.root.id.toJson
        | .error _ => (fields.erase field).insert field (.obj object)
      | _ => fields := by
  obtain ⟨id, key, -, -, rfl⟩ := split_ok apart
  have follows := Split.leadsBack_record forward field .one idField false
  simp only [one, Relation.single, List.foldl_cons, List.foldl_nil, Split.takeRelation, follows,
    Bool.false_eq_true, if_false, Split.entering, plain, false_and, Split.get?_withGuild notGuild]
  cases found : part.payload.get? field with
  | none => rfl
  | some value =>
    cases value with
    | obj object =>
      simp only [Split.Remainder.handOver, Bool.false_eq_true, if_false, extract_whole, ofObject,
        Split.promote]
      cases (Part.mk target ⟨part.guild?, some part.kind⟩ object).split <;> rfl
    | null | bool | num | str | arr => rfl

theorem keyed_of_unnamed {payload fields : Fields}
    (identified : Kind.identify .member payload = .ok id)
    (unnamed : (payload.get? "user").bind (·.get? "id") = none)
    (user : fields.get? "user" = payload.get? "user")
    (userId : fields.get? "user_id" = payload.get? "user_id")
    (own : fields.get? "id" = payload.get? "id") : Kind.Keyed .member id fields := by
  rw [Kind.identify_eq_ok, Kind.identifier?, unnamed] at identified
  refine ⟨by rw [user, unnamed], ?_⟩
  cases named : payload.get? "user_id" with
  | some value => exact .inl (by simpa [Fields.relationId, userId, named] using identified)
  | none =>
    exact .inr ⟨userId.trans named, by simpa [Fields.relationId, own, named] using identified⟩

theorem identify_user {payload object : Fields}
    (identified : Kind.identify .member payload = .ok id)
    (found : payload.get? "user" = some (.obj object)) :
    object.get? "id" = none ∨ Kind.identify .user object = .ok id := by
  cases named : object.get? "id" with
  | none => exact .inl rfl
  | some value =>
    rw [Kind.identify_eq_ok] at identified ⊢
    exact .inr (by simpa [Kind.identifier?, found, Json.get?, Json.fields?, named] using identified)

theorem keyed_member_root (member : part.kind = .member)
    (notUser : part.context.parent ≠ some .user) (apart : part.split = .ok split) :
    Kind.Keyed .member split.root.id split.root.fields := by
  obtain ⟨kind, context, payload⟩ := part
  obtain rfl : kind = .member := member
  have identified : Kind.identify .member payload = .ok split.root.id := split_root_id apart
  have made := root_of_single rfl (by simp) (by decide) notUser apart
  simp only at made
  generalize guild? ⟨.member, context, payload⟩ = guild at made
  cases found : payload.get? "user" with
  | none =>
    simp only [found] at made
    refine keyed_of_unnamed identified (by simp [found]) ?_ ?_ ?_
    all_goals exact made ▸ Split.get?_withGuild (by decide) _ _ _
  | some value =>
    cases value with
    | obj object =>
      simp only [found] at made
      have told := identify_user identified found
      cases entity : (Part.mk .user ⟨guild, some .member⟩ object).split with
      | ok user =>
        simp only [entity] at made
        have own : Kind.identify .user object = .ok user.root.id := split_root_id entity
        have same : user.root.id = split.root.id := by
          rcases told with unnamed | named
          · simp [Kind.identify, Kind.identifier?, unnamed] at own
          · exact Except.ok.inj (own.symm.trans named)
        rw [made, same]
        refine ⟨?_, .inl ?_⟩
        · rw [Fields.get?_insert_of_ne (by decide), Fields.get?_erase_self]
          rfl
        · simp [Fields.relationId]
      | error error =>
        simp only [entity] at made
        have unnamed : Fields.get? object "id" = none := by
          refine told.resolve_right fun named => ?_
          obtain ⟨user, apart⟩ :
              ∃ user, (Part.mk .user ⟨guild, some .member⟩ object).split = .ok user :=
            exists_split_of_identify rfl named
          simp [entity] at apart
        refine keyed_of_unnamed identified (by simpa [found, Json.get?, Json.fields?]) ?_ ?_ ?_
        · rw [made, Fields.get?_insert_self, found]
        all_goals rw [made, Fields.get?_insert_of_ne (by decide), Fields.get?_erase_of_ne (by decide),
          Split.get?_withGuild (by decide)]
    | null | bool | num | str | arr =>
      simp only [found] at made
      refine keyed_of_unnamed identified (by simp [found, Json.get?, Json.fields?]) ?_ ?_ ?_
      all_goals exact made ▸ Split.get?_withGuild (by decide) _ _ _

theorem relationId_root {field : String} (apart : part.split = .ok split)
    (notGuild : field ≠ "guild_id") (notMember : field ≠ "member")
    (unrelated : Split.Unrelated part.kind field) :
    split.root.fields.relationId field = part.payload.relationId field := by
  rw [Fields.relationId, get?_root apart (fun _ => notMember) unrelated, Split.get?_withGuild notGuild,
    Fields.relationId]

theorem keyed_root (notUser : part.context.parent ≠ some .user) (apart : part.split = .ok split) :
    part.kind.Keyed split.root.id split.root.fields := by
  obtain ⟨kind, context, payload⟩ := part
  have identified := Kind.identify_eq_ok.mp (split_root_id apart)
  have own : split.root.fields.relationId "id" = payload.relationId "id" :=
    relationId_root apart (by decide) (by decide) (Split.unrelated_id kind)
  cases kind with
  | member => exact keyed_member_root rfl notUser apart
  | voiceState =>
    have unrelated : Split.Unrelated .voiceState "user_id" := by decide
    exact (relationId_root apart (by decide) (by decide) unrelated).trans identified
  | guild | channel | thread | role | user | message | emoji | sticker | integration
  | autoModRule => exact own.trans identified

theorem parent_ne_user (held : inner ∈ outer.held) : inner.context.parent ≠ some .user := by
  obtain ⟨relation, member, -, -⟩ := mem_held.mp held
  rw [context_of_held held]
  intro user
  rw [Option.some.inj user] at member
  cases member

theorem parent_ne_user_of_within {whole : Part} (within : whole.Within part)
    (notUser : whole.context.parent ≠ some .user) : part.context.parent ≠ some .user := by
  cases within with
  | self => exact notUser
  | deeper _ held => exact parent_ne_user held

end Part

/-- Every record of a payload in order tells the id it is kept under. -/
theorem Split.ofJson_identified {kind : Kind} {guild : Option Snowflake} {payload : Json}
    {split : Split} (apart : Split.ofJson kind guild payload = .ok split)
    (ordered : payload.ordered) : ∀ record ∈ split.records, record.Identified := by
  intro record member
  have sorted := Split.ofJson_ordered apart ordered record member
  cases payload with
  | obj payload =>
    have whole : (Part.mk kind ⟨guild, none⟩ payload).split = .ok split := apart
    rw [← Part.records_of_split whole] at member
    obtain ⟨part, own, within, found, rfl⟩ := Part.exists_root member
    have notUser := Part.parent_ne_user_of_within within (by simp)
    have kind := Part.split_root_kind found
    refine ⟨Part.address?_root found, ?_, sorted⟩
    rw [kind]
    exact Part.keyed_root notUser found
  | null | bool | num | str | arr => simp [Split.ofJson] at apart

end GatewayCache
