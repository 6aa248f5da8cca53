import GatewayCache.Proofs.Split

/-! # Guilds of split payloads

A record that lives in a guild is keyed by the guild that its own payload names, or
else by the one around it. For the payloads that are nested in updates of one guild
this leaves little to go wrong: all that is embedded in them are users, and the
member of a voice state.
-/

namespace GatewayCache.Split

variable {inner : Splitter} {kind : Kind} {context : Context} {payload : Fields} {split : Split}
  {levels : Nat} {record : Record}

/-- A record of a user, which lives in no guild. -/
structure OfUser (record : Record) : Prop where
  kind : record.kind = .user
  global : record.key.guild? = none

theorem embedded_of_no_relation (none : kind.relations = [])
    (done : step inner kind context payload = .ok split) : split.embedded = [] := by
  obtain ⟨id, key, -, -, rfl⟩ := step_ok done
  simp [none]

theorem get?_withGuild {field : String} (apart : field ≠ "guild_id") (kind : Kind)
    (guild : Option Snowflake) (payload : Fields) :
    (withGuild kind guild payload).get? field = payload.get? field := by
  unfold withGuild
  split
  · split
    · exact Fields.get?_insert_of_ne apart _ _
    · rfl
  · rfl

/-- With one relation to a single entity, all that is embedded comes from the object in its field. -/
theorem mem_embedded_of_single {field idField : String} {target : Kind}
    (one : kind.relations = [.single field target idField]) (plain : kind ≠ .message)
    (apart : field ≠ "guild_id") (done : step inner kind context payload = .ok split)
    (member : record ∈ split.embedded) :
    ∃ object inside, payload.get? field = some (.obj object) ∧
      inner target ⟨guildOf kind split.root.id payload context.guild, some kind⟩ object =
        .ok inside ∧ record ∈ inside.records := by
  obtain ⟨id, key, -, keyed, rfl⟩ := step_ok done
  have sameId : key.id = id := (keyOf_ok keyed).2.1
  simp only [one, List.foldl_cons, List.foldl_nil, takeRelation, entering, plain, false_and,
    if_false, Relation.single, get?_withGuild apart] at member
  split at member
  · cases member
  · cases found : payload.get? field with
    | none => simp [found] at member
    | some value =>
      cases value with
      | obj object =>
        simp only [found, Remainder.handOver, extract, promote, Bool.false_eq_true,
          if_false] at member
        cases apart : inner target ⟨guildOf kind id payload context.guild, some kind⟩ object with
        | error error => simp [apart] at member
        | ok inside =>
          simp only [apart, List.nil_append] at member
          exact ⟨object, inside, rfl, by rw [Record.id, sameId, apart], member⟩
      | null | bool | num | str | arr => simp [found] at member

theorem root_guild? (inGuild : kind.isScoped) (done : nested levels kind context payload = .ok split) :
    split.root.key.guild? = (payload.relationId "guild_id").or context.guild := by
  cases levels with
  | zero => cases done
  | succ levels =>
    obtain ⟨id, key, -, keyed, rfl⟩ := step_ok done
    have reading : guildOf kind id payload context.guild =
        (payload.relationId "guild_id").or context.guild := by
      cases kind <;> first | rfl | cases inGuild
    rw [reading, keyOf, if_pos inGuild] at keyed
    cases owner : (payload.relationId "guild_id").or context.guild with
    | none => simp [owner] at keyed
    | some guild =>
      simp only [owner, Option.elim_some, Except.ok.injEq] at keyed
      rw [← keyed]
      rfl

theorem nested_root_kind (done : nested levels kind context payload = .ok split) :
    split.root.kind = kind := by
  cases levels with
  | zero => cases done
  | succ levels =>
    obtain ⟨id, key, -, -, rfl⟩ := step_ok done
    rfl

theorem ofUser_of_nested (done : nested levels .user context payload = .ok split) :
    ∀ record ∈ split.records, OfUser record := by
  cases levels with
  | zero => cases done
  | succ levels =>
    intro record member
    have alone : split.embedded = [] := embedded_of_no_relation rfl done
    obtain rfl : record = split.root := by simpa [mem_records, alone] using member
    obtain ⟨id, key, -, keyed, rfl⟩ := step_ok done
    simp only [keyOf, Kind.isScoped, Bool.false_eq_true, if_false, Except.ok.injEq] at keyed
    exact ⟨rfl, by rw [← keyed]; rfl⟩

theorem ofUser_of_embedded (one : kind.relations = [.single "user" .user "user_id"])
    (plain : kind ≠ .message) (done : nested levels kind context payload = .ok split) :
    ∀ record ∈ split.embedded, OfUser record := by
  cases levels with
  | zero => cases done
  | succ levels =>
    intro record member
    obtain ⟨object, inside, -, apart, here⟩ :=
      mem_embedded_of_single one plain (by decide) done member
    exact ofUser_of_nested apart record here

/-- Besides users, the member is embedded in a voice state, in the guild that it names itself or else in
that of the voice state. -/
theorem embedded_of_voiceState (done : nested levels .voiceState context payload = .ok split)
    (member : record ∈ split.embedded) :
    OfUser record ∨ ∃ object : Fields, payload.get? "member" = some (.obj object) ∧ record.kind = .member ∧
      record.key.guild? = (object.relationId "guild_id").or
        ((payload.relationId "guild_id").or context.guild) := by
  cases levels with
  | zero => cases done
  | succ levels =>
    obtain ⟨object, inside, found, apart, here⟩ :=
      mem_embedded_of_single rfl (by decide) (by decide) done member
    rcases mem_records.mp here with embedded | rfl
    · exact .inl (ofUser_of_embedded rfl (by decide) apart record embedded)
    · exact .inr ⟨object, found, nested_root_kind apart, root_guild? rfl apart⟩

end GatewayCache.Split
