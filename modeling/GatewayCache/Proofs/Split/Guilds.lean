import GatewayCache.Proofs.Intake
import GatewayCache.Proofs.Record
import GatewayCache.Proofs.Split.Parts

/-! # Guilds that records name

The guild in a record's key is the one that can be read in its own payload, or else
the one known from around it. The field for the guild is filled in only where it is
absent. So the two agree just where the payload does not hold something in that field
that reads as no id.
-/

namespace GatewayCache

namespace Part

variable {part : Part} {split : Split} {field : String} {id : Snowflake}

/-- Whether the payload holds something in the field for its guild that reads as no id. -/
def Garbled (part : Part) : Prop :=
  part.payload.contains "guild_id" ∧ part.payload.relationId "guild_id" = none

/-- Fields that come of a part and name its guild, unless the payload is garbled. -/
structure NamesGuild (part : Part) (key : Key) (fields : Fields) : Prop where
  /-- A record that lives in a guild names that of its key. -/
  inside : part.kind.isScoped →
    ∃ guild, key.guild? = some guild ∧ (fields.relationId "guild_id" = some guild ↔ ¬ part.Garbled)
  /-- A channel, thread or sticker without a guild of its own names the one around it. -/
  inherited : part.kind ∈ [Kind.channel, .thread, .sticker] →
    part.payload.relationId "guild_id" = none → ∀ guild, part.context.guild = some guild →
      (fields.relationId "guild_id" = some guild ↔ ¬ part.Garbled)

theorem guild?_of_split (apart : part.split = .ok split) (other : part.kind ≠ .guild) :
    part.guild? = (part.payload.relationId "guild_id").or part.context.guild := by
  rw [guild?_of_identify (split_root_id apart)]
  unfold Split.guildOf
  split
  · next same => exact absurd same other
  · rfl

theorem contains_withGuild {kind : Kind} {guild : Option Snowflake} {payload : Fields}
    (inherits : kind.inheritsGuild) (known : guild.isSome) :
    (Split.withGuild kind guild payload).contains "guild_id" := by
  obtain ⟨guild, rfl⟩ := Option.isSome_iff_exists.mp known
  cases here : payload.contains "guild_id" with
  | true => simp [Split.withGuild, inherits, here]
  | false =>
    have filled : Split.withGuild kind (some guild) payload =
        payload.insert "guild_id" guild.toJson := by
      simp [Split.withGuild, inherits, here]
    simp [filled, Fields.contains]

theorem relationId_withGuild {kind : Kind} {guild : Option Snowflake} {payload : Fields}
    (inherits : kind.inheritsGuild) :
    (Split.withGuild kind guild payload).relationId "guild_id" =
      if payload.contains "guild_id" then payload.relationId "guild_id" else guild := by
  cases here : payload.contains "guild_id" with
  | true => cases guild <;> simp [Split.withGuild, here]
  | false =>
    cases guild with
    | none =>
      have absent : payload.get? "guild_id" = none := by simpa [Fields.contains] using here
      simp [Split.withGuild, Fields.relationId, absent]
    | some guild => simp [Split.withGuild, inherits, here, Fields.relationId]

theorem get?_root_guild (apart : part.split = .ok split) :
    split.root.fields.get? "guild_id" =
      (Split.withGuild part.kind part.guild? part.payload).get? "guild_id" :=
  get?_root apart (fun _ => by decide) (Split.unrelated_guild part.kind)

theorem relationId_root_guild (apart : part.split = .ok split) (inherits : part.kind.inheritsGuild) :
    split.root.fields.relationId "guild_id" =
      if part.payload.contains "guild_id" then part.payload.relationId "guild_id"
      else part.guild? := by
  rw [← relationId_withGuild inherits, Fields.relationId, get?_root_guild apart, Fields.relationId]

/-- Where a guild is known, the field is right unless it is garbled. -/
theorem relationId_root_guild_iff (apart : part.split = .ok split)
    (inherits : part.kind.inheritsGuild) (other : part.kind ≠ .guild)
    (known : part.guild? = some id) :
    split.root.fields.relationId "guild_id" = some id ↔ ¬ part.Garbled := by
  rw [relationId_root_guild apart inherits, Garbled]
  rw [guild?_of_split apart other] at known
  cases own : part.payload.relationId "guild_id" with
  | some guild =>
    have has := Fields.contains_of_relationId own
    simpa [own, has] using known
  | none => cases part.payload.contains "guild_id" <;> simp_all [guild?_of_split apart other]

theorem root_guild? (apart : part.split = .ok split) (inGuild : part.kind.isScoped) :
    part.guild?.isSome ∧ split.root.key.guild? = part.guild? := by
  have keyed := split_root_key apart
  rw [Split.keyOf, if_pos inGuild] at keyed
  cases known : part.guild? with
  | none => simp [known] at keyed
  | some guild =>
    simp only [known, Option.elim_some, Except.ok.injEq] at keyed
    simp [← keyed, Key.guild?]

theorem inheritsGuild_of_isScoped {kind : Kind} (inGuild : kind.isScoped) :
    kind.inheritsGuild ∧ kind ≠ .guild := by
  cases kind <;> simp_all [Kind.isScoped, Kind.inheritsGuild]

theorem inheritsGuild_of_mem {kind : Kind} (member : kind ∈ [Kind.channel, .thread, .sticker]) :
    kind.inheritsGuild ∧ kind ≠ .guild := by
  simp only [List.mem_cons, List.not_mem_nil, or_false] at member
  rcases member with rfl | rfl | rfl <;> decide

theorem namesGuild_of_root (apart : part.split = .ok split) {fields : Fields}
    (same : part.kind.inheritsGuild → part.guild?.isSome →
      fields.relationId "guild_id" = split.root.fields.relationId "guild_id") :
    part.NamesGuild split.root.key fields := by
  refine ⟨fun inGuild => ?_, fun member unnamed guild around => ?_⟩
  · obtain ⟨inherits, other⟩ := inheritsGuild_of_isScoped inGuild
    obtain ⟨known, keyed⟩ := root_guild? apart inGuild
    obtain ⟨guild, found⟩ := Option.isSome_iff_exists.mp known
    refine ⟨guild, keyed.trans found, ?_⟩
    rw [same inherits known]
    exact relationId_root_guild_iff apart inherits other found
  · obtain ⟨inherits, other⟩ := inheritsGuild_of_mem member
    have found : part.guild? = some guild := by
      rw [guild?_of_split apart other, unnamed, around]
      rfl
    rw [same inherits (by simp [found])]
    exact relationId_root_guild_iff apart inherits other found

end Part

namespace Store

theorem relationId_changeBy (store : Store) (kind : Kind) (key : Key) {fields : Fields}
    {field : String} (ordered : fields.ordered) (has : fields.contains field) :
    (store.changeBy kind key fields).after.fields.relationId field = fields.relationId field := by
  unfold changeBy
  split
  · rfl
  · exact Fields.relationId_merge_of_contains ordered has _

end Store

namespace Intake

/-- Whatever is written of a payload names its guild, as it is taken out of the payload and as it is
stored then, in any store: a record that lives in a guild names that of its key, and a channel,
thread or sticker the guild around it. It fails to just where the record's own payload holds
something in the field for the guild that reads as no id. -/
theorem place_names_guild (config : Config) (kind : Kind) (guild : Option Snowflake)
    {payload : Fields} (ordered : payload.ordered) {store after : Store} {change : Change}
    (placed : (place config kind guild (.obj payload)).on store = (.ok change, after)) :
    ∃ records, after = store.writeAll config records ∧
      ∀ record ∈ records, ∃ part, (Part.mk kind ⟨guild, none⟩ payload).Within part ∧
        part.root? = some record ∧ part.NamesGuild record.key record.fields ∧
          ∀ store : Store, part.NamesGuild record.key
            (store.changeBy record.kind record.key record.fields).after.fields := by
  rw [place_on] at placed
  cases apart : Split.ofJson kind guild (.obj payload) with
  | error error => simp [apart] at placed
  | ok split =>
    simp only [apart, Prod.mk.injEq] at placed
    refine ⟨split.records, by rw [← placed.2, Store.place_snd], fun record member => ?_⟩
    have whole : (Part.mk kind ⟨guild, none⟩ payload).split = .ok split := apart
    have sorted := Split.ofJson_ordered apart ordered record member
    rw [← Part.records_of_split whole] at member
    obtain ⟨part, own, within, found, rfl⟩ := Part.exists_root member
    refine ⟨part, within, Part.root?_of_split found, ?_, fun store => ?_⟩
    · exact Part.namesGuild_of_root found fun _ _ => rfl
    · refine Part.namesGuild_of_root found fun inherits known => ?_
      refine Store.relationId_changeBy store _ _ sorted ?_
      rw [Fields.contains, Part.get?_root_guild found]
      exact Part.contains_withGuild inherits known

/-- A guild is placed whose second role and channel leave their guild out, while the first ones have
`null` for it and are stored so. -/
theorem place_names_guild_null :
    let payload : Fields :=
      [("channels", .arr
        [.obj [("guild_id", .null), ("id", .str "5")], .obj [("id", .str "6")]]),
       ("id", .str "1"),
       ("roles", .arr [.obj [("guild_id", .null), ("id", .str "2")], .obj [("id", .str "3")]])]
    let placed := (place {} .guild none (.obj payload)).on .empty
    let owner (kind : Kind) (key : Key) : Option (Option Snowflake) :=
      (placed.2.fieldsAt kind key).map (·.relationId "guild_id")
    (owner .role (.scoped ⟨1⟩ ⟨2⟩) = some none ∧ owner .role (.scoped ⟨1⟩ ⟨3⟩) = some (some ⟨1⟩) ∧
        owner .channel (.global ⟨5⟩) = some none ∧
        owner .channel (.global ⟨6⟩) = some (some ⟨1⟩)) ∧
      ∃ records, placed.2 = Store.empty.writeAll {} records ∧
        ∀ record ∈ records, ∃ part, (Part.mk .guild ⟨none, none⟩ payload).Within part ∧
          part.root? = some record ∧ part.NamesGuild record.key record.fields ∧
            ∀ store : Store, part.NamesGuild record.key
              (store.changeBy record.kind record.key record.fields).after.fields := by
  intro payload placed owner
  refine ⟨by decide +kernel, ?_⟩
  have succeeds : ∃ change, placed.1 = .ok change := by
    cases done : placed.1 with
    | ok change => exact ⟨change, rfl⟩
    | error error =>
      have fine : placed.1.isOk = true := by decide +kernel
      simp [done, Except.isOk, Except.toBool] at fine
  obtain ⟨change, done⟩ := succeeds
  exact place_names_guild {} .guild none (by decide) (Prod.ext done rfl)

end Intake

end GatewayCache
