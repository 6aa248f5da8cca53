import GatewayCache.Proofs.Intake.Writes
import GatewayCache.Proofs.Split.People
import GatewayCache.Split.Rest

/-! # What stays is kept as it came

What is not extracted from a payload is kept, and as it came, but for two things in
messages of a guild: a member field that is no object is lost, and one of its people
who has member data but no id stays inside of the member data.
-/

namespace GatewayCache

open Split (Context Draft Remainder Splitter)

namespace Split

variable {inner : Splitter} {parent : Option Kind} {context : Context} {draft : Draft}

theorem get?_finish_member (rest : Remainder) :
    rest.finish.get? "member" = rest.beside.or (rest.fields.get? "member") := by
  unfold Remainder.finish
  cases rest.beside with
  | none => rfl
  | some member => exact Fields.get?_insert_self _ _ _

theorem beside_takeRelation_author (forward : leadsBack .author parent = false) :
    (takeRelation inner parent context draft .author).rest.beside =
      if (draft.rest.fields.get? "author").any Json.isObject then none else draft.rest.beside := by
  unfold takeRelation
  simp only [forward, Bool.false_eq_true, if_false]
  simp only [Relation.author]
  cases draft.rest.fields.get? "author" with
  | none => rfl
  | some value =>
    cases value with
    | obj author =>
      simp only [Remainder.handOver, if_true]
      split <;> rfl
    | null | bool | num | str | arr => rfl

end Split

namespace Part

variable {part : Part} {split : Split} {relation : Relation} {field : String}
  {keep other : Fields → Fields} {value : Json}

theorem stays?_left (left : Split.leadsBack relation part.context.parent = true ∨
      (relation.shape = .one → ∀ object, value ≠ .obj object) ∧
      (relation.shape = .many → ∀ items, value ≠ .arr items)) :
    part.stays? relation keep value = some value := by
  unfold stays?
  split
  · rfl
  · next forward =>
    obtain ⟨notOne, notMany⟩ := left.resolve_left forward
    split
    · next object one => exact absurd rfl (notOne one object)
    · next items many => exact absurd rfl (notMany many items)
    · rfl

theorem leftOf?_eq (among : relation ∈ part.kind.relations) (many : relation.shape = .many) :
    part.leftOf? relation (fun object => (part.heldAt relation object).payload) =
      Split.entryLeft? ⟨part.guild?, some part.kind⟩ relation.target := by
  funext entry
  cases entry with
  | obj object =>
    simp only [leftOf?, Split.entryLeft?, Split.entryId?, Split.staying, heldAt_of_many among many]
    rfl
  | null | bool | num | str | arr => rfl

theorem leaves_embedded (apart : part.split = .ok split) (among : relation ∈ part.kind.relations) :
    split.root.fields.get? relation.field = (part.payload.get? relation.field).bind
      (part.stays? relation fun object => (part.heldAt relation object).payload) := by
  have own : relation.field ∈ relation.fields := by simp [Relation.fields]
  cases found : part.payload.get? relation.field with
  | none =>
    rw [root_left apart among (.inr ⟨by simp [found], by simp [found]⟩) own, found]
    rfl
  | some value =>
    rw [Option.bind_some]
    have whole : Split.leadsBack relation part.context.parent = true ∨
        (relation.shape = .one → ∀ object, value ≠ .obj object) ∧
        (relation.shape = .many → ∀ items, value ≠ .arr items) →
        split.root.fields.get? relation.field = part.stays? relation
          (fun object => (part.heldAt relation object).payload) value := by
      intro left
      rw [stays?_left left, root_left apart among (by simpa [found] using left) own, found]
    cases back : Split.leadsBack relation part.context.parent with
    | true => exact whole (.inl back)
    | false =>
      cases shape : relation.shape with
      | one =>
        cases value with
        | obj object =>
          obtain ⟨known, unknown⟩ := root_single apart back among shape found
          cases held : (part.heldAt relation object).id? with
          | some id => simp [(known id held).2, stays?, back, shape, leftOf?, held]
          | none => simp [unknown held, stays?, back, shape, leftOf?, held]
        | null | bool | num | str | arr => exact whole (.inr ⟨by simp, by simp [shape]⟩)
      | many =>
        cases value with
        | arr items =>
          rw [(root_list apart back among shape found).2, ← leftOf?_eq among shape]
          simp [stays?, back, shape]
        | null | bool | num | str | obj => exact whole (.inr ⟨by simp [shape], by simp⟩)

theorem get?_root_member (message : part.kind = .message)
    (parent : ∀ kind ∈ part.context.parent, kind = .message) (apart : part.split = .ok split) :
    split.root.fields.get? "member" =
      if part.guild? = none then part.payload.get? "member"
      else if (part.payload.get? "author").any Json.isObject then none
      else (part.payload.get? "member").filter Json.isObject := by
  have listed : Relation.author ∈ Relation.people := by decide
  have forward := (people_followed message parent listed).2
  obtain ⟨id, key, -, -, rfl⟩ := split_ok apart
  have unrelated : Split.Unrelated .message "member" := by decide
  have author : (Split.entering part.kind part.guild? part.payload).fields.get? "author" =
      part.payload.get? "author" := by
    rw [Split.get?_entering (fun _ => by decide), Split.get?_withGuild (by decide)]
  simp only
  -- No relation is about the field itself, so only what waits beside the author decides.
  rw [Split.get?_finish_member, Split.get?_takeRelations (message ▸ unrelated)]
  have beside : (part.kind.relations.foldl (Split.takeRelation Split.whole part.context.parent
      ⟨part.guild?, some part.kind⟩) ⟨Split.entering part.kind part.guild? part.payload, []⟩).rest.beside =
      if (part.payload.get? "author").any Json.isObject then none
      else (Split.entering part.kind part.guild? part.payload).beside := by
    rw [message, Kind.relations, List.foldl_cons, List.foldl_cons, List.foldl_cons, List.foldl_cons,
      List.foldl_nil, Split.beside_takeRelation rfl, Split.beside_takeRelation rfl,
      Split.beside_takeRelation rfl, ← author, message]
    exact Split.beside_takeRelation_author forward
  rw [beside, message]
  cases part.guild? with
  | none => simp [Split.entering, Split.withGuild]
  | some owner =>
    have entered : Split.entering .message (some owner) part.payload =
        ⟨part.payload.erase "member", (part.payload.get? "member").filter Json.isObject⟩ := rfl
    simp [entered]

theorem keepsGuild_root (apart : part.split = .ok split) : part.KeepsGuild split.root.fields := by
  rw [KeepsGuild, get?_root apart (fun _ => by decide) (Split.unrelated_guild part.kind)]
  unfold Split.withGuild
  cases part.guild? with
  | none => exact .inl rfl
  | some owner =>
    simp only
    split
    · next added =>
      refine .inr ⟨?_, Fields.get?_insert_self _ _ _⟩
      simpa [Fields.contains] using (Bool.and_eq_true_iff.mp added).2
    · exact .inl rfl

/-- What a record has of its payload. -/
theorem leaves_root (parent : part.kind = .message → ∀ kind ∈ part.context.parent, kind = .message)
    (apart : part.split = .ok split) : part.Leaves split.root.fields where
  plain field rest notMember := by
    rw [get?_root apart notMember rest.2, Split.get?_withGuild rest.1]
  member message := get?_root_member message (parent message) apart
  guild := keepsGuild_root apart
  embedded relation among := leaves_embedded apart among

theorem filterMap_eq_iff {α β : Type} {f g : α → Option β} (both : ∀ x, (f x).isSome = (g x).isSome)
    (items : List α) : items.filterMap f = items.filterMap g ↔ ∀ x ∈ items, f x = g x := by
  induction items with
  | nil => simp
  | cons first rest ih =>
    have same := both first
    rw [List.filterMap_cons, List.filterMap_cons, List.forall_mem_cons, ← ih]
    cases left : f first <;> cases right : g first <;> simp_all

theorem leftOf?_eq_iff (object : Fields) :
    part.leftOf? relation keep (.obj object) = part.leftOf? relation other (.obj object) ↔
      ((part.heldAt relation object).id? = none → keep object = other object) := by
  simp only [leftOf?]
  cases (part.heldAt relation object).id? <;> simp

theorem stays?_eq_iff (forward : Split.leadsBack relation part.context.parent = false) :
    (part.payload.get? relation.field).bind (part.stays? relation keep) =
        (part.payload.get? relation.field).bind (part.stays? relation other) ↔
      ∀ object ∈ part.objectsAt relation, (part.heldAt relation object).id? = none →
        keep object = other object := by
  unfold objectsAt stays?
  simp only [forward, Bool.false_eq_true, if_false]
  cases relation.shape with
  | one =>
    cases part.payload.get? relation.field with
    | none => simp
    | some value =>
      cases value with
      | obj object => simpa using leftOf?_eq_iff object
      | null | bool | num | str | arr => simp
  | many =>
    cases part.payload.get? relation.field with
    | none => simp
    | some value =>
      cases value with
      | arr items =>
        have both : ∀ entry, (part.leftOf? relation keep entry).isSome =
            (part.leftOf? relation other entry).isSome := by
          intro entry
          cases entry with
          | obj object =>
            simp only [leftOf?]
            split <;> rfl
          | null | bool | num | str | arr => rfl
        have lists : ∀ left right : List Json,
            (if left = [] then none else some (Json.arr left)) =
              (if right = [] then none else some (Json.arr right)) ↔ left = right := by
          intro left right
          cases left <;> cases right <;> simp
        simp only [Option.bind_some, lists, filterMap_eq_iff both]
        constructor
        · intro agree object member
          obtain ⟨entry, here, view⟩ := List.mem_filterMap.mp member
          rw [Json.eq_obj_of_fields? view] at here
          exact (leftOf?_eq_iff object).mp (agree _ here)
        · intro agree entry here
          cases entry with
          | obj object =>
            exact (leftOf?_eq_iff object).mpr (agree object (List.mem_filterMap.mpr ⟨_, here, rfl⟩))
          | null | bool | num | str | arr => rfl
      | null | bool | num | str | obj => simp

theorem insert_user_ne {user data inside : Fields}
    (source : inside = user ∨ inside = user.erase "member" ∧ user.get? "member" = some (.obj data)) :
    data.insert "user" (.obj inside) ≠ user := by
  intro same
  -- Either way an object would hold itself: the user, or the member data inside of the user.
  rcases source with rfl | ⟨rfl, own⟩
  · have found := Fields.get?_insert_self "user" (.obj inside) data
    rw [same] at found
    exact Fields.get?_ne_self found
  · have found := Fields.get?_insert_of_ne (show "member" ≠ "user" by decide)
      (.obj (user.erase "member")) data
    rw [same, own] at found
    exact Fields.get?_ne_self found.symm

/-- An object that stays is kept as it came, unless it is one of the people with member data. -/
theorem payload_heldAt (among : relation ∈ part.kind.relations) {object : Fields}
    (here : object ∈ part.objectsAt relation) (unknown : (part.heldAt relation object).id? = none)
    (notWraps : ¬ part.WrapsPerson) : (part.heldAt relation object).payload = object := by
  have people : ∀ kind : Kind, ∀ relation ∈ kind.relations, relation.target = .userOrMember →
      kind = .message ∧ relation ∈ Relation.people := by
    intro kind
    cases kind <;> decide
  cases target : relation.target with
  | record kind => simp [heldAt, ofObject, target, Split.promote]
  | userOrMember =>
    obtain ⟨message, listed⟩ := people part.kind relation among target
    have plain := (heldAt_people message listed object).1
    by_cases alone : part.guild? = none ∨ part.memberData? relation object = none
    · rw [plain alone]
    · simp only [not_or, ← ne_eq, Option.ne_none_iff_isSome] at alone
      exact absurd ⟨message, alone.1, relation, listed, object, here, alone.2, unknown⟩ notWraps

theorem payload_heldAt_ne (message : part.kind = .message) (among : relation ∈ Relation.people)
    {user : Fields} (inGuild : part.guild?.isSome) (came : (part.memberData? relation user).isSome) :
    (part.heldAt relation user).payload ≠ user := by
  obtain ⟨data, came⟩ := Option.isSome_iff_exists.mp came
  obtain ⟨inside, held, source⟩ := (heldAt_people message among user).2 data inGuild came
  rw [held]
  exact insert_user_ne source

theorem isRest_member (message : part.kind = .message) : part.IsRest "member" := by
  have unrelated : Split.Unrelated .message "member" := by decide
  exact ⟨by decide, message ▸ unrelated⟩

theorem get?_member_kept (leaves : part.Leaves split.root.fields) (message : part.kind = .message)
    (apartFromAuthor : ¬ part.JoinsAuthor) (notDrops : ¬ part.DropsMember)
    (notWraps : ¬ part.WrapsPerson) :
    split.root.fields.get? "member" = part.payload.get? "member" := by
  rw [leaves.member message]
  cases found : part.payload.get? "member" with
  | none => simp
  | some value =>
    split
    · rfl
    · next inGuild =>
      have guild : part.guild?.isSome := Option.isSome_iff_ne_none.mpr inGuild
      have object : value.isObject := by
        by_contra other
        exact notDrops ⟨message, guild, value, found, by simpa using other⟩
      split
      · next authored =>
        -- The author takes the object: it has an id then, or it is wrapped.
        obtain ⟨author, wrote, isObject⟩ := (Option.any_eq_true _ _).mp authored
        obtain ⟨user, view⟩ := Option.isSome_iff_exists.mp isObject
        obtain rfl := Json.eq_obj_of_fields? view
        have came : (part.memberData? .author user).isSome := by
          obtain ⟨data, view⟩ := Option.isSome_iff_exists.mp object
          simp [memberData?, Relation.author, found, view]
        have here : user ∈ part.objectsAt .author := by
          simp [objectsAt, Relation.author, wrote]
        cases held : (part.heldAt .author user).id? with
        | some id =>
          exact absurd ⟨message, guild, by simpa [found] using object, user, wrote, by simp [held]⟩
            apartFromAuthor
        | none =>
          exact absurd ⟨message, guild, .author, by simp [Relation.people], user, here, came, held⟩
            notWraps
      · simp [object]

/-- A record keeps what is not extracted exactly where no member data is lost and no person without an id
is wrapped in it. -/
theorem keepsRest_iff (parent : part.kind = .message → ∀ kind ∈ part.context.parent, kind = .message)
    (apart : part.split = .ok split) :
    part.KeepsRest split.root.fields ↔ ¬ part.DropsMember ∧ ¬ part.WrapsPerson := by
  have leaves := leaves_root parent apart
  constructor
  · intro keeps
    refine ⟨?_, ?_⟩
    · rintro ⟨message, inGuild, value, found, notObject⟩
      have kept := keeps.plain "member" (isRest_member message) fun _ joins => by
        simpa [found, notObject] using joins.2.2.1
      rw [leaves.member message, found, if_neg (Option.isSome_iff_ne_none.mp inGuild)] at kept
      split at kept <;> simp [notObject] at kept
    · rintro ⟨message, inGuild, relation, among, user, here, came, unknown⟩
      obtain ⟨listed, forward⟩ := people_followed message (parent message) among
      have same := (keeps.embedded relation listed).symm.trans (leaves.embedded relation listed)
      exact payload_heldAt_ne message among inGuild came
        ((stays?_eq_iff forward).mp same user here unknown).symm
  · rintro ⟨notDrops, notWraps⟩
    refine ⟨fun field rest joins => ?_, leaves.guild, fun relation among => ?_⟩
    · by_cases member : part.kind = .message ∧ field = "member"
      · obtain ⟨message, rfl⟩ := member
        exact get?_member_kept leaves message (joins rfl) notDrops notWraps
      · exact leaves.plain field rest (not_and.mp member)
    · rw [leaves.embedded relation among]
      cases back : Split.leadsBack relation part.context.parent with
      | true =>
        have whole : ∀ keep, part.stays? relation keep = some := fun keep =>
          funext fun value => stays?_left (.inl back)
        simp only [whole]
      | false =>
        exact (stays?_eq_iff back).mpr fun object here unknown =>
          payload_heldAt among here unknown notWraps

end Part

namespace Intake

/-- What is not extracted from a payload, or from an object in it that is taken apart, is kept. It is kept
as it came exactly where no message in a guild has a member field that is no object, or one of its people
with member data but no id. -/
theorem decompose_keeps_rest (config : Config) (kind : Kind) (guild : Option Snowflake)
    (fields : Fields) (store after : Store) (root : Record)
    (done : (decompose config kind guild (.obj fields)).on store = (.ok root, after)) :
    let whole := Part.ofPayload kind guild fields
    whole.root? = some root ∧
      ∀ part record, whole.Within part → part.root? = some record →
        part.Leaves record.fields ∧
          (part.KeepsRest record.fields ↔ ¬ part.DropsMember ∧ ¬ part.WrapsPerson) := by
  intro whole
  obtain ⟨split, apart, rfl, -⟩ := split_of_decompose done
  refine ⟨Part.root?_of_split apart, fun part record within own => ?_⟩
  obtain ⟨inner, taken, rfl⟩ := Part.split_of_root? own
  have parent := Part.parent_of_message within rfl
  exact ⟨Part.leaves_root parent taken, Part.keepsRest_iff parent taken⟩

/-- An author without an id stays inside of the member data beside it, and a member field that is no object
is lost. -/
theorem decompose_keeps_rest_not :
    let author : Fields := [("username", .str "x")]
    let wrapped : Fields :=
      [("author", .obj author), ("guild_id", .str "1"), ("id", .str "11"),
       ("member", .obj [("nick", .str "y")])]
    let dropped : Fields := [("guild_id", .str "1"), ("id", .str "10"), ("member", .null)]
    ∃ first second,
      ((decompose {} .message none (.obj wrapped)).on .empty).1 = .ok first ∧
      first.fields.get? "author" =
        some (.obj [("nick", .str "y"), ("user", .obj author)]) ∧
      ¬ (Part.ofPayload .message none wrapped).KeepsRest first.fields ∧
      ((decompose {} .message none (.obj dropped)).on .empty).1 = .ok second ∧
      second.fields.get? "member" = none ∧
      ¬ (Part.ofPayload .message none dropped).KeepsRest second.fields := by
  intro author wrapped dropped
  obtain ⟨first, done⟩ : ∃ first,
      ((decompose {} .message none (.obj wrapped)).on .empty).1 = .ok first := ⟨_, rfl⟩
  obtain ⟨second, again⟩ : ∃ second,
      ((decompose {} .message none (.obj dropped)).on .empty).1 = .ok second := ⟨_, rfl⟩
  obtain ⟨own, parts⟩ := decompose_keeps_rest {} .message none wrapped .empty _ first
    (Prod.ext done rfl)
  obtain ⟨ownAgain, partsAgain⟩ := decompose_keeps_rest {} .message none dropped .empty _ second
    (Prod.ext again rfl)
  obtain ⟨leaves, keeps⟩ := parts _ first .self own
  obtain ⟨leavesAgain, keepsAgain⟩ := partsAgain _ second .self ownAgain
  refine ⟨first, second, done, (leaves.embedded .author (by decide)).trans (by decide +kernel), ?_,
    again, (leavesAgain.member rfl).trans (by decide +kernel), ?_⟩
  · rw [keeps]
    intro ⟨_, notWraps⟩
    exact notWraps ⟨rfl, by decide +kernel, .author, by decide, author, by decide +kernel,
      by decide +kernel, by decide +kernel⟩
  · rw [keepsAgain]
    intro ⟨notDrops, _⟩
    exact notDrops ⟨rfl, by decide +kernel, .null, by decide +kernel, rfl⟩

end Intake

end GatewayCache
