import GatewayCache.Proofs.Split.People

/-! # Intake is shallow

However deep a payload is nested, taking it in never goes further down than three
objects inside each other. Unrolled so many times, the recursion may be left to any
function from there on, be it one that never comes to an end, refuses or writes
whatever it likes. What is deeper stays as it came, so of a chain of replies the first
two messages are taken in, and the second one holds the rest of the chain.
-/

namespace GatewayCache

open Split (Context)

namespace Intake

/-- Takes a payload apart itself with what is embedded in it so many levels deep, and has another
function take in what is deeper. -/
def unrolled (config : Config) (deeper : Taker) : Nat → Taker
  | 0 => deeper
  | levels + 1 => step config (unrolled config deeper levels)

/-- With as many levels as a payload may have, nothing is left to the taker for what is deeper. -/
theorem unrolled_follows (config : Config) (deeper : Taker) {levels : Nat} {kind : Kind}
    {context : Context} (enough : Split.height kind context.parent ≤ levels) :
    Follows config (unrolled config deeper levels) (Split.nested Split.maxLevels) kind context := by
  -- The kinds that are embedded have fewer levels, so none of them is left when the levels run out.
  induction levels generalizing kind context with
  | zero => exact absurd (Split.height_pos kind context.parent) (by omega)
  | succ levels ih =>
    rw [← Split.nested_maxLevels]
    refine step_follows fun guild relation member forward target leads => ?_
    have fewer := Split.height_lt member forward leads
    exact ih (by simp only; omega)

theorem unrolled_eq_nested (config : Config) (deeper : Taker) {levels : Nat}
    (enough : Split.maxLevels ≤ levels) :
    unrolled config deeper levels = nested config Split.maxLevels := by
  funext kind context payload
  have most := Split.height_le_maxLevels kind context.parent
  have unrolls := unrolled_follows config deeper (Nat.le_trans most enough)
  have nests := nested_follows config Split.maxLevels kind context
  -- Both come to what splitting comes to, whatever the store.
  refine Action.ext fun store => ?_
  rw [unrolls.on_eq, nests.on_eq]

/-- The recursion has one solution and no other. -/
theorem eq_step_iff (taker : Taker) :
    taker = step config taker ↔ taker = nested config Split.maxLevels := by
  constructor
  · intro solves
    -- A solution may be unrolled at will, and after enough levels nothing of it is left.
    have again : ∀ levels, unrolled config taker levels = taker := by
      intro levels
      induction levels with
      | zero => rfl
      | succ levels ih => rw [unrolled, ih, ← solves]
    rw [← again Split.maxLevels, unrolled_eq_nested config taker (Nat.le_refl _)]
  · rintro rfl
    have once := unrolled_eq_nested config (nested config Split.maxLevels)
      (Nat.le_refl Split.maxLevels)
    have more := unrolled_eq_nested config (nested config Split.maxLevels)
      (Nat.le_add_right Split.maxLevels 1)
    rw [unrolled, once] at more
    exact more.symm

end Intake

namespace Part

variable {part whole outer inner reply : Part} {split : Split} {record : Record}

theorem not_message_of_within (within : whole.Within part) (plain : whole.kind ≠ .message) :
    part.kind ≠ .message := by
  induction within with
  | self => exact plain
  | deeper _ held ih => exact not_message_of_held held (.inl ih)

theorem not_message_of_records (plain : part.kind ≠ .message) (member : record ∈ part.records) :
    record.kind ≠ .message := by
  obtain ⟨inner, own, within, apart, rfl⟩ := exists_root member
  rw [split_root_kind apart]
  exact not_message_of_within within plain

/-- The records of messages among those of a part. -/
def messages (part : Part) : List Record := part.records.filter (·.kind = .message)

theorem messages_of_not_message (plain : part.kind ≠ .message) : part.messages = [] := by
  rw [messages, List.filter_eq_nil_iff]
  intro record member
  simpa using not_message_of_records plain member

theorem messages_of_inner (inside : part.context.parent = some .message) (message : part.kind = .message) :
    part.messages = part.root?.toList := by
  cases apart : part.split with
  | error error => simp [messages, records_of_error apart, root?, apart, Except.toOption]
  | ok split =>
    have embedded : split.embedded.filter (·.kind = .message) = [] := by
      rw [split_embedded apart, List.filter_flatMap, List.flatMap_eq_nil_iff]
      intro inner held
      exact messages_of_not_message (not_message_of_held held (.inr inside))
    rw [messages, records_of_split apart, root?_of_split apart, Split.records, List.filter_append,
      embedded]
    simp [split_root_kind apart, message]

/-- Of the messages in a message, only the one that it replies to is taken apart, and no other in that. -/
theorem messages_of_outer (outermost : part.context.parent = none) (message : part.kind = .message)
    (apart : part.split = .ok split) :
    part.messages = (part.reply?.bind root?).toList ++ [split.root] := by
  have followed : part.relations = Kind.message.relations := by
    rw [relations, message, outermost]
    rfl
  have other : ∀ relation, Kind.message ∉ relation.target.kinds →
      (part.heldBy relation).flatMap messages = [] := by
    intro relation never
    rw [List.flatMap_eq_nil_iff]
    intro inner held
    exact messages_of_not_message fun same => never (same ▸ kind_of_heldBy held)
  have reply : part.reply?.toList.flatMap messages = (part.reply?.bind root?).toList := by
    cases replied : part.reply? with
    | none => rfl
    | some reply =>
      obtain ⟨inner, context, -⟩ := reply?_eq_some.mp replied
      simp [messages_of_inner (by rw [context, message]) inner]
  have embedded : split.embedded.filter (·.kind = .message) = (part.reply?.bind root?).toList := by
    rw [split_embedded apart, List.filter_flatMap, held, followed, List.flatMap_assoc]
    change Kind.message.relations.flatMap (fun relation => (part.heldBy relation).flatMap messages) = _
    have taken : (part.heldBy (.single "referenced_message" .message "referenced_message_id")).flatMap
        messages = (part.reply?.bind root?).toList := heldBy_reply message ▸ reply
    simp only [Kind.relations, List.flatMap_cons, List.flatMap_nil, taken]
    rw [other _ (by decide), other _ (by decide), other _ (by decide)]
    simp
  rw [messages, records_of_split apart, Split.records, List.filter_append, embedded]
  simp [split_root_kind apart, message]

theorem get?_reply (replied : part.reply? = some reply) (message : part.kind = .message)
    (apart : reply.split = .ok split) :
    split.root.fields.get? "referenced_message" = reply.payload.get? "referenced_message" := by
  obtain ⟨inner, context, -⟩ := reply?_eq_some.mp replied
  have back : Split.leadsBack .reply reply.context.parent = true := by
    rw [context, message]
    rfl
  have own : "referenced_message" ∈ Relation.reply.fields := by decide
  exact root_left apart (reply_listed inner) (.inl back) own

end Part

namespace Intake

/-- Taking payloads in is a recursion with one solution, and it does not matter how payloads are taken in
that are embedded four levels deep: none are. So of all the messages in a payload only the payload itself
and the message that it replies to are written, and the fields of that one hold what it replies to as it
came. -/
theorem intake_shallow (config : Config) :
    (∀ taker, taker = step config taker ↔ taker = nested config Split.maxLevels) ∧
    (∀ deeper levels, 4 ≤ levels → unrolled config deeper levels = nested config Split.maxLevels) ∧
    ∀ (kind : Kind) (guild : Option Snowflake) (payload : Fields) (store after : Store)
      (change : Change), (place config kind guild (.obj payload)).on store = (.ok change, after) →
      let whole := Part.ofPayload kind guild payload
      ∃ root, whole.root? = some root ∧ after = store.writeAll config whole.records ∧
        (kind ≠ .message → whole.messages = []) ∧
        (kind = .message →
          whole.messages = (whole.reply?.bind Part.root?).toList ++ [root] ∧
          ∀ reply second, whole.reply? = some reply → reply.root? = some second →
            second.fields.get? "referenced_message" = reply.payload.get? "referenced_message") := by
  refine ⟨eq_step_iff, fun deeper levels enough => unrolled_eq_nested config deeper enough, ?_⟩
  intro kind guild payload store after change done whole
  obtain ⟨split, apart, rfl⟩ := split_of_place done
  refine ⟨split.root, Part.root?_of_split apart, by rw [Part.records_of_split apart],
    fun plain => Part.messages_of_not_message plain,
    fun message => ⟨Part.messages_of_outer rfl message apart, ?_⟩⟩
  intro reply second replied own
  obtain ⟨inner, inside, rfl⟩ := Part.split_of_root? own
  exact Part.get?_reply replied message inside

/-- A chain of four messages, each a reply to the next. -/
theorem intake_shallow_chain :
    let chain : Fields := [("id", .str "3"), ("referenced_message", .obj [("id", .str "4")])]
    let reply : Fields := [("id", .str "2"), ("referenced_message", .obj chain)]
    let payload : Fields := [("id", .str "1"), ("referenced_message", .obj reply)]
    let after := ((place {} .message none (.obj payload)).on .empty).2
    let whole := Part.ofPayload .message none payload
    unrolled {} (fun kind _ _ => throw (.missingId kind)) 4 = nested {} Split.maxLevels ∧
      whole.messages.map Record.id = [⟨2⟩, ⟨1⟩] ∧
      after = Store.writeAll {} .empty whole.records ∧
      ∃ second, (whole.reply?.bind Part.root?) = some second ∧
        second.fields.get? "referenced_message" = some (.obj chain) := by
  intro chain reply payload after whole
  obtain ⟨-, levels, writes⟩ := intake_shallow {}
  obtain ⟨change, done⟩ :
      ∃ change, ((place {} .message none (.obj payload)).on .empty).1 = .ok change := ⟨_, rfl⟩
  obtain ⟨root, -, written, -, messages⟩ :=
    writes .message none payload .empty after change (Prod.ext done rfl)
  obtain ⟨-, kept⟩ := messages rfl
  obtain ⟨second, own⟩ : ∃ second, whole.reply?.bind Part.root? = some second := ⟨_, rfl⟩
  obtain ⟨inner, replied, root⟩ := Option.bind_eq_some_iff.mp own
  refine ⟨levels _ 4 (Nat.le_refl _), by decide +kernel, written, second, own, ?_⟩
  obtain rfl : Part.mk .message ⟨none, some .message⟩ reply = inner := by
    exact Option.some.inj replied
  rw [kept _ second replied root]
  decide +kernel

end Intake

end GatewayCache
