import GatewayCache.Model.Field
import GatewayCache.Proofs.Json.RoundTrip

/-! # Two readers of ids

Records are kept and linked under ids that are read from trimmed texts, while models read the
same fields as they are. Both take the same numbers and the same numerals, with a plus sign
and zeros in front, and no white space tells them apart but that around a numeral.
-/

namespace GatewayCache.Snowflake

variable {value : Json} {id : Snowflake}

theorem ofJson?_eq_some_iff : ofJson? value = some id ↔
    (∃ text, value = .str text ∧ ofText? text = some id) ∨ value = .num (.unsigned id.value) := by
  cases value with
  | str text => simp [ofJson?]
  | num number =>
    cases number with
    | unsigned value =>
      obtain ⟨own⟩ := id
      simp [ofJson?, Number.unsigned?]
    | negative | float => simp [ofJson?, Number.unsigned?]
  | null | bool | arr | obj => simp [ofJson?]

theorem readStrict_eq_ok_iff : readStrict value = .ok id ↔
    (∃ text, value = .str text ∧ ofUntrimmed? text.toList = some id) ∨
      value = .num (.unsigned id.value) := by
  cases value with
  | str text => cases read : ofUntrimmed? text.toList <;> simp [readStrict, read]
  | num number =>
    cases number with
    | unsigned value =>
      obtain ⟨own⟩ := id
      simp [readStrict]
    | negative | float => simp [readStrict]
  | null | bool | arr | obj => simp [readStrict]

/-- The value is a text that is a numeral of the id but for white space around it. -/
def Spaced (value : Json) (id : Snowflake) : Prop :=
  ∃ text inner, value = .str text ∧ inner ≠ text.toList ∧ Text.Padded inner text.toList ∧
    Text.Signed inner id.value.toNat

/-- Trimming adds the texts with white space around a numeral, and nothing else. -/
theorem ofJson?_iff_or : ofJson? value = some id ↔ readStrict value = .ok id ∨ Spaced value id := by
  rw [ofJson?_eq_some_iff, readStrict_eq_ok_iff]
  constructor
  · rintro (⟨text, rfl, reads⟩ | number)
    · obtain ⟨inner, padded, signed⟩ := ofText?_eq_some_iff.mp reads
      by_cases whole : inner = text.toList
      · exact .inl (.inl ⟨text, rfl, ofUntrimmed?_eq_some_iff.mpr (whole ▸ signed)⟩)
      · exact .inr ⟨text, inner, rfl, whole, padded, signed⟩
    · exact .inl (.inr number)
  · rintro ((⟨text, rfl, reads⟩ | number) | ⟨text, inner, rfl, -, padded, signed⟩)
    · have signed := ofUntrimmed?_eq_some_iff.mp reads
      exact .inl ⟨text, rfl, ofText?_eq_some_iff.mpr ⟨_, Text.padded_self _, signed⟩⟩
    · exact .inr number
    · exact .inl ⟨text, rfl, ofText?_eq_some_iff.mpr ⟨inner, padded, signed⟩⟩

theorem not_spaced_of_strict (reads : readStrict value = .ok id) : ¬ Spaced value id := by
  rintro ⟨text, inner, rfl, part, padded, signed⟩
  obtain ⟨_, ⟨⟩, whole⟩ := (readStrict_eq_ok_iff.mp reads).resolve_right nofun
  -- A text that is a numeral as it stands is bare, so trimming leaves it whole.
  have bare := Text.bare_of_dark (Text.dark_of_signed (ofUntrimmed?_eq_some_iff.mp whole))
  have trimmed := Text.trim_of_padded (Text.padded_self _) bare
  rw [Text.trim_of_padded padded (Text.bare_of_dark (Text.dark_of_signed signed))] at trimmed
  exact part trimmed

/-- What a model reads as an id the cache reads as the same id. The other way round this holds of all
values but texts with white space around a numeral, and these are just the fields that a model cannot
read although records are linked by them. -/
theorem readers_agree_iff (value : Json) (id : Snowflake) :
    (readStrict value = .ok id → ofJson? value = some id) ∧
    ((ofJson? value = some id ↔ readStrict value = .ok id) ↔ ¬ Spaced value id) ∧
    ∀ (fields : Fields) (field : String), fields.get? field = some value →
      fields.relationId field = some id →
        (Model.required fields field Model.snowflake = some id ↔ ¬ Spaced value id) := by
  have either : ofJson? value = some id ↔ readStrict value = .ok id ∨ Spaced value id :=
    ofJson?_iff_or
  have apart : readStrict value = .ok id → ¬ Spaced value id := not_spaced_of_strict
  refine ⟨fun strict => either.mpr (.inl strict), ?_, ?_⟩
  · rw [either]
    constructor
    · exact fun same spaced => apart (same.mp (.inr spaced)) spaced
    · exact fun unspaced => ⟨fun reads => reads.resolve_right unspaced, .inl⟩
  · intro fields field found relation
    have model : Model.required fields field Model.snowflake = some id ↔ readStrict value = .ok id := by
      rw [Model.required, found, Option.bind_some, Model.snowflake]
      cases readStrict value <;> simp [Except.toOption]
    rw [Fields.relationId, found, Option.bind_some, either] at relation
    rw [model]
    exact ⟨apart, relation.resolve_right⟩

/-- Records are linked by a text that no model reads. -/
theorem readers_differ :
    let fields : Fields := [("owner_id", .str " 42 ")]
    readStrict (.str "42") = .ok ⟨42⟩ ∧ ofJson? (.str "42") = some ⟨42⟩ ∧
      ¬ (ofJson? (.str " 42 ") = some ⟨42⟩ ↔ readStrict (.str " 42 ") = .ok ⟨42⟩) ∧
      fields.relationId "owner_id" = some ⟨42⟩ ∧
      Model.required fields "owner_id" Model.snowflake ≠ some ⟨42⟩ := by
  intro fields
  have plain : Text.Signed ['4', '2'] 42 :=
    .plain (numeral_iff.mpr ⟨nofun, List.all_eq_true.mp rfl, rfl⟩)
  have spaced : Spaced (.str " 42 ") ⟨42⟩ :=
    ⟨" 42 ", ['4', '2'], rfl, by decide,
      ⟨[' '], [' '], List.all_eq_true.mp rfl, List.all_eq_true.mp rfl, rfl⟩, plain⟩
  have strict : readStrict (.str "42") = .ok ⟨42⟩ :=
    readStrict_eq_ok_iff.mpr (.inl ⟨"42", rfl, ofUntrimmed?_eq_some_iff.mpr plain⟩)
  have linked : fields.relationId "owner_id" = some ⟨42⟩ := ofJson?_iff_or.mpr (.inr spaced)
  obtain ⟨-, same, read⟩ := readers_agree_iff (.str " 42 ") ⟨42⟩
  refine ⟨strict, (readers_agree_iff (.str "42") ⟨42⟩).1 strict, ?_, linked, ?_⟩
  · exact fun agree => same.mp agree spaced
  · exact fun required => (read fields "owner_id" rfl linked).mp required spaced

/-- An id is read from a text just where the text is, up to white space around it, digits of a number of
64 bits with one plus sign in front or none. What is shown of an id, what stands for it in a record and
what it is written as in JSON are read as that id again. -/
theorem parse_exact :
    (∀ (text : String) (n : Nat), (∃ id, parse text = .ok id ∧ id.value.toNat = n) ↔
      n < UInt64.size ∧ ∃ inner, Text.Padded inner text.toList ∧ Text.Signed inner n) ∧
    ∀ id : Snowflake, parse id.toText = .ok id ∧ ofJson? id.toJson = some id ∧
      readStrict id.toJson = .ok id ∧
        (Json.read? id.toJson.compact).map readStrict = some (.ok id) := by
  have parses {text : String} {id : Snowflake} : parse text = .ok id ↔ ofText? text = some id := by
    rw [parse]
    cases ofText? text <;> simp
  constructor
  · intro text n
    constructor
    · rintro ⟨id, reads, rfl⟩
      exact ⟨id.value.toNat_lt_size, ofText?_eq_some_iff.mp (parses.mp reads)⟩
    · rintro ⟨fits, inner, padded, signed⟩
      have kept : n.toUInt64.toNat = n := Nat.mod_eq_of_lt fits
      refine ⟨⟨n.toUInt64⟩, parses.mpr (ofText?_eq_some_iff.mpr ⟨inner, padded, ?_⟩), kept⟩
      rwa [kept]
  · intro id
    have strict : readStrict id.toJson = .ok id := by
      refine readStrict_eq_ok_iff.mpr (.inl ⟨id.toText, rfl, ofUntrimmed?_eq_some_iff.mpr ?_⟩)
      rw [toText, String.toList_ofList]
      exact signed_chars id
    have written : Json.read? id.toJson.compact = some id.toJson :=
      Json.read?_compact ⟨rfl, rfl, Nat.zero_le _⟩
    refine ⟨parses.mpr (ofText?_toText id), ofJson?_toJson id, strict, ?_⟩
    rw [written, Option.map_some, strict]

end GatewayCache.Snowflake
