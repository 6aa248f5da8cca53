import GatewayCache.Proofs.Json.Fields
import GatewayCache.Proofs.Text.Blank
import GatewayCache.Record
import Mathlib.Data.List.Induction

/-! # Ids written and read

The texts that read as an id are the numerals of its number, with a plus sign or
without and with white space around them or without. Numerals are told by a grammar
that grows at its end: a digit is one, and so is a numeral with one more digit behind
it, and zeros in front change nothing. Among them is the text of the id, so a list of
ids in a record holds just the ids that were put into it.
-/

namespace GatewayCache

namespace Text

/-- `Numeral digits n`: the digits, of which there is at least one, stand for the number. -/
inductive Numeral : List Char → Nat → Prop where
  | digit (d : Fin 10) : Numeral [Nat.digitChar d] d
  | more {digits : List Char} {n : Nat} (before : Numeral digits n) (d : Fin 10) :
      Numeral (digits ++ [Nat.digitChar d]) (10 * n + d)

/-- A numeral with or without a plus sign in front. -/
inductive Signed : List Char → Nat → Prop where
  | plain {digits : List Char} {n : Nat} (numeral : Numeral digits n) : Signed digits n
  | plus {digits : List Char} {n : Nat} (numeral : Numeral digits n) : Signed ('+' :: digits) n

variable {cs digits : List Char} {n : Nat}

theorem exists_digitChar {c : Char} (digit : c.isDigit) :
    ∃ d : Fin 10, c = Nat.digitChar d ∧ c.toNat - '0'.toNat = d := by
  have bounds : 48 ≤ c.toNat ∧ c.toNat ≤ 57 := by
    simpa [Char.isDigit, UInt32.le_iff_toNat_le] using digit
  have small : c.toNat - 48 < 10 := by omega
  refine ⟨⟨c.toNat - 48, small⟩, ?_, rfl⟩
  apply Char.toNat_inj.mp
  rw [Nat.toNat_digitChar_of_lt_ten small]
  omega

theorem isDigit_of_numeral (numeral : Numeral digits n) : ∀ c ∈ digits, c.isDigit := by
  induction numeral with
  | digit d => simp [Nat.isDigit_digitChar]
  | more before d ih =>
    intro c member
    rcases List.mem_append.mp member with early | last
    · exact ih c early
    · simp [List.mem_singleton.mp last, Nat.isDigit_digitChar]

theorem numeral_decimal (n : Nat) : Numeral (Number.decimal n) n := by
  induction n using Nat.strongRecOn with
  | ind n ih =>
    rw [Number.decimal, Nat.toDigits_eq_if (by decide)]
    split
    · next small => exact .digit ⟨n, small⟩
    · next large =>
      have last : n % 10 < 10 := Nat.mod_lt n (by decide)
      have whole := Numeral.more (ih (n / 10) (by omega)) ⟨n % 10, last⟩
      rwa [Nat.div_add_mod] at whole

theorem dark_of_signed (signed : Signed cs n) : ∀ c ∈ cs, isBlank c = false := by
  cases signed with
  | plain numeral => exact fun c member => isBlank_of_isDigit (isDigit_of_numeral numeral c member)
  | plus numeral =>
    intro c member
    rcases List.mem_cons.mp member with rfl | digit
    · decide
    · exact isBlank_of_isDigit (isDigit_of_numeral numeral c digit)

end Text

namespace Snowflake

variable {cs digits : List Char} {id : Snowflake}

theorem ofDigits_append (digits : List Char) (c : Char) :
    ofDigits (digits ++ [c]) = 10 * ofDigits digits + (c.toNat - '0'.toNat) := by
  rw [ofDigits, List.foldl_append, List.foldl_cons, List.foldl_nil, ← ofDigits, Nat.mul_comm]

theorem numeral_iff {n : Nat} :
    Text.Numeral digits n ↔ digits ≠ [] ∧ (∀ c ∈ digits, c.isDigit) ∧ ofDigits digits = n := by
  constructor
  · intro numeral
    refine ⟨?_, Text.isDigit_of_numeral numeral, ?_⟩
    · cases numeral <;> simp
    · induction numeral with
      | digit d => simpa [ofDigits] using Nat.toNat_digitChar_sub_48_of_lt_ten d.isLt
      | more before d ih =>
        have last := Nat.toNat_digitChar_sub_48_of_lt_ten d.isLt
        rw [ofDigits_append, ih]
        exact congrArg _ last
  · -- The last digit comes last in the grammar as well, so the induction takes it off first.
    rintro ⟨nonempty, digit, rfl⟩
    induction digits using List.reverseRecOn with
    | nil => exact absurd rfl nonempty
    | append_singleton before c ih =>
      obtain ⟨d, rfl, value⟩ := Text.exists_digitChar (digit c (by simp))
      rw [ofDigits_append, value]
      cases before with
      | nil => simpa [ofDigits] using Text.Numeral.digit d
      | cons first rest =>
        exact .more (ih (by simp) fun other member => digit other (List.mem_append_left _ member)) d

theorem ofDigits?_eq_some_iff : ofDigits? digits = some id ↔ Text.Numeral digits id.value.toNat := by
  have shape : (digits.isEmpty = false ∧ digits.all Char.isDigit) ↔
      digits ≠ [] ∧ ∀ c ∈ digits, c.isDigit := by simp
  rw [numeral_iff, ofDigits?]
  split
  · next wellFormed =>
    obtain ⟨nonempty, digit⟩ := shape.mp wellFormed
    split
    · next fits =>
      have kept : (ofDigits digits).toUInt64.toNat = ofDigits digits := Nat.mod_eq_of_lt fits
      constructor
      · rintro ⟨⟩
        exact ⟨nonempty, digit, kept.symm⟩
      · rintro ⟨-, -, value⟩
        rw [value]
        simp
    · next large =>
      refine ⟨nofun, ?_⟩
      rintro ⟨-, -, value⟩
      exact absurd (value ▸ id.value.toNat_lt_size) large
  · next malformed =>
    refine ⟨nofun, ?_⟩
    rintro ⟨nonempty, digit, -⟩
    exact absurd (shape.mpr ⟨nonempty, digit⟩) malformed

theorem ofUntrimmed?_eq_some_iff : ofUntrimmed? cs = some id ↔ Text.Signed cs id.value.toNat := by
  unfold ofUntrimmed?
  split
  · next digits =>
    rw [ofDigits?_eq_some_iff]
    constructor
    · exact .plus
    · intro signed
      cases signed with
      | plus numeral => exact numeral
      | plain numeral =>
        have digit := Text.isDigit_of_numeral numeral '+' (by simp)
        exact absurd digit (by decide)
  · next bare =>
    rw [ofDigits?_eq_some_iff]
    constructor
    · exact .plain
    · intro signed
      cases signed with
      | plain numeral => exact numeral
      | plus numeral => exact absurd rfl (bare _)

/-- What reads as an id is a numeral of it, with white space around it or without. -/
theorem ofText?_eq_some_iff {text : String} : ofText? text = some id ↔
    ∃ inner, Text.Padded inner text.toList ∧ Text.Signed inner id.value.toNat := by
  rw [ofText?, ofUntrimmed?_eq_some_iff]
  constructor
  · exact fun signed => ⟨_, Text.padded_trim text.toList, signed⟩
  · rintro ⟨inner, padded, signed⟩
    rwa [Text.trim_of_padded padded (Text.bare_of_dark (Text.dark_of_signed signed))]

theorem signed_chars (id : Snowflake) : Text.Signed id.chars id.value.toNat :=
  .plain (Text.numeral_decimal _)

theorem ofText?_toText (id : Snowflake) : ofText? id.toText = some id :=
  ofText?_eq_some_iff.mpr ⟨_, Text.padded_self _, by simpa [toText] using signed_chars id⟩

@[simp]
theorem ofJson?_toJson (id : Snowflake) : ofJson? id.toJson = some id := ofText?_toText id

theorem filterMap_ofJson?_toJson (ids : List Snowflake) :
    (ids.map toJson).filterMap ofJson? = ids := by
  induction ids with
  | nil => rfl
  | cons id rest ih => simp [ih]

theorem list_ordered (ids : List Snowflake) : (Json.arr (ids.map toJson)).ordered := by
  simp only [Json.ordered, itemsOrdered_iff, List.mem_map]
  rintro item ⟨id, -, rfl⟩
  rfl

end Snowflake

theorem Fields.contains_of_relationId {fields : Fields} {field : String} {id : Snowflake}
    (reads : fields.relationId field = some id) : fields.contains field := by
  unfold relationId at reads
  cases found : fields.get? field with
  | none => simp [found] at reads
  | some value => simp [contains, found]

end GatewayCache
