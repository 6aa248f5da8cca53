import GatewayCache.Json.Plain
import GatewayCache.Proofs.Json.Merge
import GatewayCache.Proofs.Json.Reader
import GatewayCache.Proofs.Snowflake

/-! # What is written is read again

A value in compact form is read as that value, whatever comes behind it that does not go on
with a number, as long as its fields are in order, its numbers are integers and it is nested
no deeper than the reader allows. Texts are read character by character, each escaped one as
the character that it stands for.
-/

namespace GatewayCache

/-- A value that a text carries unchanged to a reader of so many levels. -/
structure Json.Plain (levels : Nat) (value : Json) : Prop where
  ordered : value.ordered
  floatFree : value.floatFree
  nested : value.depth ≤ levels

namespace Json

theorem itemsDepth_le_iff {items : List Json} {levels : Nat} :
    itemsDepth items ≤ levels ↔ ∀ item ∈ items, item.depth ≤ levels := by
  induction items with
  | nil => simp [itemsDepth]
  | cons item rest ih => rw [itemsDepth, Nat.max_le, ih, List.forall_mem_cons]

theorem fieldsDepth_le_iff {fields : List (String × Json)} {levels : Nat} :
    fieldsDepth fields ≤ levels ↔ ∀ field ∈ fields, field.2.depth ≤ levels := by
  induction fields with
  | nil => simp [fieldsDepth]
  | cons field rest ih => rw [fieldsDepth, Nat.max_le, ih, List.forall_mem_cons]

theorem itemsFloatFree_iff {items : List Json} :
    itemsFloatFree items ↔ ∀ item ∈ items, item.floatFree := by
  induction items with
  | nil => simp [itemsFloatFree]
  | cons item rest ih => simp [itemsFloatFree, ih]

theorem fieldsFloatFree_iff {fields : List (String × Json)} :
    fieldsFloatFree fields ↔ ∀ field ∈ fields, field.2.floatFree := by
  induction fields with
  | nil => simp [fieldsFloatFree]
  | cons field rest ih => simp [fieldsFloatFree, ih]

variable {levels : Nat}

theorem Plain.item {items : List Json} (plain : (Json.arr items).Plain (levels + 1)) :
    ∀ item ∈ items, item.Plain levels := by
  obtain ⟨ordered, floatFree, nested⟩ := plain
  rw [Json.ordered, itemsOrdered_iff] at ordered
  rw [Json.floatFree, itemsFloatFree_iff] at floatFree
  rw [depth, Nat.add_le_add_iff_right, itemsDepth_le_iff] at nested
  exact fun item member => ⟨ordered item member, floatFree item member, nested item member⟩

theorem Plain.field {fields : Fields} (plain : (Json.obj fields).Plain (levels + 1)) :
    ∀ field ∈ fields, field.2.Plain levels := by
  obtain ⟨ordered, floatFree, nested⟩ := plain
  rw [Json.ordered, Fields.ordered_iff] at ordered
  rw [Json.floatFree, fieldsFloatFree_iff] at floatFree
  rw [depth, Nat.add_le_add_iff_right, fieldsDepth_le_iff] at nested
  exact fun field member => ⟨ordered.2 field member, floatFree field member, nested field member⟩

end Json

namespace Json.Reader

variable {rest : List Char}

theorem skipBlanks_cons {c : Char} (dark : isBlank c = false) (rest : List Char) :
    skipBlanks (c :: rest) = c :: rest := by
  simp [skipBlanks, dark]

theorem hexValue?_hexDigit (n : Nat) : hexValue? (hexDigit n) = some (n % 16) := by
  have each : ∀ m < 16, hexValue? (Nat.digitChar m) = some m := by decide
  exact each _ (Nat.mod_lt n (by decide))

theorem escaped?_control {c : Char} (control : c.toNat < 32) (rest : List Char) :
    escaped? ('u' :: '0' :: '0' :: hexDigit (c.toNat / 16) :: hexDigit c.toNat :: rest) =
      some (c, rest) := by
  have high := hexValue?_hexDigit (c.toNat / 16)
  have low := hexValue?_hexDigit c.toNat
  have zero : hexValue? '0' = some 0 := by decide
  have unit : ((0 * 16 + 0) * 16 + c.toNat / 16 % 16) * 16 + c.toNat % 16 = c.toNat := by omega
  have first : ¬ (0xDC00 ≤ c.toNat ∧ c.toNat ≤ 0xDFFF) := by omega
  have second : ¬ (0xD800 ≤ c.toNat ∧ c.toNat ≤ 0xDBFF) := by omega
  simp only [escaped?, if_true, hexUnit?, zero, high, low, Option.bind_eq_bind, Option.bind_some,
    unit, unitChar?, if_neg first, if_neg second, Char.ofNat_toNat]

/-- A character stands for itself in a quoted text, or is escaped and read as what it was. -/
theorem escape_cases (c : Char) :
    (escape c = [c] ∧ c ≠ '"' ∧ c ≠ '\\' ∧ ¬ c.toNat < 32) ∨
      ∃ code, escape c = '\\' :: code ∧ ∀ rest, escaped? (code ++ rest) = some (c, rest) := by
  by_cases short : c ∈ ['"', '\\', '\x08', '\x0c', '\n', '\r', '\t']
  · simp only [List.mem_cons, List.not_mem_nil, or_false] at short
    rcases short with rfl | rfl | rfl | rfl | rfl | rfl | rfl
    all_goals exact .inr ⟨[_], rfl, fun _ => rfl⟩
  · simp only [List.mem_cons, List.not_mem_nil, or_false, not_or] at short
    obtain ⟨quote, backslash, backspace, feed, line, back, tab⟩ := short
    simp only [escape, quote, backslash, backspace, feed, line, back, tab, if_false]
    by_cases control : c.toNat < 32
    · exact .inr ⟨_, if_pos control, escaped?_control control⟩
    · exact .inl ⟨if_neg control, quote, backslash, control⟩

theorem textFrom?_escape (fuel : Nat) (before : List Char) (c : Char) (rest : List Char) :
    textFrom? (fuel + 1) before (escape c ++ rest) = textFrom? fuel (c :: before) rest := by
  rcases escape_cases c with ⟨plain, quote, backslash, printable⟩ | ⟨code, escaped, read⟩
  · simp [plain, textFrom?, quote, backslash, printable]
  · simp [escaped, textFrom?, read]

theorem textFrom?_escaped (text before rest : List Char) {fuel : Nat} (enough : text.length < fuel) :
    textFrom? fuel before (text.flatMap escape ++ '"' :: rest) =
      some (String.ofList (before.reverse ++ text), rest) := by
  induction text generalizing before fuel with
  | nil =>
    obtain ⟨fuel, rfl⟩ : ∃ more, fuel = more + 1 := ⟨fuel - 1, by omega⟩
    simp [textFrom?]
  | cons c more ih =>
    obtain ⟨fuel, rfl⟩ : ∃ less, fuel = less + 1 := ⟨fuel - 1, by omega⟩
    rw [List.flatMap_cons, List.append_assoc, textFrom?_escape, ih _ (by simpa using enough)]
    simp

theorem length_le_flatMap_escape (text : List Char) : text.length ≤ (text.flatMap escape).length := by
  induction text with
  | nil => simp
  | cons c rest ih =>
    have some : 1 ≤ (escape c).length := by
      rcases escape_cases c with ⟨plain, -⟩ | ⟨code, escaped, -⟩
      · simp [plain]
      · simp [escaped]
    rw [List.flatMap_cons, List.length_append, List.length_cons]
    omega

theorem text?_escaped (text : String) (rest : List Char) :
    text? (text.toList.flatMap escape ++ '"' :: rest) = some (text, rest) := by
  have enough : text.toList.length < (text.toList.flatMap escape ++ '"' :: rest).length + 1 := by
    have least := length_le_flatMap_escape text.toList
    rw [List.length_append]
    omega
  rw [text?, textFrom?_escaped text.toList [] rest enough]
  simp

/-- No number goes on here. -/
def Ends (rest : List Char) : Prop :=
  ∀ c ∈ rest.head?, c.isDigit = false ∧ c ≠ '.' ∧ c ≠ 'e' ∧ c ≠ 'E'

theorem digits?_append {ds : List Char} (digit : ∀ c ∈ ds, c.isDigit) (nonempty : ds ≠ [])
    (ends : Ends rest) : digits? (ds ++ rest) = some (ds, rest) := by
  have none : rest.takeWhile Char.isDigit = [] ∧ rest.dropWhile Char.isDigit = rest := by
    cases rest with
    | nil => exact ⟨rfl, rfl⟩
    | cons c more => simp [(ends c rfl).1]
  rw [digits?, List.takeWhile_append_of_pos digit, List.dropWhile_append_of_pos digit, none.1, none.2]
  simp [nonempty]

theorem le_foldl_digits (ds : List Char) (n : Nat) :
    n ≤ ds.foldl (fun n d => n * 10 + digitValue d) n := by
  induction ds generalizing n with
  | nil => exact Nat.le_refl n
  | cons d rest ih =>
    have first := ih (n * 10 + digitValue d)
    rw [List.foldl_cons]
    omega

theorem accumulate_eq {ds : List Char} {n : Nat}
    (fits : ds.foldl (fun n d => n * 10 + digitValue d) n < UInt64.size) :
    accumulate n ds = (ds.foldl (fun n d => n * 10 + digitValue d) n, []) := by
  induction ds generalizing n with
  | nil => rfl
  | cons d rest ih =>
    rw [List.foldl_cons] at fits ⊢
    have next := Nat.lt_of_le_of_lt (le_foldl_digits rest _) fits
    rw [accumulate, if_pos next, ih fits]

theorem eq_zero_of_first {n : Nat} (zero : (Number.decimal n).head? = some '0') : n = 0 := by
  induction n using Nat.strongRecOn with
  | ind n ih =>
    rw [Number.decimal, Nat.toDigits_eq_if (by decide)] at zero
    split at zero
    · simpa using zero
    · next large =>
      -- All but the last digit are those of a tenth, and that is not zero.
      have nonempty : Nat.toDigits 10 (n / 10) ≠ [] := Nat.toDigits_ne_nil
      have first : (Number.decimal (n / 10)).head? = some '0' := by
        rw [Number.decimal]
        cases shape : Nat.toDigits 10 (n / 10) with
        | nil => exact absurd shape nonempty
        | cons c more => simpa [shape] using zero
      have tenth := ih (n / 10) (by omega) first
      omega

theorem decimal_first (n : Nat) :
    ¬ ((Number.decimal n).head? = some '0' ∧ 1 < (Number.decimal n).length) := by
  rintro ⟨zero, long⟩
  rw [eq_zero_of_first zero] at long
  exact absurd long (by decide)

theorem magnitude?_decimal (negative : Bool) {n : Nat} (fits : n < UInt64.size) (ends : Ends rest) :
    magnitude? negative (Number.decimal n ++ rest) =
      (integer? negative n).map (fun number => (number, rest)) := by
  have numeral := Text.numeral_decimal n
  obtain ⟨nonempty, digit, value⟩ := Snowflake.numeral_iff.mp numeral
  have taken : accumulate 0 (Number.decimal n) = (n, []) := by
    rw [← value] at fits
    rw [accumulate_eq fits]
    exact congrArg (·, []) value
  have noExponent : ¬ (rest.head? = some 'e' ∨ rest.head? = some 'E' ∨
      ([] : List Char).isEmpty = false) := by
    rintro (lower | upper | left)
    · exact (ends _ lower).2.2.1 rfl
    · exact (ends _ upper).2.2.2 rfl
    · cases left
  rw [magnitude?, digits?_append digit nonempty ends]
  simp only [Option.bind_eq_bind, Option.bind_some, if_neg (decimal_first n), taken]
  split
  · next more => exact absurd rfl (ends '.' rfl).2.1
  · rw [if_neg noExponent]
    cases integer? negative n <;> rfl

theorem decimal_cons (n : Nat) : ∃ c more, Number.decimal n = c :: more ∧ c.isDigit := by
  obtain ⟨nonempty, digit, -⟩ := Snowflake.numeral_iff.mp (Text.numeral_decimal n)
  obtain ⟨c, more, shape⟩ := List.exists_cons_of_ne_nil nonempty
  exact ⟨c, more, shape, digit c (by simp [shape])⟩

/-- An integer is read up to where its digits end. -/
theorem number?_text {number : Number} (integer : number.int?.isSome) (ends : Ends rest) :
    number? (number.text ++ rest) = some (number, rest) := by
  cases number with
  | unsigned value =>
    obtain ⟨c, more, shape, digit⟩ := decimal_cons value.toNat
    have magnitude := magnitude?_decimal false value.toNat_lt_size ends
    rw [Number.text]
    unfold number?
    split
    · next behind minus =>
      rw [shape, List.cons_append, List.cons.injEq] at minus
      exact absurd (minus.1 ▸ digit) (by decide)
    · rw [magnitude]
      simp [integer?]
  | negative below =>
    have small := below.isLt
    have fits : below.val + 1 < UInt64.size := by
      simp only [negativeCount, UInt64.size] at small ⊢
      omega
    rw [Number.text, List.cons_append, number?, magnitude?_decimal true fits ends]
    simp [integer?]
  | float value => cases integer

theorem text_cons {number : Number} (integer : number.int?.isSome) :
    ∃ c more, number.text = c :: more ∧ (c = '-' ∨ c.isDigit) := by
  cases number with
  | unsigned value =>
    obtain ⟨c, more, shape, digit⟩ := decimal_cons value.toNat
    exact ⟨c, more, shape, .inr digit⟩
  | negative below => exact ⟨'-', _, rfl, .inl rfl⟩
  | float value => cases integer

/-- From its compact form, whatever follows it, a value is read as itself. -/
def Back (read : Reads Json) (value : Json) : Prop :=
  ∀ rest, Ends rest → read (value.chars ++ rest) = some (value, rest)

theorem chars_cons {value : Json} (floatFree : value.floatFree) :
    ∃ c more, value.chars = c :: more ∧ isBlank c = false ∧ c ≠ ']' := by
  cases value with
  | null => exact ⟨'n', _, rfl, rfl, by decide⟩
  | bool value => cases value <;> exact ⟨_, _, rfl, rfl, by decide⟩
  | str text => exact ⟨'"', _, rfl, rfl, by decide⟩
  | arr items => cases items <;> exact ⟨'[', _, rfl, rfl, by decide⟩
  | obj fields => cases fields <;> exact ⟨'\x7b', _, rfl, rfl, by decide⟩
  | num number =>
    rw [Json.floatFree] at floatFree
    obtain ⟨c, more, shape, first⟩ := text_cons floatFree
    refine ⟨c, more, shape, ?_, ?_⟩
    · rcases first with rfl | digit
      · rfl
      · simp only [isBlank, Bool.or_eq_false_iff, beq_eq_false_iff_ne]
        refine ⟨⟨⟨?_, ?_⟩, ?_⟩, ?_⟩
        all_goals
          rintro rfl
          exact absurd digit (by decide)
    · rintro rfl
      exact absurd first (by decide)

theorem ends_of_head {c : Char} (more : List Char)
    (other : c.isDigit = false ∧ c ≠ '.' ∧ c ≠ 'e' ∧ c ≠ 'E') : Ends (c :: more) := by
  rintro _ ⟨⟩
  exact other

theorem ends_moreItems (items : List Json) (rest : List Char) : Ends (moreItems items ++ rest) := by
  cases items with
  | nil => exact ends_of_head _ (by decide)
  | cons item more => exact ends_of_head _ (by decide)

theorem ends_moreFields (fields : List (String × Json)) (rest : List Char) :
    Ends (moreFields fields ++ rest) := by
  cases fields with
  | nil => exact ends_of_head _ (by decide)
  | cons field more => exact ends_of_head _ (by decide)

theorem length_lt_moreItems (items : List Json) : items.length < (moreItems items).length := by
  induction items with
  | nil => simp [moreItems]
  | cons item more ih =>
    simp only [moreItems, List.length_cons, List.length_append]
    omega

theorem length_lt_moreFields (fields : List (String × Json)) :
    fields.length < (moreFields fields).length := by
  induction fields with
  | nil => simp [moreFields]
  | cons field more ih =>
    simp only [moreFields, List.length_cons, List.length_append]
    omega

variable {read : Reads Json}

theorem items?_chars {item : Json} {more : List Json} (first : Back read item)
    (others : ∀ other ∈ more, Back read other) {fuel : Nat} (enough : more.length < fuel)
    (rest : List Char) :
    items? read fuel (item.chars ++ (moreItems more ++ rest)) = some (item :: more, rest) := by
  induction more generalizing item fuel with
  | nil =>
    obtain ⟨fuel, rfl⟩ : ∃ less, fuel = less + 1 := ⟨fuel - 1, by omega⟩
    rw [items?, first _ (ends_moreItems [] rest)]
    rfl
  | cons next more ih =>
    obtain ⟨fuel, rfl⟩ : ∃ less, fuel = less + 1 := ⟨fuel - 1, by omega⟩
    have later := ih (others next (by simp)) (fun other member => others other (by simp [member]))
      (Nat.lt_of_succ_lt_succ enough)
    rw [items?, first _ (ends_moreItems (next :: more) rest), moreItems, List.cons_append,
      List.append_assoc]
    simp only [Option.bind_eq_bind, Option.bind_some, skipBlanks_cons (c := ',') rfl, later]

theorem skipBlanks_quoted (text : String) (rest : List Char) :
    skipBlanks (quoted text ++ rest) = '"' :: (text.toList.flatMap escape ++ '"' :: rest) := by
  simp [quoted, skipBlanks, isBlank]

theorem fields?_chars (key : String) {value : Json} {more : List (String × Json)}
    (first : Back read value) (others : ∀ other ∈ more, Back read other.2) {fuel : Nat}
    (enough : more.length < fuel) (rest : List Char) :
    fields? text? read fuel (quoted key ++ ':' :: (value.chars ++ (moreFields more ++ rest))) =
      some ((key, value) :: more, rest) := by
  induction more generalizing key value fuel with
  | nil =>
    obtain ⟨fuel, rfl⟩ : ∃ less, fuel = less + 1 := ⟨fuel - 1, by omega⟩
    rw [fields?, skipBlanks_quoted]
    simp only [text?_escaped, Option.bind_eq_bind, Option.bind_some, skipBlanks_cons (c := ':') rfl,
      first _ (ends_moreFields [] rest)]
    rfl
  | cons next more ih =>
    obtain ⟨fuel, rfl⟩ : ∃ less, fuel = less + 1 := ⟨fuel - 1, by omega⟩
    have later := ih next.1 (others next (by simp))
      (fun other member => others other (by simp [member])) (Nat.lt_of_succ_lt_succ enough)
    rw [fields?, skipBlanks_quoted]
    simp only [text?_escaped, Option.bind_eq_bind, Option.bind_some, skipBlanks_cons (c := ':') rfl,
      first _ (ends_moreFields (next :: more) rest)]
    simp only [moreFields, List.cons_append, List.append_assoc, skipBlanks_cons (c := ',') rfl, later,
      Option.bind_some]

theorem array?_chars {items : List Json} (each : ∀ item ∈ items, Back read item)
    (floatFree : ∀ item ∈ items, item.floatFree) (rest : List Char) :
    array? read ((Json.arr items).chars.tail ++ rest) = some (items, rest) := by
  cases items with
  | nil => rfl
  | cons item more =>
    obtain ⟨c, behind, shape, dark, opening⟩ := chars_cons (floatFree item (by simp))
    have enough : more.length < (item.chars ++ (moreItems more ++ rest)).length := by
      have few := length_lt_moreItems more
      simp only [List.length_append]
      omega
    have found := items?_chars (each item (by simp)) (fun other member => each other (by simp [member]))
      enough rest
    rw [Json.chars, List.tail_cons, List.append_assoc, array?]
    rw [shape, List.cons_append] at found ⊢
    rw [skipBlanks_cons dark]
    split
    · next same => exact absurd (List.cons.inj same).1 opening
    · exact found

theorem object?_chars {fields : List (String × Json)} (each : ∀ field ∈ fields, Back read field.2)
    (rest : List Char) :
    object? text? read ((Json.obj fields).chars.tail ++ rest) = some (fields, rest) := by
  cases fields with
  | nil => rfl
  | cons field more =>
    obtain ⟨key, value⟩ := field
    have enough :
        more.length < (quoted key ++ ':' :: (value.chars ++ (moreFields more ++ rest))).length := by
      have few := length_lt_moreFields more
      simp only [List.length_append, List.length_cons]
      omega
    have found := fields?_chars key (each (key, value) (by simp))
      (fun other member => each other (by simp [member])) enough rest
    rw [Json.chars, List.tail_cons, List.append_assoc, List.cons_append, List.append_assoc, object?]
    exact found

/-- An object is read with its fields put in order. -/
theorem value?_object {levels : Nat} {fields : List (String × Json)}
    (each : ∀ field ∈ fields, Back (value? levels) field.2) (rest : List Char) :
    value? (levels + 1) ((Json.obj fields).chars ++ rest) = some (Json.object fields, rest) := by
  have found := object?_chars each rest
  obtain ⟨more, shape⟩ : ∃ more, (Json.obj fields).chars = '\x7b' :: more := by
    cases fields <;> exact ⟨_, rfl⟩
  rw [shape, List.tail_cons] at found
  rw [shape, List.cons_append, value?, skipBlanks_cons rfl]
  simp [found]

/-- A value is read up to its end. -/
theorem value?_chars {levels : Nat} {value : Json} (plain : value.Plain levels) :
    Back (value? levels) value := by
  induction levels using Nat.strongRecOn generalizing value with
  | ind levels ih =>
    intro rest ends
    cases value with
    | null => simp [Json.chars, value?, skipBlanks_cons, isBlank, keyword?]
    | bool flag => cases flag <;> simp [Json.chars, value?, skipBlanks_cons, isBlank, keyword?]
    | str text =>
      have found := text?_escaped text rest
      simp [Json.chars, quoted, value?, skipBlanks_cons, isBlank, found]
    | num number =>
      have integer := plain.floatFree
      rw [Json.floatFree] at integer
      obtain ⟨c, more, shape, dark, -⟩ := chars_cons plain.floatFree
      obtain ⟨_, _, same, first⟩ := text_cons integer
      have found := number?_text integer ends
      rw [Json.chars] at shape ⊢
      obtain ⟨rfl, -⟩ := List.cons.inj (shape.symm.trans same)
      rw [shape, List.cons_append] at found ⊢
      have quote : c ≠ '"' := by rintro rfl; exact absurd first (by decide)
      have bracket : c ≠ '[' := by rintro rfl; exact absurd first (by decide)
      have brace : c ≠ '\x7b' := by rintro rfl; exact absurd first (by decide)
      rw [value?, skipBlanks_cons dark]
      simp [quote, bracket, brace, first, found]
    | arr items =>
      have deep := plain.nested
      rw [Json.depth] at deep
      obtain ⟨inner, rfl⟩ : ∃ inner, levels = inner + 1 := ⟨levels - 1, by omega⟩
      have each := plain.item
      have found := array?_chars (fun item member => ih inner (Nat.lt_succ_self inner) (each item member))
        (fun item member => (each item member).floatFree) rest
      obtain ⟨more, shape⟩ : ∃ more, (Json.arr items).chars = '[' :: more := by
        cases items <;> exact ⟨_, rfl⟩
      rw [shape, List.tail_cons] at found
      rw [shape, List.cons_append, value?, skipBlanks_cons rfl]
      simp [found]
    | obj fields =>
      have deep := plain.nested
      rw [Json.depth] at deep
      obtain ⟨inner, rfl⟩ : ∃ inner, levels = inner + 1 := ⟨levels - 1, by omega⟩
      have each := plain.field
      rw [value?_object (fun field member => ih inner (Nat.lt_succ_self inner) (each field member)),
        Json.object, Fields.ofList_eq_self plain.ordered]

end Json.Reader

namespace Json

theorem read?_compact {value : Json} (plain : value.Plain maxLevels) : read? value.compact = some value := by
  have found := Reader.value?_chars plain [] nofun
  rw [List.append_nil] at found
  simp [read?, readNested?, compact, found, Reader.skipBlanks]

theorem read?_object {fields : List (String × Json)} (plain : ∀ field ∈ fields, field.2.Plain 126) :
    read? (Json.obj fields).compact = some (Json.object fields) := by
  have found := Reader.value?_object (fun field member => Reader.value?_chars (plain field member)) []
  rw [List.append_nil] at found
  simp [read?, readNested?, maxLevels, compact, found, Reader.skipBlanks]

end Json

end GatewayCache
