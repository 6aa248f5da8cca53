import GatewayCache.Json.Writer

/-! # Compact JSON is one line

In a text every line feed is escaped, and outside of texts none is written.
-/

namespace GatewayCache

namespace Number

theorem lineFeed_not_mem_decimal (n : Nat) : '\n' ∉ decimal n := by
  intro member
  have digit := Nat.isDigit_of_mem_toDigits (by decide) (by decide) member
  cases digit

theorem lineFeed_not_mem_positional {digits : List Char} (plain : '\n' ∉ digits) (leading : Int) :
    '\n' ∉ positional digits leading := by
  unfold positional
  split
  · simp [plain, List.mem_replicate]
  · generalize wide : leading.toNat + 1 = width
    have padded : '\n' ∉ digits ++ List.replicate (width - digits.length) '0' := by
      simp [plain, List.mem_replicate]
    have whole := mt (List.mem_of_mem_take (i := width)) padded
    have fraction := mt (List.mem_of_mem_drop (i := width)) padded
    simp only [List.mem_append, not_or]
    refine ⟨⟨whole, by simp⟩, ?_⟩
    split
    · simp
    · exact fraction

theorem lineFeed_not_mem_scientific {digits : List Char} (plain : '\n' ∉ digits) (leading : Int) :
    '\n' ∉ scientific digits leading := by
  have kept := mt (List.mem_of_mem_take (i := 1)) plain
  have others := mt (List.mem_of_mem_drop (i := 1)) plain
  have exponent := lineFeed_not_mem_decimal leading.natAbs
  unfold scientific
  simp only [List.mem_append, not_or]
  refine ⟨⟨⟨⟨kept, ?_⟩, others⟩, ?_⟩, exponent⟩
  · split <;> simp
  · split <;> simp

theorem lineFeed_not_mem_text (number : Number) : '\n' ∉ number.text := by
  cases number with
  | unsigned value => exact lineFeed_not_mem_decimal _
  | negative below => simp [text, lineFeed_not_mem_decimal]
  | float value =>
    have digits := lineFeed_not_mem_decimal value.shortest.significand
    have body (leading : Int) : '\n' ∉
        if floatFormat.leastPositional ≤ leading ∧ leading < floatFormat.firstScientific then
          positional (decimal value.shortest.significand) leading
        else scientific (decimal value.shortest.significand) leading := by
      split
      · exact lineFeed_not_mem_positional digits leading
      · exact lineFeed_not_mem_scientific digits leading
    simp only [text, floatText]
    split
    · exact mt List.mem_cons.mp (not_or.mpr ⟨by decide, body _⟩)
    · exact body _

end Number

namespace Json

theorem lineFeed_not_mem_escape (c : Char) : '\n' ∉ escape c := by
  have digit (n : Nat) : '\n' ≠ hexDigit n := by
    have each : ∀ n < 16, '\n' ≠ Nat.digitChar n := by decide
    exact each (n % 16) (Nat.mod_lt n (by decide))
  unfold escape
  repeat' split
  all_goals simp_all [eq_comm]

theorem lineFeed_not_mem_quoted (text : String) : '\n' ∉ quoted text := by
  simp [quoted, lineFeed_not_mem_escape]

mutual

theorem lineFeed_not_mem_chars : (value : Json) → '\n' ∉ value.chars
  | .null | .bool true | .bool false | .arr [] | .obj [] => by simp [chars]
  | .num number => Number.lineFeed_not_mem_text number
  | .str text => lineFeed_not_mem_quoted text
  | .arr (item :: rest) => by
    simp [chars, lineFeed_not_mem_chars item, lineFeed_not_mem_moreItems rest]
  | .obj ((key, value) :: rest) => by
    simp [chars, lineFeed_not_mem_quoted, lineFeed_not_mem_chars value, lineFeed_not_mem_moreFields rest]
termination_by structural value => value

theorem lineFeed_not_mem_moreItems : (items : List Json) → '\n' ∉ moreItems items
  | [] => by simp [moreItems]
  | item :: rest => by
    simp [moreItems, lineFeed_not_mem_chars item, lineFeed_not_mem_moreItems rest]
termination_by structural items => items

theorem lineFeed_not_mem_moreFields : (fields : List (String × Json)) → '\n' ∉ moreFields fields
  | [] => by simp [moreFields]
  | (key, value) :: rest => by
    simp [moreFields, lineFeed_not_mem_quoted, lineFeed_not_mem_chars value,
      lineFeed_not_mem_moreFields rest]
termination_by structural fields => fields

end

end Json

end GatewayCache
