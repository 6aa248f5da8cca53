import GatewayCache.Text.Blank

/-! # Trimming

What trimming leaves of a text is bare, and the text is that with white space around it.
There is only one such part, so trimming finds it.
-/

namespace GatewayCache.Text

theorem isBlank_of_isDigit {c : Char} (digit : c.isDigit) : isBlank c = false := by
  have bounds : 48 ≤ c.toNat ∧ c.toNat ≤ 57 := by
    simpa [Char.isDigit, UInt32.le_iff_toNat_le] using digit
  simp only [isBlank, blankRanges, List.any_cons, List.any_nil, Bool.or_false, Bool.or_eq_false_iff,
    Bool.and_eq_false_iff, decide_eq_false_iff_not]
  omega

variable {cs inner text before after : List Char}

theorem trimStart_append (blank : ∀ c ∈ before, isBlank c) :
    trimStart (before ++ cs) = trimStart cs :=
  List.dropWhile_append_of_pos blank

theorem trimStart_eq_self (dark : ∀ c ∈ cs.head?, isBlank c = false) : trimStart cs = cs := by
  cases cs with
  | nil => rfl
  | cons c rest => simp [trimStart, dark c rfl]

theorem trimEnd_append (blank : ∀ c ∈ after, isBlank c) : trimEnd (cs ++ after) = trimEnd cs := by
  have reversed : ∀ c ∈ after.reverse, isBlank c := by simpa using blank
  rw [trimEnd, List.reverse_append, trimStart_append reversed, trimEnd]

theorem trimEnd_eq_self (dark : ∀ c ∈ cs.getLast?, isBlank c = false) : trimEnd cs = cs := by
  have reversed : ∀ c ∈ cs.reverse.head?, isBlank c = false := by simpa using dark
  rw [trimEnd, trimStart_eq_self reversed, List.reverse_reverse]

theorem eq_append_trimStart (cs : List Char) :
    ∃ before, (∀ c ∈ before, isBlank c) ∧ cs = before ++ trimStart cs :=
  ⟨cs.takeWhile isBlank, List.all_eq_true.mp List.all_takeWhile,
    List.takeWhile_append_dropWhile.symm⟩

theorem eq_trimEnd_append (cs : List Char) :
    ∃ after, (∀ c ∈ after, isBlank c) ∧ cs = trimEnd cs ++ after := by
  obtain ⟨before, blank, split⟩ := eq_append_trimStart cs.reverse
  refine ⟨before.reverse, by simpa using blank, ?_⟩
  rw [trimEnd, ← List.reverse_append, ← split, List.reverse_reverse]

theorem bare_of_dark (dark : ∀ c ∈ cs, isBlank c = false) : Bare cs where
  first c first := dark c (List.mem_of_mem_head? first)
  last c last := dark c (List.mem_of_getLast? last)

theorem padded_self (text : List Char) : Padded text text :=
  ⟨[], [], nofun, nofun, by simp⟩

theorem trim_of_padded (padded : Padded inner text) (bare : Bare inner) : trim text = inner := by
  obtain ⟨before, after, blankBefore, blankAfter, rfl⟩ := padded
  rw [trim, List.append_assoc, trimStart_append blankBefore]
  cases inner with
  | nil =>
    have nothing : trimStart (after ++ []) = [] := trimStart_append blankAfter
    rw [List.append_nil] at nothing
    rw [List.nil_append, nothing]
    rfl
  | cons c rest =>
    have kept : trimStart (c :: rest ++ after) = c :: rest ++ after :=
      trimStart_eq_self (by simpa using bare.first)
    rw [kept, trimEnd_append blankAfter, trimEnd_eq_self bare.last]

theorem padded_trim (text : List Char) : Padded (trim text) text := by
  obtain ⟨before, blankBefore, left⟩ := eq_append_trimStart text
  obtain ⟨after, blankAfter, right⟩ := eq_trimEnd_append (trimStart text)
  refine ⟨before, after, blankBefore, blankAfter, ?_⟩
  rw [trim, List.append_assoc, ← right, ← left]

end GatewayCache.Text
