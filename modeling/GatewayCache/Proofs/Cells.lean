/-! # Cells

A container holds its values in cells, which are read and replaced by key. When
values are laid over cells in turn, what becomes of one cell depends on the values
for its own key alone. So a law about the history of a single cell carries over to
histories in which the keys are mixed.
-/

namespace GatewayCache

/-- Reading and replacing the cells of a container. -/
structure Cells (κ α σ : Type) where
  /-- The value in a cell. -/
  get? : κ → σ → Option α
  /-- The container with the value of a cell replaced. -/
  set : κ → α → σ → σ
  get?_set_self : ∀ key value state, get? key (set key value state) = some value
  get?_set_of_ne : ∀ {key other}, key ≠ other → ∀ value state,
    get? key (set other value state) = get? key state
  set_set : ∀ key new old state, set key new (set key old state) = set key new state
  set_comm : ∀ {key other}, key ≠ other → ∀ value content state,
    set key value (set other content state) = set other content (set key value state)

/-- What values make of the content of a cell when they are laid over it in turn. -/
def pile {α β : Type} (onto : Option α → β → α) (content : Option α) (values : List β) : Option α :=
  values.foldl (fun content value => some (onto content value)) content

theorem pile_some {α β : Type} (onto : Option α → β → α) (content : α) (values : List β) :
    ∃ result, pile onto (some content) values = some result := by
  induction values generalizing content with
  | nil => exact ⟨content, rfl⟩
  | cons value rest ih => exact ih (onto (some content) value)

theorem pile_of_ne_nil {α β : Type} (onto : Option α → β → α) (content : Option α) {values : List β}
    (nonempty : values ≠ []) : ∃ result, pile onto content values = some result := by
  cases values with
  | nil => exact absurd rfl nonempty
  | cons value rest => exact pile_some onto (onto content value) rest

/-- The values for one key, in their order. -/
def valuesAt {κ β : Type} [DecidableEq κ] (key : κ) (entries : List (κ × β)) : List β :=
  (entries.filter (fun entry => entry.1 = key)).map Prod.snd

theorem valuesAt_eq_nil {κ β : Type} [DecidableEq κ] {key : κ} {entries : List (κ × β)}
    (untouched : ∀ entry ∈ entries, entry.1 ≠ key) : valuesAt key entries = [] := by
  simp only [valuesAt, List.map_eq_nil_iff, List.filter_eq_nil_iff, decide_eq_true_eq]
  exact untouched

theorem valuesAt_perm {κ β : Type} [DecidableEq κ] (key : κ) {entries others : List (κ × β)}
    (same : entries.Perm others) : (valuesAt key entries).Perm (valuesAt key others) :=
  (same.filter _).map Prod.snd

namespace Cells

variable {κ α β σ : Type} (cells : Cells κ α σ) (onto : Option α → β → α)

/-- Lays a value over the cell of its key. -/
def lay (state : σ) (entry : κ × β) : σ :=
  cells.set entry.1 (onto (cells.get? entry.1 state) entry.2) state

/-- Lays values over the cells of their keys, in turn. -/
def layAll (state : σ) (entries : List (κ × β)) : σ := entries.foldl (cells.lay onto) state

theorem layAll_append (state : σ) (first second : List (κ × β)) :
    cells.layAll onto state (first ++ second) =
      cells.layAll onto (cells.layAll onto state first) second :=
  List.foldl_append ..

theorem lay_comm {first second : κ × β} (apart : first.1 ≠ second.1) (state : σ) :
    cells.lay onto (cells.lay onto state first) second =
      cells.lay onto (cells.lay onto state second) first := by
  unfold lay
  rw [cells.get?_set_of_ne apart.symm, cells.get?_set_of_ne apart, cells.set_comm apart]

theorem layAll_lay_comm {entry : κ × β} {entries : List (κ × β)}
    (apart : ∀ other ∈ entries, other.1 ≠ entry.1) (state : σ) :
    cells.layAll onto (cells.lay onto state entry) entries =
      cells.lay onto (cells.layAll onto state entries) entry := by
  induction entries generalizing state with
  | nil => rfl
  | cons first rest ih =>
    have swap := cells.lay_comm onto (apart first (by simp)).symm state
    simp only [layAll, List.foldl_cons] at ih ⊢
    rw [swap]
    exact ih (fun other member => apart other (by simp [member])) _

theorem layAll_comm {first second : List (κ × β)}
    (apart : ∀ entry ∈ first, ∀ other ∈ second, other.1 ≠ entry.1) (state : σ) :
    cells.layAll onto (cells.layAll onto state first) second =
      cells.layAll onto (cells.layAll onto state second) first := by
  induction first generalizing state with
  | nil => rfl
  | cons entry rest ih =>
    have later := ih (fun other member => apart other (by simp [member])) (cells.lay onto state entry)
    have swap := cells.layAll_lay_comm onto (apart entry (by simp)) state
    simp only [layAll, List.foldl_cons] at later swap ⊢
    rw [later, swap]

variable [DecidableEq κ]

/-- The content of a cell is what the values for its key make of it. -/
theorem get?_layAll (key : κ) (entries : List (κ × β)) (state : σ) :
    cells.get? key (cells.layAll onto state entries) =
      pile onto (cells.get? key state) (valuesAt key entries) := by
  induction entries generalizing state with
  | nil => rfl
  | cons entry rest ih =>
    rw [layAll, List.foldl_cons, ← layAll, ih]
    by_cases same : entry.1 = key
    · subst same
      simp [valuesAt, pile, lay, cells.get?_set_self]
    · simp [valuesAt, same, lay, cells.get?_set_of_ne (Ne.symm same)]

/-- The entries for one key can be laid before all others. -/
theorem layAll_key_first (key : κ) (entries : List (κ × β)) (state : σ) :
    cells.layAll onto state entries =
      cells.layAll onto (cells.layAll onto state (entries.filter (fun entry => entry.1 = key)))
        (entries.filter (fun entry => entry.1 ≠ key)) := by
  induction entries generalizing state with
  | nil => rfl
  | cons entry rest ih =>
    rw [layAll, List.foldl_cons, ← layAll, ih]
    by_cases same : entry.1 = key
    · simp [same, layAll]
    · have apart : ∀ other ∈ rest.filter (fun entry => entry.1 = key), other.1 ≠ entry.1 := by
        intro other member equal
        simp only [List.mem_filter, decide_eq_true_eq] at member
        exact same (equal ▸ member.2)
      rw [cells.layAll_lay_comm onto apart]
      simp [same, layAll]

theorem layAll_of_key {key : κ} {entries : List (κ × β)} (only : ∀ entry ∈ entries, entry.1 = key)
    {content : α} (state : σ)
    (made : pile onto (cells.get? key state) (valuesAt key entries) = some content)
    (nonempty : entries ≠ []) :
    cells.layAll onto state entries = cells.set key content state := by
  induction entries generalizing state with
  | nil => exact absurd rfl nonempty
  | cons entry rest ih =>
    obtain rfl := only entry (by simp)
    rw [layAll, List.foldl_cons, ← layAll]
    have here : pile onto (cells.get? entry.1 (cells.lay onto state entry))
        (valuesAt entry.1 rest) = some content := by
      rw [← made]
      simp [valuesAt, pile, lay, cells.get?_set_self]
    cases rest with
    | nil =>
      have content_eq : onto (cells.get? entry.1 state) entry.2 = content := by
        simpa [valuesAt, pile] using made
      simp [layAll, lay, content_eq]
    | cons next more =>
      rw [ih (fun other member => only other (by simp [member])) _ here (by simp), lay,
        cells.set_set]

/-- A cell that holds its value: replacing the value by itself does nothing. -/
def Held (key : κ) (state : σ) : Prop :=
  ∀ value, cells.get? key state = some value → cells.set key value state = state

omit [DecidableEq κ] in
theorem held_set_self (key : κ) (value : α) (state : σ) : cells.Held key (cells.set key value state) := by
  intro other found
  rw [cells.get?_set_self, Option.some.injEq] at found
  rw [found, cells.set_set]

theorem held_lay {key : κ} {state : σ} (entry : κ × β) (held : key = entry.1 ∨ cells.Held key state) :
    cells.Held key (cells.lay onto state entry) := by
  by_cases same : key = entry.1
  · rw [same]
    exact cells.held_set_self entry.1 _ state
  · have before := held.resolve_left same
    intro value found
    rw [lay, cells.get?_set_of_ne same] at found
    rw [lay, cells.set_comm same, before value found]

theorem held_layAll {key : κ} {entries : List (κ × β)} {state : σ}
    (held : (∃ entry ∈ entries, key = entry.1) ∨ cells.Held key state) :
    cells.Held key (cells.layAll onto state entries) := by
  induction entries generalizing state with
  | nil => simpa [layAll] using held
  | cons entry rest ih =>
    rw [layAll, List.foldl_cons, ← layAll]
    apply ih
    rcases held with ⟨other, member, same⟩ | held
    · rcases List.mem_cons.mp member with rfl | later
      · exact .inr (cells.held_lay onto _ (.inl same))
      · exact .inl ⟨other, later, same⟩
    · exact .inr (cells.held_lay onto entry (.inr held))

theorem valuesAt_of_key {key : κ} {entries : List (κ × β)}
    (only : ∀ entry ∈ entries, entry.1 = key) : valuesAt key entries = entries.map Prod.snd := by
  unfold valuesAt
  rw [List.filter_eq_self.mpr (by simpa using only)]

theorem valuesAt_own (key : κ) (entries : List (κ × β)) :
    valuesAt key (entries.filter (fun entry => entry.1 = key)) = valuesAt key entries := by
  simp [valuesAt, List.filter_filter]

theorem valuesAt_others (key other : κ) (entries : List (κ × β)) :
    valuesAt key (entries.filter (fun entry => entry.1 ≠ other)) =
      if key = other then [] else valuesAt key entries := by
  unfold valuesAt
  rw [List.filter_filter]
  split
  · next same => simp [same]
  · next apart =>
    congr 1
    apply List.filter_congr
    intro entry _
    by_cases here : entry.1 = key <;> simp [here, apart]

theorem layAll_of_key_eq_self {key : κ} {entries : List (κ × β)} {state : σ}
    (only : ∀ entry ∈ entries, entry.1 = key) (held : cells.Held key state)
    (settled : pile onto (cells.get? key state) (valuesAt key entries) = cells.get? key state) :
    cells.layAll onto state entries = state := by
  by_cases nonempty : entries = []
  · rw [nonempty]
    rfl
  · have values : valuesAt key entries ≠ [] := by
      rw [valuesAt_of_key only]
      simpa using nonempty
    obtain ⟨content, made⟩ := pile_of_ne_nil onto (cells.get? key state) values
    rw [cells.layAll_of_key onto only state made nonempty]
    apply held
    rw [← made, settled]

theorem layAll_eq_self {entries : List (κ × β)} {state : σ}
    (held : ∀ entry ∈ entries, cells.Held entry.1 state)
    (settled : ∀ key, pile onto (cells.get? key state) (valuesAt key entries) =
      cells.get? key state) :
    cells.layAll onto state entries = state := by
  -- The keys are taken off one at a time, each with all of its entries.
  induction total : entries.length using Nat.strongRecOn generalizing entries with
  | ind count ih =>
    cases entries with
    | nil => rfl
    | cons entry rest =>
      have own : cells.layAll onto state
          ((entry :: rest).filter (fun other => other.1 = entry.1)) = state := by
        apply cells.layAll_of_key_eq_self onto _ (held entry (by simp))
        · rw [valuesAt_own, settled]
        · intro other member
          simpa using (List.mem_filter.mp member).2
      have fewer : ((entry :: rest).filter (fun other => other.1 ≠ entry.1)).length ≤ rest.length := by
        simpa using List.length_filter_le (fun other => !decide (other.1 = entry.1)) rest
      have less : ((entry :: rest).filter (fun other => other.1 ≠ entry.1)).length < count := by
        rw [← total, List.length_cons]
        omega
      rw [cells.layAll_key_first onto entry.1, own]
      refine ih _ less ?_ ?_ rfl
      · intro other member
        exact held other (List.mem_filter.mp member).1
      · intro key
        rw [valuesAt_others]
        split
        · rfl
        · exact settled key

/-- A history whose values, laid over any cell for the second time, change nothing. -/
def Stable (entries : List (κ × β)) : Prop :=
  ∀ key content, pile onto (pile onto content (valuesAt key entries)) (valuesAt key entries) =
    pile onto content (valuesAt key entries)

/-- A stable history leaves nothing to do for the same history again. -/
theorem layAll_layAll {entries : List (κ × β)} (stable : Stable onto entries) (state : σ) :
    cells.layAll onto (cells.layAll onto state entries) entries = cells.layAll onto state entries := by
  apply cells.layAll_eq_self onto
  · intro entry member
    exact cells.held_layAll onto (.inl ⟨entry, member, rfl⟩)
  · intro key
    rw [cells.get?_layAll onto, stable key]

end Cells

end GatewayCache
