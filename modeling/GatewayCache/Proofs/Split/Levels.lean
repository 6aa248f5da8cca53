import GatewayCache.Proofs.Split

/-! # The levels of payloads

A payload cannot be nested without end: the relations of a kind lead to kinds of
fewer levels, since none leads back to the kind that a payload is embedded in. So the
levels that payloads are taken apart with are enough for every payload, and an
embedded object is taken apart as one that stands alone in its place would be.
-/

namespace GatewayCache.Split

/-- The levels that a payload of a kind may have, by the kind that it is embedded in. -/
def height : Kind → Option Kind → Nat
  | .role, _ | .user, _ | .autoModRule, _ => 1
  | .channel, _ | .thread, _ | .member, _ | .emoji, _ | .sticker, _ | .integration, _ => 2
  | .voiceState, _ | .message, some .message => 3
  | .guild, _ | .message, _ => 4

theorem height_pos (kind : Kind) (parent : Option Kind) : 0 < height kind parent := by
  unfold height
  split <;> decide

theorem height_le_maxLevels (kind : Kind) (parent : Option Kind) :
    height kind parent ≤ maxLevels := by
  unfold height
  split <;> decide

theorem height_eq {kind : Kind} (other : kind ≠ .message) (first second : Option Kind) :
    height kind first = height kind second := by
  cases kind <;> first | rfl | exact absurd rfl other

theorem three_le_height_message (parent : Option Kind) : 3 ≤ height .message parent := by
  unfold height
  split <;> first | decide | simp_all

/-- What is embedded in a payload has fewer levels. -/
theorem height_lt {kind target : Kind} {parent : Option Kind} {relation : Relation}
    (member : relation ∈ kind.relations) (forward : leadsBack relation parent = false)
    (leads : target ∈ relation.target.kinds) : height target (some kind) < height kind parent := by
  have every : ∀ relation ∈ kind.relations, leadsBack relation parent = false →
      ∀ target ∈ relation.target.kinds, height target (some kind) < height kind parent := by
    rcases parent with _ | parent
    · cases kind <;> decide
    · cases kind <;> cases parent <;> decide
  exact every relation member forward target leads

variable {inner other : Splitter} {context : Context}

/-- Two splitters take payloads of some kinds apart in the same way. -/
def Agree (inner other : Splitter) (context : Context) (kinds : List Kind) : Prop :=
  ∀ kind ∈ kinds, inner kind context = other kind context

theorem extract_congr {target : Target} (agree : Agree inner other context target.kinds)
    (beside : Option Json) (object : Fields) :
    extract inner context target beside object = extract other context target beside object := by
  unfold extract
  simp only [agree _ (promote_kind target context.guild beside object)]

theorem sift_congr {target : Target} (agree : Agree inner other context target.kinds)
    (items : List Json) : sift inner context target items = sift other context target items := by
  induction items with
  | nil => rfl
  | cons item rest ih =>
    cases item with
    | obj object => simp only [sift, ih, extract_congr agree]
    | null | bool | num | str | arr => simp only [sift, ih]

theorem takeRelation_congr {parent : Option Kind} {relation : Relation}
    (agree : leadsBack relation parent = false → Agree inner other context relation.target.kinds)
    (draft : Draft) :
    takeRelation inner parent context draft relation =
      takeRelation other parent context draft relation := by
  unfold takeRelation
  cases back : leadsBack relation parent with
  | true => rfl
  | false => simp only [extract_congr (agree back), sift_congr (agree back)]

theorem takeRelations_congr {parent : Option Kind} {relations : List Relation}
    (agree : ∀ relation ∈ relations, leadsBack relation parent = false →
      Agree inner other context relation.target.kinds) (draft : Draft) :
    relations.foldl (takeRelation inner parent context) draft =
      relations.foldl (takeRelation other parent context) draft := by
  induction relations generalizing draft with
  | nil => rfl
  | cons relation rest ih =>
    rw [List.foldl_cons, List.foldl_cons, takeRelation_congr (agree relation (by simp)),
      ih fun later member => agree later (by simp [member])]

theorem step_congr {kind : Kind} {payload : Fields}
    (agree : ∀ guild, ∀ relation ∈ kind.relations, leadsBack relation context.parent = false →
      Agree inner other ⟨guild, some kind⟩ relation.target.kinds) :
    step inner kind context payload = step other kind context payload := by
  unfold step
  simp only [takeRelations_congr (agree _)]

theorem nested_eq {levels more : Nat} {kind : Kind}
    (enough : height kind context.parent ≤ levels) (enoughAgain : height kind context.parent ≤ more) :
    nested levels kind context = nested more kind context := by
  induction levels generalizing more kind context with
  | zero => exact absurd (height_pos kind context.parent) (by omega)
  | succ levels ih =>
    cases more with
    | zero => exact absurd (height_pos kind context.parent) (by omega)
    | succ more =>
      funext payload
      refine step_congr fun guild relation member forward target leads => ?_
      have fewer := height_lt member forward leads
      exact ih (by simp only; omega) (by simp only; omega)

/-- What is embedded in a payload is taken apart in the same way as the payload. -/
theorem nested_maxLevels : step (nested maxLevels) = nested maxLevels := by
  funext kind context payload
  have enough := height_le_maxLevels kind context.parent
  have more : nested (maxLevels + 1) kind context = nested maxLevels kind context :=
    nested_eq (by omega) enough
  exact congrFun more payload

end GatewayCache.Split
