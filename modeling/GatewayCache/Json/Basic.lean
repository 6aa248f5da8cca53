import GatewayCache.Json.Number

/-! # JSON values

Values carry their numbers exactly and their objects as fields in ascending order
of key, each key once. Reading a field takes the first one of its name, and
inserting replaces it in place, so the laws of reading and writing hold of any
field list.
-/

namespace GatewayCache

/-- A JSON value. -/
inductive Json where
  | null
  | bool (value : Bool)
  | num (value : Number)
  | str (text : String)
  | arr (items : List Json)
  /-- An object, as its fields in order of key. -/
  | obj (fields : List (String × Json))
  deriving Repr, Inhabited

/-- The fields of an object, in ascending order of key. -/
abbrev Fields := List (String × Json)

namespace Fields

def get? (fields : Fields) (key : String) : Option Json := fields.lookup key

/-- Whether there is a value under a key, be it `null`. -/
def contains (fields : Fields) (key : String) : Bool := (fields.get? key).isSome

/-- Puts a value under a key, in place of the old one or where the order wants it. -/
def insert (key : String) (value : Json) : Fields → Fields
  | [] => [(key, value)]
  | (other, old) :: rest =>
    if key = other then (key, value) :: rest
    else if key < other then (key, value) :: (other, old) :: rest
    else (other, old) :: insert key value rest

def erase (key : String) (fields : Fields) : Fields :=
  fields.filter (fun field => field.1 != key)

/-- Fields from pairs in any order; of a repeated key the last one counts. -/
def ofList (pairs : List (String × Json)) : Fields :=
  pairs.foldl (fun fields pair => fields.insert pair.1 pair.2) []

end Fields

namespace Json

mutual

/-- Decides whether two values are the same. -/
def decideEq : (x y : Json) → Decidable (x = y)
  | .null, .null => isTrue rfl
  | .bool x, .bool y => decidable_of_iff (x = y) (by simp)
  | .num x, .num y => decidable_of_iff (x = y) (by simp)
  | .str x, .str y => decidable_of_iff (x = y) (by simp)
  | .arr xs, .arr ys =>
    match decideEqItems xs ys with
    | isTrue same => isTrue (by rw [same])
    | isFalse differ => isFalse (by simpa using differ)
  | .obj xs, .obj ys =>
    match decideEqFields xs ys with
    | isTrue same => isTrue (by rw [same])
    | isFalse differ => isFalse (by simpa using differ)
  | .null, .bool _ | .null, .num _ | .null, .str _ | .null, .arr _ | .null, .obj _ => isFalse (by simp)
  | .bool _, .null | .bool _, .num _ | .bool _, .str _ | .bool _, .arr _ | .bool _, .obj _ =>
    isFalse (by simp)
  | .num _, .null | .num _, .bool _ | .num _, .str _ | .num _, .arr _ | .num _, .obj _ =>
    isFalse (by simp)
  | .str _, .null | .str _, .bool _ | .str _, .num _ | .str _, .arr _ | .str _, .obj _ =>
    isFalse (by simp)
  | .arr _, .null | .arr _, .bool _ | .arr _, .num _ | .arr _, .str _ | .arr _, .obj _ =>
    isFalse (by simp)
  | .obj _, .null | .obj _, .bool _ | .obj _, .num _ | .obj _, .str _ | .obj _, .arr _ =>
    isFalse (by simp)
termination_by structural x => x

/-- Decides whether two lists of values are the same. -/
def decideEqItems : (xs ys : List Json) → Decidable (xs = ys)
  | [], [] => isTrue rfl
  | x :: xs, y :: ys =>
    match decideEq x y, decideEqItems xs ys with
    | isTrue head, isTrue tail => isTrue (by rw [head, tail])
    | isFalse head, _ => isFalse (by simp [head])
    | _, isFalse tail => isFalse (by simp [tail])
  | [], _ :: _ | _ :: _, [] => isFalse (by simp)
termination_by structural xs => xs

/-- Decides whether two field lists are the same. -/
def decideEqFields : (xs ys : List (String × Json)) → Decidable (xs = ys)
  | [], [] => isTrue rfl
  | (k, x) :: xs, (l, y) :: ys =>
    match decEq k l, decideEq x y, decideEqFields xs ys with
    | isTrue key, isTrue head, isTrue tail => isTrue (by rw [key, head, tail])
    | isFalse key, _, _ => isFalse (by simp [key])
    | _, isFalse head, _ => isFalse (by simp [head])
    | _, _, isFalse tail => isFalse (by simp [tail])
  | [], _ :: _ | _ :: _, [] => isFalse (by simp)
termination_by structural xs => xs

end

instance : DecidableEq Json := decideEq

mutual

/-- Whether two values are the same up to the sign of zeros among their floats. -/
def sameValue : Json → Json → Bool
  | .null, .null => true
  | .bool x, .bool y => x == y
  | .num x, .num y => x.sameValue y
  | .str x, .str y => x == y
  | .arr xs, .arr ys => sameItems xs ys
  | .obj xs, .obj ys => sameFields xs ys
  | _, _ => false
termination_by structural x => x

/-- Whether two lists of values are the same up to the sign of zeros. -/
def sameItems : List Json → List Json → Bool
  | [], [] => true
  | x :: xs, y :: ys => sameValue x y && sameItems xs ys
  | _, _ => false
termination_by structural xs => xs

/-- Whether two field lists are the same up to the sign of zeros. -/
def sameFields : List (String × Json) → List (String × Json) → Bool
  | [], [] => true
  | (k, x) :: xs, (l, y) :: ys => k == l && sameValue x y && sameFields xs ys
  | _, _ => false
termination_by structural xs => xs

end

def fields? : Json → Option Fields
  | .obj fields => some fields
  | _ => none

def items? : Json → Option (List Json)
  | .arr items => some items
  | _ => none

def text? : Json → Option String
  | .str text => some text
  | _ => none

def bool? : Json → Option Bool
  | .bool value => some value
  | _ => none

def unsigned? : Json → Option UInt64
  | .num value => value.unsigned?
  | _ => none

def isObject (value : Json) : Bool := value.fields?.isSome

/-- The value under a key of an object; nothing for other values. -/
def get? (value : Json) (key : String) : Option Json := value.fields?.bind (·.get? key)

def ofUInt64 (n : UInt64) : Json := .num (.unsigned n)

/-- A count as a value; counts stay below `2 ^ 64`. -/
def ofNat (n : Nat) : Json := .num (.unsigned n.toUInt64)

/-- An integer as a value, for an integer that 64 bits can hold. -/
def ofInt (n : Int) : Json :=
  match n with
  | .ofNat n => .num (.unsigned n.toUInt64)
  | .negSucc n => .num (.negative (Fin.ofNat negativeCount n))

/-- An object from pairs in any order. -/
def object (pairs : List (String × Json)) : Json := .obj (Fields.ofList pairs)

/-- A present value as it is, an absent one as `null`. -/
def ofOption (value : Option Json) : Json := value.getD .null

end Json

end GatewayCache
