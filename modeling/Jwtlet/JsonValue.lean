import Jwtlet.RustCollections

/-!
# JSON values

The values of `serde_json::Value`.  A number is one of the three representations
`serde_json` keeps apart, with what it checks before it builds one; a float is held
by its bits, since no code here computes with it.

An object lists its fields; the ordered map `serde_json::Map` (a `BTreeMap`, the
`preserve_order` feature is off) is `Map`, and `ofMap` and `toMap` pass between the
two.  A parsed text may repeat a field; `canonical` is the value it stands for.
-/

namespace Jwtlet

open Rust

/-- `f64::is_finite`, of the bits: the exponent is not the one of the infinities
and of the values that are no number. -/
def isFiniteFloat (bits : UInt64) : Bool := bits >>> 52 &&& 0x7ff != 0x7ff

/-- `serde_json::Number`: a non-negative integer, a negative one, or a finite
float.  JSON text has no other numbers, and `Number::from_f64` makes no others. -/
inductive Number where
  | posInt (n : UInt64)
  | negInt (n : Int64) (negative : n.toInt < 0)
  | float (bits : UInt64) (finite : isFiniteFloat bits = true)
  deriving DecidableEq

/-- `serde_json::Value`.  The fields of an object are listed as a text has them, so that a
parsed text with a repeated field is a value of this type too. -/
inductive Json where
  | null
  | bool (b : Bool)
  | number (n : Number)
  | string (s : String)
  | array (items : List Json)
  | object (fields : List (String × Json))

/-- `serde_json::Map<String, Value>`, the type of the claims of a scope and of a token.
Its keys are ordered and distinct. -/
abbrev Map := BTreeMap String Json

namespace Json

-- The deriving handler does not cover the nesting, so equality is decided by
-- one function for each nested type, recursive in the first argument.
mutual

/-- Equality of values can be decided, by recursion on the first of them.  An object is
compared field by field, in the order of its list. -/
def decEq : (a b : Json) → Decidable (a = b)
  | .null, .null => isTrue rfl
  | .bool a, .bool b => decidable_of_iff (a = b) (by simp)
  | .number a, .number b => decidable_of_iff (a = b) (by simp)
  | .string a, .string b => decidable_of_iff (a = b) (by simp)
  | .array a, .array b =>
      match decEqItems a b with
      | isTrue h => isTrue (by rw [h])
      | isFalse h => isFalse (by simpa using h)
  | .object a, .object b =>
      match decEqFields a b with
      | isTrue h => isTrue (by rw [h])
      | isFalse h => isFalse (by simpa using h)
  | .null, .bool _ | .null, .number _ | .null, .string _ | .null, .array _
  | .null, .object _ | .bool _, .null | .bool _, .number _ | .bool _, .string _
  | .bool _, .array _ | .bool _, .object _ | .number _, .null | .number _, .bool _
  | .number _, .string _ | .number _, .array _ | .number _, .object _
  | .string _, .null | .string _, .bool _ | .string _, .number _
  | .string _, .array _ | .string _, .object _ | .array _, .null | .array _, .bool _
  | .array _, .number _ | .array _, .string _ | .array _, .object _
  | .object _, .null | .object _, .bool _ | .object _, .number _
  | .object _, .string _ | .object _, .array _ => isFalse (by simp)
termination_by structural a _ => a

/-- Equality of the items of two arrays, which must be equally many. -/
def decEqItems : (a b : List Json) → Decidable (a = b)
  | [], [] => isTrue rfl
  | [], _ :: _ | _ :: _, [] => isFalse (by simp)
  | x :: xs, y :: ys =>
      match decEq x y, decEqItems xs ys with
      | isTrue h, isTrue h' => isTrue (by rw [h, h'])
      | isFalse h, _ => isFalse (by simp [h])
      | _, isFalse h => isFalse (by simp [h])
termination_by structural a _ => a

/-- Equality of the fields of two objects, in the order in which they are listed. -/
def decEqFields : (a b : List (String × Json)) → Decidable (a = b)
  | [], [] => isTrue rfl
  | [], _ :: _ | _ :: _, [] => isFalse (by simp)
  | x :: xs, y :: ys =>
      match decEqField x y, decEqFields xs ys with
      | isTrue h, isTrue h' => isTrue (by rw [h, h'])
      | isFalse h, _ => isFalse (by simp [h])
      | _, isFalse h => isFalse (by simp [h])
termination_by structural a _ => a

/-- Equality of two fields, of their names and of their values. -/
def decEqField : (a b : String × Json) → Decidable (a = b)
  | (k, x), (l, y) =>
      match String.decEq k l, decEq x y with
      | isTrue h, isTrue h' => isTrue (by rw [h, h'])
      | isFalse h, _ => isFalse (by simp [h])
      | _, isFalse h => isFalse (by simp [h])
termination_by structural a _ => a

end

instance : DecidableEq Json := decEq

-- What the text of an object repeats, the value holds once: the last field of a
-- name wins, at every depth.
mutual

/-- The value that a parsed text stands for.  Of a field that is repeated the last one
counts, at every depth, and the fields come to stand in the order of their names. -/
def canonical : Json → Json
  | .array items => .array (canonicalItems items)
  | .object fields => .object (Std.ExtTreeMap.ofList (canonicalFields fields) compare).toList
  | .null => .null
  | .bool b => .bool b
  | .number n => .number n
  | .string s => .string s
termination_by structural j => j

/-- The items of an array, each as the value it stands for. -/
def canonicalItems : List Json → List Json
  | [] => []
  | j :: l => canonical j :: canonicalItems l
termination_by structural l => l

/-- The fields of an object, each with the value it stands for.  Repetitions are still
there. -/
def canonicalFields : List (String × Json) → List (String × Json)
  | [] => []
  | f :: l => canonicalField f :: canonicalFields l
termination_by structural l => l

/-- A field with the value that its value stands for. -/
def canonicalField : String × Json → String × Json
  | (k, j) => (k, canonical j)
termination_by structural f => f

end

/-- The value is a JSON string.  Values of claims are merged if they are strings, and are
in conflict otherwise. -/
def isString : Json → Bool
  | .string _ => true
  | _ => false

/-- `Value::Object` of a map: the object with the entries of the map as its fields, in
ascending order. -/
def ofMap (m : Map) : Json := .object m.toList

/-- The map of an object, in which the last of repeated fields counts.  Any other value
reads as the empty map. -/
def toMap : Json → Map
  | .object fields => Std.ExtTreeMap.ofList fields compare
  | _ => ∅

/-- A map written as a value reads back as written.  The claims of a scope go through a
column of the database in this way. -/
@[simp] theorem toMap_ofMap (m : Map) : (ofMap m).toMap = m :=
  ofList_toList m

/-- The value of an `i64` as `serde_json` represents it: an integer that is not negative
is held as a `u64`. -/
def ofInt64 (n : Int64) : Json :=
  if h : 0 ≤ n.toInt then .number (.posInt n.toUInt64)
  else .number (.negInt n (Int.lt_of_not_ge h))

end Json

end Jwtlet
