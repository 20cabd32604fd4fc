import Jwtlet.Http
import Jwtlet.Resource

/-!
# Reading the bodies of management requests

The derived deserializers of `ResourceMapping` and `ScopeMapping` and the
untagged `OneOrMany` of `jwtlet-server/src/management/mod.rs`.  A record is read
from an object, with camelCase names, each at most once and unknown ones
ignored, or from a sequence of its fields in order.

The `Json` extractor tells a body that is no JSON text from one that is no such
record.  A sequence that goes on after the last field of the record counts as the
former, unless the record was one of the variants of `OneOrMany`.
-/

namespace Jwtlet

open Rust

/-- Why the `Json` extractor refuses a body: its content type, its length, a text that is
no JSON, or a value that is no such record. -/
inductive JsonRejection where
  | missingJsonContentType
  | tooLarge
  | syntaxError
  | dataError
  deriving DecidableEq

/-- The status that each of these refusals is answered with. -/
def JsonRejection.status : JsonRejection → StatusCode
  | .missingJsonContentType => .unsupportedMediaType
  | .tooLarge => .payloadTooLarge
  | .syntaxError => .badRequest
  | .dataError => .unprocessableEntity

/-- A `String`, from a JSON string and nothing else. -/
def decodeString : Json → Option String
  | .string s => some s
  | _ => none

/-- A `HashSet<String>`, from an array of strings.  Repetitions in the array are no error.
-/
def decodeStringSet : Json → Option (HashSet String)
  | .array items => (items.mapM decodeString).map fun l => Std.ExtTreeSet.ofList l compare
  | _ => none

/-- A `Map<String, Value>`, from an object.  Of a repeated field the last one counts, at
every depth. -/
def decodeMap : Json → Option Map
  | .object fields => some (Std.ExtTreeMap.ofList (Json.canonicalFields fields) compare)
  | _ => none

/-- The value of a field, `none` inside when it is missing.  A repeated field is an error,
as derived deserializers have it. -/
def singleField (fields : List (String × Json)) (name : String) : Option (Option Json) :=
  match fields.filter fun f => f.1 == name with
  | [] => some none
  | [f] => some (some f.2)
  | _ => none

/-- A field that must be there, and whose value must be right. -/
def requiredField {A : Type} (fields : List (String × Json)) (name : String)
    (decode : Json → Option A) : Option A := do
  let value ← singleField fields name
  decode (← value)

/-- A field with a default, which stands for a missing field only and not for a value that
is wrong. -/
def defaultedField {A : Type} (fields : List (String × Json)) (name : String)
    (decode : Json → Option A) (default : A) : Option A := do
  match ← singleField fields name with
  | none => some default
  | some value => decode value

/-- The derived `Deserialize` of `ResourceMapping`: from an object, or from a sequence of
the fields in order, in which the audiences may be left out. -/
def ResourceMapping.deserialize : Json → Option ResourceMapping
  | .object fields => do
      let clientIdentifier ← requiredField fields "clientIdentifier" decodeString
      let participantContext ← requiredField fields "participantContext" decodeString
      let scopes ← requiredField fields "scopes" decodeStringSet
      let audiences ← defaultedField fields "audiences" decodeStringSet ∅
      some { clientIdentifier, participantContext, scopes, audiences }
  | .array (c :: x :: s :: rest) => do
      let clientIdentifier ← decodeString c
      let participantContext ← decodeString x
      let scopes ← decodeStringSet s
      let audiences ← match rest with
        | [] => some ∅
        | [a] => decodeStringSet a
        | _ => none
      some { clientIdentifier, participantContext, scopes, audiences }
  | _ => none

/-- The derived `Deserialize` of `ScopeMapping`: from an object, or from a sequence of the
two fields. -/
def ScopeMapping.deserialize : Json → Option ScopeMapping
  | .object fields => do
      let scope ← requiredField fields "scope" decodeString
      let claims ← requiredField fields "claims" decodeMap
      some { scope, claims }
  | .array [s, c] => do
      let scope ← decodeString s
      let claims ← decodeMap c
      some { scope, claims }
  | _ => none

/-- `OneOrMany`: a single record or an array of records, without anything in the body that
says which. -/
inductive OneOrMany (A : Type) where
  | one (item : A)
  | many (items : List A)

/-- `into_vec`: a single record is a batch of one. -/
def OneOrMany.intoVec {A : Type} : OneOrMany A → List A
  | .one item => [item]
  | .many items => items

/-- The variants are tried in order: a pair of a string and an object is one scope
mapping, not two. -/
def OneOrMany.deserialize {A : Type} (decode : Json → Option A) (body : Json) :
    Option (OneOrMany A) :=
  match decode body with
  | some item => some (.one item)
  | none =>
      match body with
      | .array items => (items.mapM decode).map .many
      | _ => none

/-- `Json` of a record with `arity` fields.  The deserializer takes that many items
of a sequence and returns; what the parser then finds before the closing bracket
are trailing characters, an error of syntax. -/
def readRecord {A : Type} (arity : Nat) (deserialize : Json → Option A) (json : Json) :
    Except JsonRejection A :=
  match deserialize json with
  | some record => .ok record
  | none =>
      match json with
      | .array items =>
          if (deserialize (.array (items.take arity))).isSome then .error .syntaxError
          else .error .dataError
      | _ => .error .dataError

/-- `Json<ResourceMapping>`, a record with four fields. -/
def ResourceMapping.readBody : Json → Except JsonRejection ResourceMapping :=
  readRecord 4 ResourceMapping.deserialize

/-- `Json<ScopeMapping>`, a record with two fields. -/
def ScopeMapping.readBody : Json → Except JsonRejection ScopeMapping :=
  readRecord 2 ScopeMapping.deserialize

/-- `Json<OneOrMany<ScopeMapping>>`: the body is read as a value first and the
variants are tried on that, so that the text is no longer at fault. -/
def OneOrMany.readBody (json : Json) : Except JsonRejection (OneOrMany ScopeMapping) :=
  match OneOrMany.deserialize ScopeMapping.deserialize json with
  | some payload => .ok payload
  | none => .error .dataError

/-- The arity has a say in the refusal only: what is read is what the deserializer
finds. -/
theorem readRecord_eq_ok_iff {A : Type} {arity : Nat} {deserialize : Json → Option A}
    {json : Json} {record : A} :
    readRecord arity deserialize json = .ok record ↔ deserialize json = some record := by
  unfold readRecord
  split
  · next record' hrecord => simp [hrecord]
  · next hnone =>
    rw [hnone]
    split
    · split <;> simp
    · simp

/-- A body is read as what the untagged deserializer finds in it. -/
theorem OneOrMany.readBody_eq_ok_iff {json : Json} {payload : OneOrMany ScopeMapping} :
    OneOrMany.readBody json = .ok payload ↔
      OneOrMany.deserialize ScopeMapping.deserialize json = some payload := by
  unfold OneOrMany.readBody
  split
  · next payload' hpayload => simp [hpayload]
  · next hnone => simp [hnone]

end Jwtlet
