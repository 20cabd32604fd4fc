import Jwtlet.ExchangeApi

/-!
# The form of the token endpoint

`Form<TokenExchangeForm>` of `jwtlet-server/src/exchange/mod.rs`: what the derived
`Deserialize` makes of the decoded name-value pairs of a body.  The pairs are
visited in order; a name that is no field is skipped, a field that comes a second
time is an error, and at the end the required fields must all be there.

`deserialize_eq_some_iff` says what the visitor does without its order: a body is
a form exactly when each field has the values it should have.
-/

namespace Jwtlet

/-- The fields of `TokenExchangeForm`, in the order in which the struct has them. -/
inductive FormField where
  | grantType
  | subjectToken
  | subjectTokenType
  | resource
  | scope
  | audience
  deriving DecidableEq

namespace FormField

/-- The field of a name, by the names in the `Deserialize` of the struct.  Names are
compared as they are, with their case. -/
def ofName (name : String) : Option FormField :=
  if name = "grant_type" then some .grantType
  else if name = "subject_token" then some .subjectToken
  else if name = "subject_token_type" then some .subjectTokenType
  else if name = "resource" then some .resource
  else if name = "scope" then some .scope
  else if name = "audience" then some .audience
  else none

/-- The fields without `#[serde(default)]`, which a body must have. -/
def required : FormField → Bool
  | .grantType | .subjectToken | .subjectTokenType | .resource => true
  | .scope | .audience => false

/-- The values that a body has for a field, in the order of the body. -/
def values (field : FormField) (pairs : List (String × String)) : List String :=
  (pairs.filter fun pair => ofName pair.1 = some field).map Prod.snd

end FormField

/-- Why the `Form` extractor refuses a body before it is deserialized: its content type,
its length, or a connection that broke off. -/
inductive FormRejection where
  | invalidFormContentType
  | tooLarge
  | failedToBuffer
  deriving DecidableEq

/-- The status that each of these refusals is answered with. -/
def FormRejection.status : FormRejection → StatusCode
  | .invalidFormContentType => .unsupportedMediaType
  | .tooLarge => .payloadTooLarge
  | .failedToBuffer => .badRequest

namespace TokenExchangeForm

/-- The fields read so far, each with its value if it has come already. -/
abbrev Slots := FormField → Option String

/-- Visit one pair.  A name that is no field is skipped, and a field that has come already
ends the visit with an error. -/
def visitPair (slots : Slots) (pair : String × String) : Option Slots :=
  match FormField.ofName pair.1 with
  | none => some slots
  | some field =>
      if (slots field).isSome then none
      else some (Function.update slots field (some pair.2))

/-- The form of the fields, if none that is required is missing. -/
def ofSlots (slots : Slots) : Option TokenExchangeForm := do
  let grantType ← slots .grantType
  let subjectToken ← slots .subjectToken
  let subjectTokenType ← slots .subjectTokenType
  let resource ← slots .resource
  return { grantType, subjectToken, subjectTokenType, resource
           scope := slots .scope, audience := slots .audience }

/-- The derived `Deserialize`: all pairs are visited, and then the required fields are
asked for. -/
def deserialize (pairs : List (String × String)) : Option TokenExchangeForm := do
  ofSlots (← pairs.foldlM visitPair fun _ => none)

/-- What the form has for a field.  A field that is not required may be absent. -/
def slots (form : TokenExchangeForm) : Slots
  | .grantType => some form.grantType
  | .subjectToken => some form.subjectToken
  | .subjectTokenType => some form.subjectTokenType
  | .resource => some form.resource
  | .scope => form.scope
  | .audience => form.audience

/-- The form of some fields is the one that has these fields, so nothing is added and
nothing is lost. -/
theorem ofSlots_eq_some_iff {slots : Slots} {form : TokenExchangeForm} :
    ofSlots slots = some form ↔ slots = form.slots := by
  constructor
  · intro h
    simp only [ofSlots, Option.pure_def, Option.bind_eq_bind, Option.bind_eq_some_iff,
      Option.some.injEq] at h
    obtain ⟨grantType, hg, subjectToken, hs, subjectTokenType, ht, resource, hr, rfl⟩ := h
    funext field
    cases field with
    | grantType => exact hg
    | subjectToken => exact hs
    | subjectTokenType => exact ht
    | resource => exact hr
    | scope => rfl
    | audience => rfl
  · intro h
    subst h
    rfl

private theorem toList_inj {o o' : Option String} : o.toList = o'.toList ↔ o = o' := by
  cases o <;> cases o' <;> simp

/-- One pair, field by field: the slot and the new value together are what the slot holds
afterwards.  This is no list of one element if the field has come before. -/
theorem visitPair_eq_some_iff {slots slots' : Slots} {pair : String × String} :
    visitPair slots pair = some slots' ↔
      ∀ field, (slots field).toList ++ field.values [pair] = (slots' field).toList := by
  rw [visitPair]
  cases hname : FormField.ofName pair.1 with
  | none =>
      have hnil : ∀ field : FormField, field.values [pair] = [] := by
        intro field
        simp [FormField.values, hname]
      simp only [hnil, List.append_nil, toList_inj, Option.some.injEq, funext_iff]
  | some known =>
      have hvalues : ∀ field : FormField,
          field.values [pair] = if field = known then [pair.2] else [] := by
        intro field
        by_cases hk : field = known
        · simp [FormField.values, hname, hk]
        · simp [FormField.values, hname, hk, Ne.symm hk]
      simp only [hvalues]
      cases hslot : slots known with
      | some v =>
          constructor
          · intro h
            cases h
          · intro h
            have hboth := h known
            cases hslot' : slots' known <;> simp [hslot, hslot'] at hboth
      | none =>
          simp only [Option.isSome_none, Bool.false_eq_true, if_false, Option.some.injEq,
            funext_iff, ← toList_inj]
          apply forall_congr'
          intro field
          by_cases hk : field = known
          · simp [hk, hslot]
          · simp [hk]

/-- The visit of a whole body, field by field.  The induction is over the pairs, each of
which adds to one field at most. -/
theorem foldlM_visitPair_eq_some_iff {slots slots' : Slots} {pairs : List (String × String)} :
    pairs.foldlM visitPair slots = some slots' ↔
      ∀ field, (slots field).toList ++ field.values pairs = (slots' field).toList := by
  induction pairs generalizing slots with
  | nil => simp [FormField.values, toList_inj, funext_iff]
  | cons pair pairs ih =>
      have hsplit : ∀ field : FormField,
          field.values (pair :: pairs) = field.values [pair] ++ field.values pairs := by
        intro field
        rw [← List.singleton_append, FormField.values, List.filter_append, List.map_append]
        rfl
      simp only [List.foldlM_cons, Option.bind_eq_bind, Option.bind_eq_some_iff, hsplit,
        ← List.append_assoc]
      constructor
      · intro h
        obtain ⟨mid, hmid, hrest⟩ := h
        intro field
        rw [visitPair_eq_some_iff.mp hmid field]
        exact ih.mp hrest field
      · intro h
        -- The slots after the first pair are forced: its value if it has one.
        have hfits : ∀ field, ∃ o : Option String,
            (slots field).toList ++ field.values [pair] = o.toList := by
          intro field
          have hlen := congrArg List.length (h field)
          rw [List.length_append] at hlen
          have hone : ((slots' field).toList).length ≤ 1 := by cases slots' field <;> simp
          match hl : (slots field).toList ++ field.values [pair] with
          | [] => exact ⟨none, rfl⟩
          | [v] => exact ⟨some v, rfl⟩
          | _ :: _ :: _ =>
              rw [hl, List.length_cons, List.length_cons] at hlen
              omega
        choose mid hmid using hfits
        refine ⟨mid, visitPair_eq_some_iff.mpr hmid, ih.mpr fun field => ?_⟩
        rw [← hmid field]
        exact h field

/-- **What a form is.**  A body is the form exactly when each field of the form
has its value there, once, and no other. -/
theorem deserialize_eq_some_iff {pairs : List (String × String)} {form : TokenExchangeForm} :
    deserialize pairs = some form ↔ ∀ field, field.values pairs = (form.slots field).toList := by
  simp only [deserialize, Option.bind_eq_bind, Option.bind_eq_some_iff, ofSlots_eq_some_iff,
    exists_eq_right, foldlM_visitPair_eq_some_iff, Option.toList_none, List.nil_append]

/-- **What is no form.**  A body is refused exactly when a required field is missing
or some field is there twice. -/
theorem deserialize_eq_none_iff {pairs : List (String × String)} :
    deserialize pairs = none ↔
      (∃ field : FormField, field.required = true ∧ field.values pairs = []) ∨
        ∃ field : FormField, 2 ≤ (field.values pairs).length := by
  constructor
  · intro h
    by_contra hno
    rw [not_or, not_exists, not_exists] at hno
    obtain ⟨hthere, hone⟩ := hno
    -- Each field has at most one value: those are the slots of a form.
    have hslot : ∀ field : FormField, field.values pairs = (field.values pairs).head?.toList := by
      intro field
      have hlen := hone field
      cases hvalues : field.values pairs with
      | nil => rfl
      | cons v rest =>
          rw [hvalues, List.length_cons] at hlen
          have hrest : rest = [] := List.length_eq_zero_iff.mp (by omega)
          rw [hrest]
          rfl
    have hvalue : ∀ field : FormField, field.required = true →
        ∃ v, (field.values pairs).head? = some v := by
      intro field hrequired
      cases hvalues : field.values pairs with
      | nil => exact absurd ⟨hrequired, hvalues⟩ (hthere field)
      | cons v rest => exact ⟨v, rfl⟩
    obtain ⟨grantType, hgrant⟩ := hvalue .grantType rfl
    obtain ⟨subjectToken, hsubject⟩ := hvalue .subjectToken rfl
    obtain ⟨subjectTokenType, htype⟩ := hvalue .subjectTokenType rfl
    obtain ⟨resource, hresource⟩ := hvalue .resource rfl
    have hform : deserialize pairs = some
        { grantType, subjectToken, subjectTokenType, resource
          scope := (FormField.values .scope pairs).head?
          audience := (FormField.values .audience pairs).head? } := by
      rw [deserialize_eq_some_iff]
      intro field
      rw [hslot field]
      cases field with
      | grantType => rw [hgrant]; rfl
      | subjectToken => rw [hsubject]; rfl
      | subjectTokenType => rw [htype]; rfl
      | resource => rw [hresource]; rfl
      | scope => rfl
      | audience => rfl
    rw [h] at hform
    cases hform
  · intro h
    cases hform : deserialize pairs with
    | none => rfl
    | some form =>
        rw [deserialize_eq_some_iff] at hform
        rcases h with ⟨field, hrequired, hnone⟩ | ⟨field, htwice⟩
        · rw [hform field] at hnone
          cases field with
          | scope => cases hrequired
          | audience => cases hrequired
          | _ => cases hnone
        · have hlen : ((form.slots field).toList).length ≤ 1 := by
            cases form.slots field <;> simp
          rw [hform field] at htwice
          omega

/-- The order of the pairs and the names that are no field do not matter. -/
theorem deserialize_congr {pairs pairs' : List (String × String)}
    (h : ∀ field : FormField, (field.values pairs').Perm (field.values pairs)) :
    deserialize pairs' = deserialize pairs := by
  cases hform : deserialize pairs with
  | none =>
      rw [deserialize_eq_none_iff] at hform ⊢
      rcases hform with ⟨field, hrequired, hnone⟩ | ⟨field, htwice⟩
      · refine Or.inl ⟨field, hrequired, ?_⟩
        have hperm := h field
        rw [hnone] at hperm
        exact hperm.eq_nil
      · refine Or.inr ⟨field, ?_⟩
        rw [(h field).length_eq]
        exact htwice
  | some form =>
      rw [deserialize_eq_some_iff] at hform ⊢
      intro field
      have hperm := h field
      rw [hform field] at hperm
      cases hslot : form.slots field with
      | none =>
          rw [hslot] at hperm
          exact hperm.eq_nil
      | some v =>
          rw [hslot] at hperm
          exact List.perm_singleton.mp hperm

end TokenExchangeForm

end Jwtlet
