import Jwtlet.BatchCreation
import Jwtlet.ManagementSteps
import Jwtlet.PolicyValidity

/-!
# Exporting a policy and importing it elsewhere

What `GET /scopes` and `GET /mappings` list can be posted to an empty instance.
The derived serializers write the shapes that the deserializers read, an array of
objects is never taken for a single record, and a listing of valid records with
distinct keys is accepted by an empty store, the resource mappings in any order.
-/

namespace Jwtlet

open Rust

/-- The derived `Serialize` of `ResourceMapping`.  The two sets are written in the order
in which they happen to be iterated, which `order` stands for. -/
def ResourceMapping.serialize (order : SetOrder) (m : ResourceMapping) : Json :=
  .object
    [("clientIdentifier", .string m.clientIdentifier),
      ("participantContext", .string m.participantContext),
      ("scopes", .array ((order m.scopes).map .string)),
      ("audiences", .array ((order m.audiences).map .string))]

/-- The derived `Serialize` of `ScopeMapping`.  The claims are a map and are written as an
object of the same fields. -/
def ScopeMapping.serialize (m : ScopeMapping) : Json :=
  .object [("scope", .string m.scope), ("claims", Json.ofMap m.claims)]

/-- A value that `serde_json::Value` can hold: its objects are maps, and repeat no field.
Its numbers are well formed by their type. -/
def Json.IsValue (j : Json) : Prop := j.canonical = j

/-- The claims are values, as they are for every scope mapping that the program holds,
since a claim is a `serde_json::Value` there. -/
def ScopeMapping.HoldsValues (m : ScopeMapping) : Prop :=
  ∀ (k : String) (v : Json), m.claims[k]? = some v → v.IsValue

/-- Reading an array of written elements gives the elements back, when reading a written
element does. -/
theorem mapM_decode_map {A B : Type} {encode : A → B} {decode : B → Option A} {l : List A}
    (h : ∀ a ∈ l, decode (encode a) = some a) : (l.map encode).mapM decode = some l := by
  induction l with
  | nil => rfl
  | cons a l ih =>
      rw [List.map_cons, List.mapM_cons, h a List.mem_cons_self,
        ih fun b hb => h b (List.mem_cons_of_mem _ hb)]
      rfl

/-- A set written in any order is read back as the same set. -/
theorem decodeStringSet_array {order : SetOrder} (horder : order.Lawful) (s : HashSet String) :
    decodeStringSet (.array ((order s).map .string)) = some s := by
  have hset : (Std.ExtTreeSet.ofList (order s) compare : HashSet String) = s := by
    apply Std.ExtTreeSet.ext_mem
    intro a
    rw [mem_ofList, (horder s).mem_iff, Std.ExtTreeSet.mem_toList]
  have hread : ((order s).map Json.string).mapM decodeString = some (order s) :=
    mapM_decode_map fun a _ => rfl
  rw [decodeStringSet, hread, Option.map_some, hset]

/-- Fields that hold values are kept as they are when a field list is made a map. -/
theorem canonicalFields_of_values {l : List (String × Json)} (h : ∀ f ∈ l, f.2.IsValue) :
    Json.canonicalFields l = l := by
  induction l with
  | nil => rfl
  | cons f l ih =>
      obtain ⟨k, j⟩ := f
      have hj : j.canonical = j := h (k, j) List.mem_cons_self
      rw [Json.canonicalFields, Json.canonicalField, hj,
        ih fun f hf => h f (List.mem_cons_of_mem _ hf)]

/-- A map of claims written as an object is read back as the same map. -/
theorem decodeMap_ofMap {claims : Map}
    (h : ∀ (k : String) (v : Json), claims[k]? = some v → v.IsValue) :
    decodeMap (Json.ofMap claims) = some claims := by
  have hfields : Json.canonicalFields claims.toList = claims.toList := by
    apply canonicalFields_of_values
    intro f hf
    exact h f.1 f.2 (mem_toList_iff.mp hf)
  rw [Json.ofMap, decodeMap, hfields, ofList_toList]

/-- A resource mapping is read back as it was written, in whatever order its scopes and
its audiences stood. -/
theorem deserialize_resourceMapping {order : SetOrder} (horder : order.Lawful)
    (m : ResourceMapping) : ResourceMapping.deserialize (m.serialize order) = some m := by
  simp [ResourceMapping.serialize, ResourceMapping.deserialize, requiredField, defaultedField,
    singleField, decodeString, decodeStringSet_array horder]

/-- A scope mapping is read back as it was written, provided that its claims are values.
-/
theorem deserialize_scopeMapping {m : ScopeMapping} (h : m.HoldsValues) :
    ScopeMapping.deserialize m.serialize = some m := by
  simp [ScopeMapping.serialize, ScopeMapping.deserialize, requiredField, singleField,
    decodeString, decodeMap_ofMap h]

/-- An array of written scope mappings is read as many, whatever its length: a single
record in sequence form would start with a string, and these elements are objects. -/
theorem deserialize_oneOrMany {l : List ScopeMapping} (h : ∀ m ∈ l, m.HoldsValues) :
    OneOrMany.deserialize ScopeMapping.deserialize (.array (l.map ScopeMapping.serialize)) =
      some (.many l) := by
  have hone : ScopeMapping.deserialize (.array (l.map ScopeMapping.serialize)) = none := by
    match l with
    | [] => rfl
    | [m] => rfl
    | [m, m'] => rfl
    | m :: m' :: m'' :: l => rfl
  rw [OneOrMany.deserialize, hone]
  simp only [mapM_decode_map fun m hm => deserialize_scopeMapping (h m hm), Option.map_some]

/-- The scope mappings that a call carries, which are all that it could add to the scope
table. -/
def ServiceOp.scopeRecords : ServiceOp → List ScopeMapping
  | .saveScopeMappings ms => ms
  | .updateScopeMapping m => [m]
  | .verify _ _ _ | .save _ | .update _ | .remove _ _ | .removeFor _ | .deleteScopeMapping _
  | .listMappings | .listScopeMappings => []

/-- The write that the service makes of a call carries the scope mappings of the call. -/
theorem scopeRecords_of_accepted {op : ServiceOp} {w : StoreWrite} (h : op.accepted = some w) :
    w.scopeRecords = op.scopeRecords := by
  cases op with
  | save m => obtain ⟨-, rfl⟩ := passOn_eq_some_iff.mp h; rfl
  | update m => obtain ⟨-, rfl⟩ := passOn_eq_some_iff.mp h; rfl
  | saveScopeMappings ms => obtain ⟨-, rfl⟩ := passOn_eq_some_iff.mp h; rfl
  | updateScopeMapping m => obtain ⟨-, rfl⟩ := passOn_eq_some_iff.mp h; rfl
  | remove c x => cases h; rfl
  | removeFor c => cases h; rfl
  | deleteScopeMapping s => cases h; rfl
  | verify c x scopes => cases h
  | listMappings => cases h
  | listScopeMappings => cases h

/-- If all claims that calls carry are values, all stored claims are.  The induction is
over the run, with the policy of the store as the invariant's subject. -/
theorem reachable_holdsValues {σ : Type} [PolicyStore σ] {ops : List ServiceOp}
    (hops : ∀ op ∈ ops, ∀ m ∈ op.scopeRecords, m.HoldsValues) :
    ∀ s m, (PolicyStore.policy (Machine.after ServiceOp.perform (PolicyStore.empty : σ) ops)).scope
      s = some m → m.HoldsValues := by
  refine @Machine.after_invariant_along σ ServiceOp ServiceAnswer ServiceOp.perform
    (fun store => ∀ s m, (PolicyStore.policy store).scope s = some m → m.HoldsValues) _ ?_ _ ?_ _
    (Machine.along_of_forall hops PolicyStore.empty)
  · intro store op hop hstore s m hm
    rw [perform_policy] at hm
    cases haccepted : op.accepted with
    | none =>
        rw [haccepted] at hm
        exact hstore s m hm
    | some w =>
        rw [haccepted] at hm
        rcases Policy.write_scope_origin hm with hold | hnew
        · exact hstore s m hold
        · rw [scopeRecords_of_accepted haccepted] at hnew
          exact hop m hnew
  · intro s m hm
    rw [PolicyStore.policy_empty] at hm
    cases hm

/-- A `GET` of a listing.  There is no body, so no `Content-Type` either, and the JSON
extractor would refuse it; neither listing asks for one. -/
def getRequest (path : String) (authorization : Option (List UInt8)) : Request :=
  { method := .get, path, authorization, body := .error .missingJsonContentType }

/-- A `POST` of a record or an array of records, whose body the extractor has parsed. -/
def postRequest (path : String) (authorization : Option (List UInt8)) (body : Json) : Request :=
  { method := .post, path, authorization, body := .ok body }

/-- The credential is that of a caller with all three roles: every layer lets it through,
under one and the same name. -/
def Operator (state : ManagementState) (authorization : Option (List UInt8)) (actor : String) :
    Prop :=
  ∀ role ∈ [roleManagementRead, roleMappingsWrite, roleScopesWrite], ∀ request : Request,
    request.authorization = authorization → authorizeWithRole state role request = .ok actor

section Requests

variable {σ : Type} [ResourceStore σ] {state : ManagementState}
  {authorization : Option (List UInt8)} {actor : String}

/-- A request of an operator for an endpoint without parameters runs its handler.  What is
left of the request is its body and its method. -/
theorem handleRequest_operator (hop : Operator state authorization actor) (store : σ)
    {request : Request} {e : GuardedEndpoint} (hdispatch : dispatch request = .endpoint e [])
    (hrole : e.requiredRole ∈ [roleManagementRead, roleMappingsWrite, roleScopesWrite])
    (hauth : request.authorization = authorization) :
    handleRequest state store request =
      (e.endpoint.handler.run store actor { params := [], body := request.body }).forMethod
        request.method := by
  simp [handleRequest, hdispatch, hop e.requiredRole hrole request hauth]

end Requests

/-- The routes of a listing: `GET` reads it and `POST` adds to it.  Reading and adding are
behind different roles although they share a path. -/
theorem dispatch_listing (request : Request) :
    (request.path = "/scopes" → request.method = .get → dispatch request = .endpoint
      ⟨⟨[.static "scopes"], .get, .listScopeMappings⟩, roleManagementRead⟩ []) ∧
    (request.path = "/mappings" → request.method = .get → dispatch request = .endpoint
      ⟨⟨[.static "mappings"], .get, .listMappings⟩, roleManagementRead⟩ []) ∧
    (request.path = "/scopes" → request.method = .post → dispatch request = .endpoint
      ⟨⟨[.static "scopes"], .post, .createScopeMapping⟩, roleScopesWrite⟩ []) ∧
    (request.path = "/mappings" → request.method = .post → dispatch request = .endpoint
      ⟨⟨[.static "mappings"], .post, .createMapping⟩, roleMappingsWrite⟩ []) := by
  have hscopes : pathSegments "/scopes" = some ["scopes"] := by decide +kernel
  have hmappings : pathSegments "/mappings" = some ["mappings"] := by decide +kernel
  refine ⟨?_, ?_, ?_, ?_⟩ <;> intro hpath hmethod <;>
    simp [dispatch, managementRoutes, routeLayer, readRouter, mappingsWriteRouter,
      scopesWriteRouter, Endpoint.serves, Endpoint.matchPath, matchPattern, hpath, hmethod,
      hscopes, hmappings]

/-- A listing of records by their own keys finds the record of every key.  This is how a
list that stands in any order is compared with a table. -/
theorem find?_listing {K A : Type} [BEq K] [LawfulBEq K] {f : K → Option A} {key : A → K}
    (hkey : ∀ k a, f k = some a → key a = k) {l : List A}
    (hmem : ∀ a, a ∈ l ↔ f (key a) = some a) (k : K) : (l.find? fun a => key a == k) = f k := by
  cases hfind : l.find? fun a => key a == k with
  | some a =>
      have hk : key a = k := by simpa using List.find?_some hfind
      rw [← hk, (hmem a).mp (List.mem_of_find?_eq_some hfind)]
  | none =>
      cases hf : f k with
      | none => rfl
      | some a =>
          have hk := hkey k a hf
          have hin : a ∈ l := by rw [hmem, hk, hf]
          exact absurd (beq_iff_eq.mpr hk) (List.find?_eq_none.mp hfind a hin)

section Import

variable {τ : Type} [PolicyStore τ] {state : ManagementState}
  {authorization : Option (List UInt8)} {actor : String}
  (hop : Operator state authorization actor)

include hop

/-- Posting an array of valid scope mappings with free and distinct names is answered with
201 and adds them all. -/
theorem post_scopes (store : τ) {l : List ScopeMapping} (hvalues : ∀ m ∈ l, m.HoldsValues)
    (hvalid : ∀ m ∈ l, m.Valid) (hnodup : (l.map ScopeMapping.scope).Nodup)
    (hfree : ∀ m ∈ l, (PolicyStore.policy store).scope m.scope = none) :
    let posted := handleRequest state store
      (postRequest "/scopes" authorization (.array (l.map ScopeMapping.serialize)))
    posted.response = StatusCode.created.intoResponse ∧
      PolicyStore.policy posted.store = { PolicyStore.policy store with
        scope := Policy.addScopes (PolicyStore.policy store).scope l } := by
  have hrun : handleRequest state store
      (postRequest "/scopes" authorization (.array (l.map ScopeMapping.serialize))) =
        Management.createScopeMapping store actor (.many l) := by
    rw [handleRequest_operator hop store ((dispatch_listing _).2.2.1 rfl rfl) (by simp) rfl]
    have hread := OneOrMany.readBody_eq_ok_iff.mpr (deserialize_oneOrMany hvalues)
    simp only [Handler.run, postRequest, Management.withJson, Except.bind, hread]
    rfl
  rw [hrun]
  rcases saveScopeMappings_cases store hvalid with ⟨s, hfirst, -, -⟩ | ⟨-, hanswer, hpolicy⟩
  · rw [firstTaken_scope_eq_none_iff.mpr ⟨hnodup, hfree⟩] at hfirst
    cases hfirst
  · simp only [Management.createScopeMapping, OneOrMany.intoVec, Management.finish, hanswer]
    exact ⟨trivial, hpolicy⟩

/-- Posting a valid resource mapping with a free key is answered with 201 and adds the
mapping. -/
theorem post_mapping (store : τ) {order : SetOrder} (horder : order.Lawful) {m : ResourceMapping}
    (hvalid : m.Valid) (hfree : (PolicyStore.policy store).mapping m.key = none) :
    let posted := handleRequest state store
      (postRequest "/mappings" authorization (m.serialize order))
    posted.response = StatusCode.created.intoResponse ∧
      PolicyStore.policy posted.store = { PolicyStore.policy store with
        mapping := Function.update (PolicyStore.policy store).mapping m.key (some m) } := by
  have hrun : handleRequest state store
      (postRequest "/mappings" authorization (m.serialize order)) =
        Management.createMapping store actor m := by
    rw [handleRequest_operator hop store ((dispatch_listing _).2.2.2 rfl rfl) (by simp) rfl]
    have hread : ResourceMapping.readBody (m.serialize order) = .ok m :=
      readRecord_eq_ok_iff.mpr (deserialize_resourceMapping horder m)
    simp only [Handler.run, postRequest, Management.withJson, Except.bind, hread]
    rfl
  have hsave : ResourceService.save store m = ResourceStore.write store (.saveMapping m) := by
    rw [ResourceService.save, validateResourceMapping_eq_ok_iff.mpr hvalid]
    rfl
  have hwrite : (PolicyStore.policy store).write (.saveMapping m) =
      (.ok (), { PolicyStore.policy store with
        mapping := Function.update (PolicyStore.policy store).mapping m.key (some m) }) := by
    simp [Policy.write, hfree]
  have hanswer : (ResourceService.save store m).1 = .ok () := by
    rw [hsave, PolicyStore.write_answer, hwrite]
  rw [hrun, Management.createMapping]
  simp only [Management.finish, hanswer]
  refine ⟨trivial, ?_⟩
  rw [hsave, PolicyStore.write_policy, hwrite]

/-- Posting valid resource mappings with free and distinct keys one by one adds them all.
Each request finds the keys of the later ones still free. -/
theorem post_mappings {order : SetOrder} (horder : order.Lawful) {l : List ResourceMapping}
    (hvalid : ∀ m ∈ l, m.Valid) (hnodup : (l.map ResourceMapping.key).Nodup) (store : τ)
    (hfree : ∀ m ∈ l, (PolicyStore.policy store).mapping m.key = none) :
    let posts := l.map fun m => postRequest "/mappings" authorization (m.serialize order)
    (∀ e ∈ Machine.history state.step store posts,
      e.2.1 = StatusCode.created.intoResponse) ∧
    PolicyStore.policy (Machine.after state.step store posts) = { PolicyStore.policy store with
      mapping := fun k => (l.find? fun m => m.key == k).or
        ((PolicyStore.policy store).mapping k) } := by
  induction l generalizing store with
  | nil => exact ⟨by simp, by simp⟩
  | cons m l ih =>
      rw [List.forall_mem_cons] at hvalid hfree
      rw [List.map_cons, List.nodup_cons] at hnodup
      obtain ⟨hcreated, hpolicy⟩ := post_mapping hop store horder hvalid.1 hfree.1
      have hstep : ∀ m' ∈ l, (PolicyStore.policy (handleRequest state store
          (postRequest "/mappings" authorization (m.serialize order))).store).mapping m'.key =
            none := by
        intro m' hm'
        have hne : m'.key ≠ m.key := by
          intro heq
          exact hnodup.1 (heq ▸ List.mem_map_of_mem hm')
        rw [hpolicy]
        simp [hne, hfree.2 m' hm']
      obtain ⟨hrest, hend⟩ := ih hvalid.2 hnodup.2 _ hstep
      refine ⟨?_, ?_⟩
      · intro e he
        rcases List.mem_cons.mp he with rfl | he
        · exact hcreated
        · exact hrest e he
      · refine hend.trans ?_
        rw [hpolicy]
        simp only [Policy.mk.injEq, and_true]
        funext k
        by_cases hk : m.key = k
        · have hnone : (l.find? fun m' => m'.key == k) = none := by
            rw [List.find?_eq_none]
            intro m' hm' heq
            rw [beq_iff_eq, ← hk] at heq
            exact hnodup.1 (heq ▸ List.mem_map_of_mem hm')
          simp [hk, hnone]
        · simp [hk, Ne.symm hk]

/-- Posting all scope mappings of a valid policy to an empty instance recreates its scope
table and nothing else.  The list may stand in any order. -/
theorem post_all_scopes {p : Policy} (hp : p.Valid)
    (hvalues : ∀ s m, p.scope s = some m → m.HoldsValues) {l : List ScopeMapping}
    (hnodup : (l.map ScopeMapping.scope).Nodup) (hmem : ∀ m, m ∈ l ↔ p.scope m.scope = some m) :
    let posted := handleRequest state (PolicyStore.empty : τ)
      (postRequest "/scopes" authorization (.array (l.map ScopeMapping.serialize)))
    posted.response = StatusCode.created.intoResponse ∧
      PolicyStore.policy posted.store = { mapping := fun _ => none, scope := p.scope } := by
  obtain ⟨hcreated, hafter⟩ := post_scopes hop (PolicyStore.empty : τ)
    (fun m hm => hvalues m.scope m ((hmem m).mp hm))
    (fun m hm => hp.scope m.scope m ((hmem m).mp hm)) hnodup
    (fun m _ => by rw [PolicyStore.policy_empty]; rfl)
  refine ⟨hcreated, hafter.trans (Policy.ext ?_ ?_)⟩
  · rw [PolicyStore.policy_empty]
    rfl
  · funext s
    rw [PolicyStore.policy_empty]
    refine (Policy.addScopes_apply hnodup _ s).trans ?_
    rw [find?_listing hp.keyed.scope hmem s]
    cases p.scope s <;> rfl

/-- Posting all resource mappings of a valid policy one by one to an instance without any
completes the policy, whatever order they are posted in. -/
theorem post_all_mappings {p : Policy} (hp : p.Valid) {order : SetOrder} (horder : order.Lawful)
    {l : List ResourceMapping} (hnodup : (l.map ResourceMapping.key).Nodup)
    (hmem : ∀ m, m ∈ l ↔ p.mapping m.key = some m) {store : τ}
    (hstore : PolicyStore.policy store = { mapping := fun _ => none, scope := p.scope }) :
    let posts := l.map fun m => postRequest "/mappings" authorization (m.serialize order)
    (∀ e ∈ Machine.history state.step store posts,
      e.2.1 = StatusCode.created.intoResponse) ∧
    PolicyStore.policy (Machine.after state.step store posts) = p := by
  obtain ⟨hposted, hend⟩ := post_mappings hop horder
    (fun m hm => hp.mapping m.key m ((hmem m).mp hm)) hnodup store
    (fun m _ => by rw [hstore])
  refine ⟨hposted, hend.trans (Policy.ext ?_ ?_)⟩
  · funext k
    simp only [hstore, Option.or_none]
    exact find?_listing hp.keyed.mapping hmem k
  · rw [hstore]

end Import

/-- **An exported policy can be imported.**  Take any state that the service
reaches from empty, with claims that are values.  An operator lists its scope
mappings and its resource mappings.  The list of scope mappings, in whatever
order, posted as one array to an empty instance is accepted and recreates the
scope table, and the resource mappings posted then one by one, in any order, are
accepted and recreate the other table.  Both instances then verify every request
alike. -/
theorem exported_policy_imports {σ τ : Type} [PolicyStore σ] [PolicyStore τ]
    (ops : List ServiceOp) (state state' : ManagementState)
    (authorization authorization' : Option (List UInt8)) (actor actor' : String)
    (order : SetOrder) (hops : ∀ op ∈ ops, ∀ m ∈ op.scopeRecords, m.HoldsValues)
    (hop : Operator state authorization actor) (hop' : Operator state' authorization' actor')
    (horder : order.Lawful) :
    let source := Machine.after ServiceOp.perform (PolicyStore.empty : σ) ops
    ∃ scopes mappings,
      (handleRequest state source (getRequest "/scopes" authorization)).response =
        { status := .ok, body := .scopeMappings scopes } ∧
      (handleRequest state source (getRequest "/mappings" authorization)).response =
        { status := .ok, body := .mappings mappings } ∧
      ∀ (scopes' : List ScopeMapping) (mappings' : List ResourceMapping),
        scopes'.Perm scopes → mappings'.Perm mappings →
        let created := handleRequest state' (PolicyStore.empty : τ)
          (postRequest "/scopes" authorization' (.array (scopes'.map ScopeMapping.serialize)))
        let posts := mappings'.map fun m =>
          postRequest "/mappings" authorization' (m.serialize order)
        let target := Machine.after state'.step created.store posts
        created.response = StatusCode.created.intoResponse ∧
        (PolicyStore.policy created.store).scope = (PolicyStore.policy source).scope ∧
        (∀ e ∈ Machine.history state'.step created.store posts,
          e.2.1 = StatusCode.created.intoResponse) ∧
        PolicyStore.policy target = PolicyStore.policy source ∧
        ∀ c x requested, ResourceService.verify target c x requested =
          ResourceService.verify source c x requested := by
  intro source
  have hvalid : (PolicyStore.policy source).Valid := reachable_valid ops
  have hvalues := @reachable_holdsValues σ _ ops hops
  obtain ⟨scopes, hscopes, hscopeKeys, hscopeMem⟩ := listScopeMappings_keys hvalid.keyed
  obtain ⟨mappings, hmappings, hmappingKeys, hmappingMem⟩ := listMappings_keys hvalid.keyed
  refine ⟨scopes, mappings, ?_, ?_, ?_⟩
  · rw [handleRequest_operator hop source ((dispatch_listing _).1 rfl rfl) (by simp) rfl]
    simp only [Handler.run, Management.listScopeMappings, ResourceService.listScopeMappings,
      hscopes]
    rfl
  · rw [handleRequest_operator hop source ((dispatch_listing _).2.1 rfl rfl) (by simp) rfl]
    simp only [Handler.run, Management.listMappings, ResourceService.listMappings, hmappings]
    rfl
  intro scopes' mappings' hscopePerm hmappingPerm created posts target
  have hscopeMem' : ∀ m, m ∈ scopes' ↔ (PolicyStore.policy source).scope m.scope = some m :=
    fun m => hscopePerm.mem_iff.trans (hscopeMem m)
  have hmappingMem' : ∀ m, m ∈ mappings' ↔ (PolicyStore.policy source).mapping m.key = some m :=
    fun m => hmappingPerm.mem_iff.trans (hmappingMem m)
  obtain ⟨hcreated, hafter⟩ := @post_all_scopes τ _ _ _ _ hop' _ hvalid hvalues _
    ((hscopePerm.map _).nodup_iff.mpr hscopeKeys) hscopeMem'
  obtain ⟨hposted, hpolicy⟩ := post_all_mappings hop' hvalid horder
    ((hmappingPerm.map _).nodup_iff.mpr hmappingKeys) hmappingMem' hafter
  refine ⟨hcreated, by rw [hafter], hposted, hpolicy, ?_⟩
  intro c x requested
  exact ResourceService.verify_congr (by rw [hpolicy]) fun s _ => by rw [hpolicy]

/-- An account with all roles, and a verifier that takes one token for it, under which the
export below is run. -/
def operatorState : ManagementState :=
  accountState
    (.fromAccounts [{ clientId := "operator"
                      roles := Std.ExtTreeSet.ofList
                        [roleManagementRead, roleMappingsWrite, roleScopesWrite] compare }])
    (fun _ token =>
      if token = "secret" then .ok { sampleClient with sub := "operator" }
      else .error .invalidSignature)
    "jwtlet-management" some

/-- `Bearer secret`, in bytes, as the header of every request of the export and the import
below. -/
def operatorHeader : List UInt8 := "Bearer secret".toList.map fun c => c.toNat.toUInt8

theorem operator_operatorState : Operator operatorState (some operatorHeader) "operator" := by
  intro role hrole request hauth
  rw [authorizeWithRole, hauth]
  have htoken : extractBearerToken (some operatorHeader) = some "secret" := by decide +kernel
  rw [htoken]
  simp only [List.mem_cons, List.not_mem_nil, or_false] at hrole
  rcases hrole with rfl | rfl | rfl <;> rfl

/-- The scope `read` stands for a role, and adds nothing else to a token. -/
def readerMapping : ScopeMapping where
  scope := "read"
  claims := Std.ExtTreeMap.ofList [("role", .string "reader")] compare

/-- One scope and one client that may use it, written through the service. -/
def readerOps : List ServiceOp :=
  [.saveScopeMappings [readerMapping],
    .save { clientIdentifier := "client", participantContext := "ctx"
            scopes := Std.ExtTreeSet.ofList ["read"] compare, audiences := ∅ }]

/-- The scope listed by a memory store is accepted by an empty Postgres store, where it
then stands under its name as it stood in the first. -/
theorem exported_policy_imports_reader :
    let source : InnerStore := Machine.after ServiceOp.perform MemoryResourceStore.new readerOps
    let created := handleRequest operatorState PostgresResourceStore.initialized
      (postRequest "/scopes" (some operatorHeader) (.array [readerMapping.serialize]))
    (handleRequest operatorState source (getRequest "/scopes" (some operatorHeader))).response =
      { status := .ok, body := .scopeMappings [readerMapping] } ∧
    created.response = StatusCode.created.intoResponse ∧
    (PolicyStore.policy created.store).scope "read" = some readerMapping := by
  have hvalues : ∀ op ∈ readerOps, ∀ m ∈ op.scopeRecords, m.HoldsValues := by
    intro op hop m hm k v hv
    simp only [readerOps, List.mem_cons, List.not_mem_nil, or_false] at hop
    rcases hop with rfl | rfl
    · cases List.mem_singleton.mp hm
      rw [readerMapping, getElem?_ofList (by simp)] at hv
      cases List.mem_singleton.mp hv
      rfl
    · cases hm
  obtain ⟨scopes, mappings, hget, -, himport⟩ := @exported_policy_imports InnerStore Database _ _
    readerOps operatorState operatorState (some operatorHeader) (some operatorHeader) "operator"
    "operator" (fun s => s.toList) hvalues operator_operatorState operator_operatorState
    fun s => List.Perm.refl s.toList
  have hlisted : (handleRequest operatorState
      (Machine.after ServiceOp.perform MemoryResourceStore.new readerOps)
      (getRequest "/scopes" (some operatorHeader))).response =
        { status := .ok, body := .scopeMappings [readerMapping] } := by decide +kernel
  have hscopes : scopes = [readerMapping] := by
    have hsame := hget.symm.trans hlisted
    injection hsame with _ hbody
    injection hbody
  subst hscopes
  obtain ⟨hcreated, htable, -⟩ := himport [readerMapping] mappings (List.Perm.refl _)
    (List.Perm.refl _)
  refine ⟨hlisted, hcreated, (congrFun htable "read").trans ?_⟩
  decide +kernel

end Jwtlet
