import Jwtlet.PolicyExport
import Jwtlet.TokenProvenance

/-!
# Requests for operations

Every operation of the resource service that can be asked for over HTTP has a
request that asks for it: its keys travel percent-encoded as segments of the path,
its record as JSON in the body.  Routing, decoding and the check that path and body
agree give the operation back (`operation_of_request`), and no request asks for an
operation with an empty key in the path or with claims that are no values
(`requestable_of_operation`).
-/

namespace Jwtlet

open Rust Machine

/-- The path of the segments, each behind a slash.  What stands in a segment is up to the
caller, who encodes it first. -/
def pathOf (segments : List String) : String :=
  String.ofList (segments.flatMap fun segment => '/' :: segment.toList)

/-- Splitting what stands behind the first slash of a path gives the segments, when none
of them has a slash of its own. -/
theorem splitOnP_segments (segment : String) (segments : List String)
    (h : ∀ s ∈ segment :: segments, '/' ∉ s.toList) :
    (segment.toList ++ segments.flatMap fun s => '/' :: s.toList).splitOnP (fun c => c == '/') =
      (segment :: segments).map String.toList := by
  have hfree : ∀ s ∈ segment :: segments, ∀ c ∈ s.toList, (c == '/') = false := by
    intro s hs c hc
    rw [beq_eq_false_iff_ne]
    intro heq
    exact h s hs (heq ▸ hc)
  induction segments generalizing segment with
  | nil =>
      rw [List.flatMap_nil, List.append_nil]
      exact List.splitOnP_eq_singleton (hfree segment List.mem_cons_self)
  | cons s segments ih =>
      rw [List.forall_mem_cons] at h hfree
      rw [List.flatMap_cons, List.cons_append,
        List.splitOnP_append_cons_of_forall_mem hfree.1 '/' rfl, ih s h.2 hfree.2]
      rfl

/-- A path is split into the segments it is made of, also when some of them are empty. -/
theorem pathSegments_pathOf {segments : List String}
    (h : ∀ s ∈ segments, '/' ∉ s.toList) (hne : segments ≠ []) :
    pathSegments (pathOf segments) = some segments := by
  cases segments with
  | nil => exact absurd rfl hne
  | cons s segments =>
      have hsplit := splitOnP_segments "" (s :: segments)
        (by rw [List.forall_mem_cons]; exact ⟨by simp, h⟩)
      rw [String.toList_empty, List.nil_append] at hsplit
      rw [pathSegments, pathOf, String.toList_ofList, hsplit]
      simp

/-- The management API sees the path below `/api/v1`, with the segments that follow the
two of the prefix. -/
theorem nestedPath_pathOf (s : String) (segments : List String) :
    nestedPath (pathOf ("api" :: "v1" :: s :: segments)) = some (pathOf (s :: segments)) := by
  have hlist : (pathOf ("api" :: "v1" :: s :: segments)).toList =
      "/api/v1/".toList ++ (s.toList ++ segments.flatMap fun s => '/' :: s.toList) := by
    simp [pathOf]
  have hprefix : "/api/v1/".toList <+: (pathOf ("api" :: "v1" :: s :: segments)).toList := by
    rw [hlist]
    exact List.prefix_append _ _
  rw [nestedPath, if_pos hprefix, hlist]
  simp [pathOf]

/-- No path of the management API is that of the health check, which stands beside its
prefix. -/
theorem pathOf_api_ne_health (segments : List String) :
    pathOf ("api" :: segments) ≠ "/health" := by
  intro h
  have hlist := congrArg String.toList h
  simp [pathOf] at hlist

/-- Where a pattern is made of parameters, they are the segments of the path, and the last
of them is not empty.  The ones before it may be. -/
theorem matchPattern_params {pattern : List Segment} {segments params : List String}
    (hparams : ∀ part ∈ pattern, part = .param)
    (h : matchPattern pattern segments = some params) :
    params = segments ∧ ∀ p ∈ segments.getLast?, p ≠ "" := by
  induction pattern generalizing segments params with
  | nil =>
      cases segments with
      | nil => cases h; simp
      | cons s segments => cases h
  | cons part pattern ih =>
      have hpart : part = .param := hparams part List.mem_cons_self
      subst hpart
      cases segments with
      | nil => cases h
      | cons s segments =>
          simp only [matchPattern] at h
          split at h
          · cases h
          · next hne =>
            obtain ⟨rest, hrest, rfl⟩ := Option.map_eq_some_iff.mp h
            obtain ⟨rfl, hlast⟩ :=
              ih (fun part hpart => hparams part (List.mem_cons_of_mem _ hpart)) hrest
            refine ⟨rfl, fun p hp => ?_⟩
            cases rest with
            | nil =>
                have hps : s = p := by simpa using hp
                rw [← hps]
                simpa using hne
            | cons r rest =>
                rw [List.getLast?_cons_cons] at hp
                exact hlast p hp

/-- In every route the parameters stand together at the end of the path, behind the name
of the table. -/
theorem pattern_tail_params {e : GuardedEndpoint} (h : e ∈ managementRoutes) :
    ∃ table rest, e.endpoint.pattern = .static table :: rest ∧ ∀ part ∈ rest, part = .param := by
  have hshape : ∀ e ∈ managementRoutes, ∃ table,
      e.endpoint.pattern.head? = some (.static table) ∧
        ∀ part ∈ e.endpoint.pattern.tail, part = .param := by
    simp [managementRoutes, routeLayer, readRouter, mappingsWriteRouter, scopesWriteRouter]
  obtain ⟨table, hhead, htail⟩ := hshape e h
  exact ⟨table, e.endpoint.pattern.tail, List.eq_cons_of_mem_head? hhead, htail⟩

/-- What is in a map made of a list is in the list; an entry that a later one replaced is
not in the map. -/
theorem mem_of_getElem?_ofList {A : Type} {l : List (String × A)} {k : String} {a : A}
    (h : (Std.ExtTreeMap.ofList l compare : BTreeMap String A)[k]? = some a) : (k, a) ∈ l := by
  rw [Std.ExtTreeMap.ofList_eq_foldl] at h
  have hfold : ∀ m : BTreeMap String A,
      (l.foldl (fun m kv => m.insert kv.1 kv.2) m)[k]? = some a → (k, a) ∈ l ∨ m[k]? = some a := by
    clear h
    induction l with
    | nil => exact fun m h => Or.inr h
    | cons kv l ih =>
        intro m h
        rcases ih _ h with hmem | hinsert
        · exact Or.inl (List.mem_cons_of_mem _ hmem)
        · rw [Std.ExtTreeMap.getElem?_insert] at hinsert
          split at hinsert
          · next heq =>
            rw [compare_eq_iff_eq] at heq
            cases hinsert
            exact Or.inl (heq ▸ List.mem_cons_self)
          · exact Or.inr hinsert
  rcases hfold _ h with hmem | hempty
  · exact hmem
  · rw [Std.ExtTreeMap.getElem?_empty] at hempty
    cases hempty

-- A canonical value is a value: by recursion on the text it is made from.
mutual

/-- The canonical form of a value is a value, at every depth.  The four statements follow
the nesting of arrays and objects. -/
theorem isValue_canonical : (j : Json) → j.canonical.IsValue
  | .null | .bool _ | .number _ | .string _ => rfl
  | .array items => by
      rw [Json.canonical, Json.IsValue, Json.canonical, canonicalItems_of_values items]
  | .object fields => by
      have hfields : Json.canonicalFields
          (Std.ExtTreeMap.ofList (Json.canonicalFields fields) compare : Map).toList =
            (Std.ExtTreeMap.ofList (Json.canonicalFields fields) compare : Map).toList := by
        apply canonicalFields_of_values
        intro f hf
        exact isValue_canonicalFields fields f (mem_of_getElem?_ofList (mem_toList_iff.mp hf))
      rw [Json.canonical, Json.IsValue, Json.canonical, hfields, ofList_toList]
termination_by structural j => j

theorem canonicalItems_of_values : (items : List Json) →
    Json.canonicalItems (Json.canonicalItems items) = Json.canonicalItems items
  | [] => rfl
  | j :: l => by
      have hj : (j.canonical).canonical = j.canonical := isValue_canonical j
      rw [Json.canonicalItems, Json.canonicalItems, hj, canonicalItems_of_values l]
termination_by structural items => items

/-- The same of the fields of an object, each of which is made canonical by itself. -/
theorem isValue_canonicalFields : (fields : List (String × Json)) →
    ∀ f ∈ Json.canonicalFields fields, f.2.IsValue
  | [] => by simp [Json.canonicalFields]
  | f :: l => by
      rw [Json.canonicalFields, List.forall_mem_cons]
      exact ⟨isValue_canonicalField f, isValue_canonicalFields l⟩
termination_by structural fields => fields

theorem isValue_canonicalField : (f : String × Json) → (Json.canonicalField f).2.IsValue
  | (_, j) => isValue_canonical j
termination_by structural f => f

end

/-- A map that was read holds values, since the parser has made every object in it a map.
-/
theorem isValue_of_decodeMap {j : Json} {claims : Map} (h : decodeMap j = some claims) {k : String}
    {v : Json} (hv : claims[k]? = some v) : v.IsValue := by
  unfold decodeMap at h
  split at h
  · next fields =>
    cases h
    exact isValue_canonicalFields fields _ (mem_of_getElem?_ofList hv)
  · cases h

/-- A scope mapping that was read holds values, whether it was written as an object or as
a sequence. -/
theorem holdsValues_of_deserialize {j : Json} {m : ScopeMapping}
    (h : ScopeMapping.deserialize j = some m) : m.HoldsValues := by
  have hclaims : ∃ j', decodeMap j' = some m.claims := by
    unfold ScopeMapping.deserialize at h
    split at h
    · next fields =>
      simp only [Option.bind_eq_bind, Option.bind_eq_some_iff] at h
      obtain ⟨scope, -, claims, hclaims, hm⟩ := h
      cases hm
      simp only [requiredField, Option.bind_eq_bind, Option.bind_eq_some_iff] at hclaims
      obtain ⟨value, -, j', -, hj'⟩ := hclaims
      exact ⟨j', hj'⟩
    · next s c =>
      simp only [Option.bind_eq_bind, Option.bind_eq_some_iff] at h
      obtain ⟨scope, -, claims, hclaims, hm⟩ := h
      cases hm
      exact ⟨c, hclaims⟩
    · cases h
  obtain ⟨j', hj'⟩ := hclaims
  intro k v hv
  exact isValue_of_decodeMap hj' hv

/-- What was read as an element of a list was read from an element of the array. -/
theorem exists_of_mem_mapM {A B : Type} {decode : A → Option B} {items : List A} {l : List B}
    (h : items.mapM decode = some l) {b : B} (hb : b ∈ l) : ∃ a ∈ items, decode a = some b := by
  induction items generalizing l with
  | nil =>
      cases h
      cases hb
  | cons a items ih =>
      simp only [List.mapM_cons, Option.bind_eq_bind, Option.bind_eq_some_iff] at h
      obtain ⟨b', hb', rest, hrest, hl⟩ := h
      cases hl
      rcases List.mem_cons.mp hb with rfl | hb
      · exact ⟨a, List.mem_cons_self, hb'⟩
      · obtain ⟨a', ha', hdecode⟩ := ih hrest hb
        exact ⟨a', List.mem_cons_of_mem _ ha', hdecode⟩

/-- So do all scope mappings of a body, be it a single one or an array of them. -/
theorem holdsValues_of_oneOrMany {j : Json} {payload : OneOrMany ScopeMapping}
    (h : OneOrMany.deserialize ScopeMapping.deserialize j = some payload) :
    ∀ m ∈ payload.intoVec, m.HoldsValues := by
  intro m hm
  unfold OneOrMany.deserialize at h
  split at h
  · next item hitem =>
    cases h
    cases List.mem_singleton.mp hm
    exact holdsValues_of_deserialize hitem
  · split at h
    · obtain ⟨items, hitems, rfl⟩ := Option.map_eq_some_iff.mp h
      obtain ⟨j', -, hj'⟩ := exists_of_mem_mapM hitems hm
      exact holdsValues_of_deserialize hj'
    · cases h

namespace ServiceOp

/-- The keys that the path of an operation names, in the order of the route's parameters.
A creation names none, since its record is in the body. -/
def pathKeys : ServiceOp → List String
  | .update m => [m.clientIdentifier, m.participantContext]
  | .remove clientId context => [clientId, context]
  | .removeFor clientId => [clientId]
  | .updateScopeMapping m => [m.scope]
  | .deleteScopeMapping scope => [scope]
  | .verify _ _ _ | .save _ | .saveScopeMappings _ | .listMappings | .listScopeMappings => []

/-- The request for an operation, with sets written in some order; no route calls
`verify`.  An update says its keys twice, in the path and in the body. -/
def request (order : SetOrder) (authorization : Option (List UInt8)) (op : ServiceOp) :
    Option Request :=
  let path (table : String) := pathOf (table :: op.pathKeys.map Percent.encode)
  let noBody : Except JsonRejection Json := .error .missingJsonContentType
  match op with
  | .listMappings => some { method := .get, path := path "mappings", authorization, body := noBody }
  | .listScopeMappings =>
      some { method := .get, path := path "scopes", authorization, body := noBody }
  | .save m =>
      some { method := .post, path := path "mappings", authorization, body := .ok (m.serialize order) }
  | .update m =>
      some { method := .put, path := path "mappings", authorization, body := .ok (m.serialize order) }
  | .remove _ _ | .removeFor _ =>
      some { method := .delete, path := path "mappings", authorization, body := noBody }
  | .saveScopeMappings ms =>
      some { method := .post, path := path "scopes", authorization
             body := .ok (.array (ms.map ScopeMapping.serialize)) }
  | .updateScopeMapping m =>
      some { method := .put, path := path "scopes", authorization, body := .ok m.serialize }
  | .deleteScopeMapping _ =>
      some { method := .delete, path := path "scopes", authorization, body := noBody }
  | .verify _ _ _ => none

/-- What can be asked for: there is a route, the key at the end of the path is not
empty, and the claims in the body are values.  A client identifier in front of a
context may be empty, since a slash follows it. -/
structure Requestable (op : ServiceOp) : Prop where
  routed : ∀ c x scopes, op ≠ .verify c x scopes
  lastKey : ∀ key ∈ op.pathKeys.getLast?, key ≠ ""
  values : ∀ m ∈ op.scopeRecords, m.HoldsValues

end ServiceOp

/-- What all these requests have in common: the credential, a method that is not `HEAD`,
and a path that starts with the name of a table. -/
theorem request_shape {order : SetOrder} {authorization : Option (List UInt8)} {op : ServiceOp}
    {request : Request} (h : op.request order authorization = some request) :
    request.authorization = authorization ∧ request.method ≠ .head ∧
      ∃ table segments, request.path = pathOf (table :: segments) := by
  cases op with
  | verify c x scopes => cases h
  | _ => cases h; exact ⟨rfl, Method.noConfusion, _, _, rfl⟩

/-- Keys under a table are the segments of their path, because percent-encoding leaves no
slash in any of them. -/
theorem pathSegments_keys {table : String} (htable : '/' ∉ table.toList) (keys : List String) :
    pathSegments (pathOf (table :: keys.map Percent.encode)) =
      some (table :: keys.map Percent.encode) := by
  refine pathSegments_pathOf ?_ (List.cons_ne_nil _ _)
  intro s hs
  rcases List.mem_cons.mp hs with rfl | hs
  · exact htable
  · obtain ⟨key, -, rfl⟩ := List.mem_map.mp hs
    exact Percent.slash_not_mem_encode key

/-- Keys are decoded again, every one of them to the text it was. -/
theorem mapM_decode_encode (keys : List String) :
    (keys.map Percent.encode).mapM Percent.decode = some keys :=
  mapM_decode_map fun key _ => Percent.decode_encode key

/-- Parameters take the segments of a path as they are, if there is something in the last of
them. -/
theorem matchPattern_replicate {segments : List String} (h : ∀ s ∈ segments.getLast?, s ≠ "") :
    matchPattern (List.replicate segments.length .param) segments = some segments := by
  induction segments with
  | nil => rfl
  | cons s segments ih =>
      have hne : ¬ (segments = [] ∧ s = "") := by
        intro hempty
        exact h s (by rw [hempty.1]; rfl) hempty.2
      have hrest : ∀ r ∈ segments.getLast?, r ≠ "" := by
        intro r hr
        cases segments with
        | nil => cases hr
        | cons r' rest => exact h r (by rwa [List.getLast?_cons_cons])
      rw [List.length_cons, List.replicate_succ, matchPattern, if_neg hne, ih hrest]
      rfl

/-- A pattern only matches paths of its own length, since no parameter takes a slash. -/
theorem length_of_matchPattern {pattern : List Segment} {segments params : List String}
    (h : matchPattern pattern segments = some params) : pattern.length = segments.length := by
  fun_induction matchPattern pattern segments generalizing params with
  | case1 => rfl
  | case2 pattern name segments ih => simp [ih h]
  | case3 => cases h
  | case4 => cases h
  | case5 pattern segment segments hne ih =>
      obtain ⟨rest, hrest, -⟩ := Option.map_eq_some_iff.mp h
      simp [ih hrest]
  | case6 => cases h

/-- No two routes have the same pattern and the same method, so that the order in which the
router tries them does not matter. -/
theorem route_unique {e e' : GuardedEndpoint} (he : e ∈ managementRoutes)
    (he' : e' ∈ managementRoutes) (hpattern : e.endpoint.pattern = e'.endpoint.pattern)
    (hmethod : e.endpoint.method = e'.endpoint.method) : e = e' := by
  have hnodup : (managementRoutes.map fun e => (e.endpoint.pattern, e.endpoint.method)).Nodup := by
    decide
  exact List.inj_on_of_nodup_map hnodup he he' (Prod.ext hpattern hmethod)

/-- A request for keys under a table is sent to the route that has the table, as many
parameters and the method. -/
theorem dispatch_keys {request : Request} {table : String} {keys : List String}
    {e : GuardedEndpoint} (he : e ∈ managementRoutes) (htable : '/' ∉ table.toList)
    (hpath : request.path = pathOf (table :: keys.map Percent.encode))
    (hlast : ∀ key ∈ keys.getLast?, key ≠ "") (hmethod : e.endpoint.method = request.method)
    (hhead : request.method ≠ .head)
    (hpattern : e.endpoint.pattern = .static table :: List.replicate keys.length .param) :
    dispatch request = .endpoint e (keys.map Percent.encode) := by
  have hsegments := pathSegments_keys htable keys
  rw [← hpath] at hsegments
  have hserves : ∀ e' : GuardedEndpoint,
      e'.endpoint.serves request.method = true ↔ e'.endpoint.method = e.endpoint.method := by
    intro e'
    simp [Endpoint.serves, hhead, hmethod]
  have hmatch : e.endpoint.matchPath request.path = some (keys.map Percent.encode) := by
    have hencoded : ∀ s ∈ (keys.map Percent.encode).getLast?, s ≠ "" := by
      intro s hs
      rw [List.getLast?_map] at hs
      obtain ⟨key, hkey, rfl⟩ := Option.map_eq_some_iff.mp hs
      exact Percent.encode_ne_empty (hlast key hkey)
    have hkeys := matchPattern_replicate hencoded
    rw [List.length_map] at hkeys
    rw [Endpoint.matchPath, hsegments, hpattern, Option.bind_some, matchPattern, if_pos rfl, hkeys]
  -- Any other route that serves the method and matches would have the pattern of this one.
  have hunique : ∀ e' ∈ managementRoutes, e'.endpoint.serves request.method = true →
      ∀ params, e'.endpoint.matchPath request.path = some params → e' = e := by
    intro e' he' hserves' params hparams
    obtain ⟨table', rest, hshape, hrest⟩ := pattern_tail_params he'
    rw [Endpoint.matchPath, hsegments, hshape, Option.bind_some, matchPattern] at hparams
    split at hparams
    · next hsame =>
      have hlength := length_of_matchPattern hparams
      rw [List.length_map] at hlength
      refine route_unique he' he ?_ ((hserves e').mp hserves')
      rw [hshape, hpattern, hsame, List.eq_replicate_of_mem hrest, hlength]
    · cases hparams
  rw [dispatch]
  cases hfind : managementRoutes.findSome? fun e =>
      if e.endpoint.serves request.method then
        (e.endpoint.matchPath request.path).map fun params => (e, params)
      else none with
  | none =>
      have hnone := List.findSome?_eq_none_iff.mp hfind e he
      simp [(hserves e).mpr rfl, hmatch] at hnone
  | some found =>
      obtain ⟨e', he', hfound⟩ := List.exists_of_findSome?_eq_some hfind
      split at hfound
      · next hserves' =>
        obtain ⟨params, hparams, rfl⟩ := Option.map_eq_some_iff.mp hfound
        cases hunique e' he' hserves' params hparams
        rw [hmatch] at hparams
        cases hparams
        rfl
      · cases hfound

/-- **The request for an operation is routed to it**, behind the role of the operation and
with its keys as parameters.  There is one case for each operation, which names its route and
reads its body. -/
theorem dispatch_request {order : SetOrder} (horder : order.Lawful)
    {authorization : Option (List UInt8)} {op : ServiceOp} {request : Request}
    (hrequest : op.request order authorization = some request) (h : op.Requestable) :
    ∃ e, dispatch request = .endpoint e (op.pathKeys.map Percent.encode) ∧
      e.requiredRole = op.role ∧
      e.endpoint.handler.operation { params := op.pathKeys, body := request.body } = .ok op := by
  have hvalues := h.values
  have hroute : ∀ table e, e ∈ managementRoutes → '/' ∉ table.toList →
      request.path = pathOf (table :: op.pathKeys.map Percent.encode) →
      e.endpoint.method = request.method → request.method ≠ .head →
      e.endpoint.pattern = .static table :: List.replicate op.pathKeys.length .param →
      dispatch request = .endpoint e (op.pathKeys.map Percent.encode) :=
    fun _ _ he htable hpath hmethod hhead hpattern =>
      dispatch_keys he htable hpath h.lastKey hmethod hhead hpattern
  cases op with
  | verify c x scopes => cases hrequest
  | listMappings =>
      cases hrequest
      exact ⟨⟨⟨[.static "mappings"], .get, .listMappings⟩, roleManagementRead⟩,
        hroute "mappings" _ (by simp [managementRoutes, routeLayer, readRouter]) (by decide) rfl rfl
          (by simp) rfl, rfl, rfl⟩
  | listScopeMappings =>
      cases hrequest
      exact ⟨⟨⟨[.static "scopes"], .get, .listScopeMappings⟩, roleManagementRead⟩,
        hroute "scopes" _ (by simp [managementRoutes, routeLayer, readRouter]) (by decide) rfl rfl
          (by simp) rfl, rfl, rfl⟩
  | save m =>
      cases hrequest
      have hread : ResourceMapping.readBody (m.serialize order) = .ok m :=
        readRecord_eq_ok_iff.mpr (deserialize_resourceMapping horder m)
      refine ⟨⟨⟨[.static "mappings"], .post, .createMapping⟩, roleMappingsWrite⟩,
        hroute "mappings" _ (by simp [managementRoutes, routeLayer, mappingsWriteRouter]) (by decide)
          rfl rfl (by simp) rfl, rfl, ?_⟩
      simp only [Handler.operation, extractJson, Except.bind, hread]
      rfl
  | update m =>
      cases hrequest
      have hread : ResourceMapping.readBody (m.serialize order) = .ok m :=
        readRecord_eq_ok_iff.mpr (deserialize_resourceMapping horder m)
      refine ⟨⟨⟨[.static "mappings", .param, .param], .put, .updateMapping⟩, roleMappingsWrite⟩,
        hroute "mappings" _ (by simp [managementRoutes, routeLayer, mappingsWriteRouter]) (by decide)
          rfl rfl (by simp) rfl, rfl, ?_⟩
      simp [Handler.operation, ServiceOp.pathKeys, extractJson, Except.bind, hread]
  | remove c x =>
      cases hrequest
      exact ⟨⟨⟨[.static "mappings", .param, .param], .delete, .deleteMapping⟩, roleMappingsWrite⟩,
        hroute "mappings" _ (by simp [managementRoutes, routeLayer, mappingsWriteRouter]) (by decide)
          rfl rfl (by simp) rfl, rfl, rfl⟩
  | removeFor c =>
      cases hrequest
      exact ⟨⟨⟨[.static "mappings", .param], .delete, .deleteClientMappings⟩, roleMappingsWrite⟩,
        hroute "mappings" _ (by simp [managementRoutes, routeLayer, mappingsWriteRouter]) (by decide)
          rfl rfl (by simp) rfl, rfl, rfl⟩
  | saveScopeMappings ms =>
      cases hrequest
      have hbody := deserialize_oneOrMany hvalues
      rw [ServiceOp.scopeRecords] at hbody
      have hread := OneOrMany.readBody_eq_ok_iff.mpr hbody
      refine ⟨⟨⟨[.static "scopes"], .post, .createScopeMapping⟩, roleScopesWrite⟩,
        hroute "scopes" _ (by simp [managementRoutes, routeLayer, scopesWriteRouter]) (by decide)
          rfl rfl (by simp) rfl, rfl, ?_⟩
      simp only [Handler.operation, extractJson, Except.bind, hread]
      rfl
  | updateScopeMapping m =>
      cases hrequest
      have hread : ScopeMapping.readBody m.serialize = .ok m :=
        readRecord_eq_ok_iff.mpr (deserialize_scopeMapping (hvalues m List.mem_cons_self))
      refine ⟨⟨⟨[.static "scopes", .param], .put, .updateScopeMapping⟩, roleScopesWrite⟩,
        hroute "scopes" _ (by simp [managementRoutes, routeLayer, scopesWriteRouter]) (by decide)
          rfl rfl (by simp) rfl, rfl, ?_⟩
      simp [Handler.operation, ServiceOp.pathKeys, extractJson, Except.bind, hread]
  | deleteScopeMapping s =>
      cases hrequest
      exact ⟨⟨⟨[.static "scopes", .param], .delete, .deleteScopeMapping⟩, roleScopesWrite⟩,
        hroute "scopes" _ (by simp [managementRoutes, routeLayer, scopesWriteRouter]) (by decide)
          rfl rfl (by simp) rfl, rfl, rfl⟩

/-- The request for an operation, asked for by an admitted caller, is the operation,
whatever the store. -/
theorem operation_of_request {state : ManagementState} (hdecode : state.percentDecode = Percent.decode)
    {order : SetOrder} (horder : order.Lawful) {authorization : Option (List UInt8)}
    {op : ServiceOp} {request : Request} {actor : String}
    (hrequest : op.request order authorization = some request) (h : op.Requestable)
    (hadmitted : authorizeWithRole state op.role request = .ok actor) :
    request.operation state = .ok (actor, op) := by
  obtain ⟨e, hdispatch, hrole, hoperation⟩ := dispatch_request horder hrequest h
  rw [Request.operation, hdispatch]
  simp only [hrole, hadmitted, hdecode, mapM_decode_encode, hoperation]

/-- Decoding leaves the last of the parameters where it is, and not empty: no segment but
the empty one decodes to nothing. -/
theorem last_ne_empty_of_decoded {segments params : List String}
    (h : segments.mapM Percent.decode = some params) (hne : ∀ s ∈ segments.getLast?, s ≠ "") :
    ∀ p ∈ params.getLast?, p ≠ "" := by
  induction segments generalizing params with
  | nil =>
      cases h
      simp
  | cons s segments ih =>
      simp only [List.mapM_cons, Option.bind_eq_bind, Option.bind_eq_some_iff] at h
      obtain ⟨p, hp, rest, hrest, hparams⟩ := h
      cases hparams
      cases segments with
      | nil =>
          cases hrest
          have hs : s ≠ "" := hne s rfl
          simpa using Percent.decode_ne_empty hp hs
      | cons s' segments =>
          have hlast := ih hrest (by simpa using hne)
          cases rest with
          | nil =>
              simp only [List.mapM_cons, Option.bind_eq_bind, Option.bind_eq_some_iff] at hrest
              obtain ⟨_, _, _, _, hnil⟩ := hrest
              cases hnil
          | cons r rest =>
              rw [List.getLast?_cons_cons]
              exact hlast

/-- The last parameter of a dispatched request is not empty, since the router has to find
something at the end of the path. -/
theorem last_param_ne_empty {request : Request} {e : GuardedEndpoint} {params : List String}
    (h : dispatch request = .endpoint e params) : ∀ p ∈ params.getLast?, p ≠ "" := by
  have hmem := mem_of_dispatch h
  rw [dispatch] at h
  split at h
  · next e' params' hfound =>
    cases h
    obtain ⟨e'', -, hsome⟩ := List.exists_of_findSome?_eq_some hfound
    split at hsome
    · obtain ⟨params'', hmatch, heq⟩ := Option.map_eq_some_iff.mp hsome
      cases heq
      obtain ⟨segments, -, hpattern⟩ := Option.bind_eq_some_iff.mp hmatch
      obtain ⟨table, rest, hshape, hrest⟩ := pattern_tail_params hmem
      rw [hshape] at hpattern
      cases segments with
      | nil => cases hpattern
      | cons s segments =>
          simp only [matchPattern] at hpattern
          split at hpattern
          · obtain ⟨rfl, hlast⟩ := matchPattern_params hrest hpattern
            exact hlast
          · cases hpattern
    · cases hsome
  · split at h <;> cases h

/-- What the `Json` extractor delivers is read from some value, that of the body. -/
theorem readBody_of_extractJson {A : Type} {body : Except JsonRejection Json}
    {readBody : Json → Except JsonRejection A} {a : A} (h : extractJson body readBody = .ok a) :
    ∃ j, readBody j = .ok a := by
  unfold extractJson at h
  cases body with
  | error r => cases h
  | ok j =>
      simp only [Except.bind] at h
      split at h
      · cases h
      · next a' hread =>
        cases h
        exact ⟨j, hread⟩

/-- What a handler calls names its parameters as keys, and carries values.  The hypothesis
on the parameters is what the router guarantees. -/
theorem requestable_of_handler {h : Handler} {input : HandlerInput} {op : ServiceOp}
    (hop : h.operation input = .ok op) (hparams : ∀ p ∈ input.params.getLast?, p ≠ "") :
    op.Requestable := by
  have hplain : ∀ op' : ServiceOp, (∀ c x scopes, op' ≠ .verify c x scopes) →
      op'.scopeRecords = [] → op'.pathKeys = [] ∨ op'.pathKeys = input.params →
      op'.Requestable := by
    intro op' hrouted hrecords hkeys
    refine ⟨hrouted, fun key hkey => ?_, ?_⟩
    · rcases hkeys with hnone | hall
      · simp [hnone] at hkey
      · exact hparams key (hall ▸ hkey)
    · rw [hrecords]
      simp
  unfold Handler.operation at hop
  split at hop
  · cases hop
    exact hplain _ (by simp) rfl (by simp [ServiceOp.pathKeys])
  · cases hop
    exact hplain _ (by simp) rfl (by simp [ServiceOp.pathKeys])
  · obtain ⟨m, -, rfl⟩ := exists_of_map_eq_ok hop
    exact hplain _ (by simp) rfl (by simp [ServiceOp.pathKeys])
  · obtain ⟨m, -, hagree, rfl⟩ := exists_of_checked_eq_ok hop
    rw [not_or, not_not, not_not] at hagree
    refine hplain _ (by simp) rfl ?_
    simp [ServiceOp.pathKeys, hagree]
  · cases hop
    exact hplain _ (by simp) rfl (by simp [ServiceOp.pathKeys])
  · cases hop
    exact hplain _ (by simp) rfl (by simp [ServiceOp.pathKeys])
  · -- A batch: its elements were read from the body.
    obtain ⟨payload, hbody, rfl⟩ := exists_of_map_eq_ok hop
    obtain ⟨j, hj⟩ := readBody_of_extractJson hbody
    exact ⟨by simp, by simp [ServiceOp.pathKeys],
      holdsValues_of_oneOrMany (OneOrMany.readBody_eq_ok_iff.mp hj)⟩
  · -- An update of a scope: the key of the path is the scope of the record.
    obtain ⟨m, hbody, hagree, rfl⟩ := exists_of_checked_eq_ok hop
    rw [not_not] at hagree
    obtain ⟨j, hj⟩ := readBody_of_extractJson hbody
    refine ⟨by simp, ?_, ?_⟩
    · intro key hkey
      exact hparams key (by rw [hagree]; exact hkey)
    · intro m' hm'
      rw [List.mem_singleton.mp hm']
      exact holdsValues_of_deserialize (readRecord_eq_ok_iff.mp hj)
  · cases hop
    exact hplain _ (by simp) rfl (by simp [ServiceOp.pathKeys])
  · cases hop

/-- **Only what can be asked for is asked for**, in every state of the server and by
whatever request. -/
theorem requestable_of_operation {state : ManagementState}
    (hdecode : state.percentDecode = Percent.decode) {request : Request} {actor : String}
    {op : ServiceOp} (h : request.operation state = .ok (actor, op)) : op.Requestable := by
  rw [Request.operation] at h
  cases hd : dispatch request with
  | notFound => rw [hd] at h; cases h
  | methodNotAllowed requiredRole =>
      simp only [hd] at h
      split at h <;> cases h
  | endpoint e params =>
      simp only [hd] at h
      cases ha : authorizeWithRole state e.requiredRole request with
      | error response => rw [ha] at h; cases h
      | ok found =>
          simp only [ha, hdecode] at h
          split at h
          · cases h
          · next keys hkeys =>
            split at h
            · cases h
            · next op' hop =>
              cases h
              exact requestable_of_handler hop
                (last_ne_empty_of_decoded hkeys (last_param_ne_empty hd))

/-- A request as it is sent to the management port, with the prefix that the nesting takes
off again. -/
def Request.underApi (request : Request) : Request :=
  { request with path := "/api/v1" ++ request.path }

section Port

variable {κ : Type} {rt : JwtletRuntime κ} {outside : Surroundings κ}
  {authorization : Option (List UInt8)} {actor : String}

/-- The header carries a token that verifies as one of the actor for the management API,
at the moment for which `outside` stands. -/
def Identifies (rt : JwtletRuntime κ) (outside : Surroundings κ)
    (authorization : Option (List UInt8)) (actor : String) : Prop :=
  ∃ token claims, extractBearerToken authorization = some token ∧
    outside.verifier rt.managementClientAudience token = .ok claims ∧ claims.sub = actor

/-- Whoever the header identifies is admitted with the roles of the account, to whatever
request carries the header. -/
theorem authorizeWithRole_of_identifies (h : Identifies rt outside authorization actor)
    {role : String} (hrole : rt.serviceAccountAuthorizer.holdsRole actor role = true)
    {request : Request} (hauth : request.authorization = authorization) :
    authorizeWithRole (rt.managementState outside) role request = .ok actor := by
  obtain ⟨token, claims, htoken, hclaims, rfl⟩ := h
  have hsub : verifiedSubject (rt.managementState outside) request = some claims.sub := by
    rw [verifiedSubject, hauth, htoken]
    simp only [JwtletRuntime.managementState, accountState, hclaims]
  rw [JwtletRuntime.managementState] at hsub ⊢
  rw [authorizeWithRole_eq, hsub]
  simp only [hrole, if_true]

/-- The port passes a request for an operation on to the management API, which sees it
without the prefix. -/
theorem operation_underApi {order : SetOrder} {op : ServiceOp} {request : Request}
    (hrequest : op.request order authorization = some request) :
    ServerEvent.operation rt { request := .management request.underApi, outside } =
      (request.operation (rt.managementState outside)).toOption := by
  obtain ⟨-, -, table, segments, hpath⟩ := request_shape hrequest
  have hnested : request.underApi.path = pathOf ("api" :: "v1" :: table :: segments) := by
    rw [Request.underApi, hpath]
    apply String.toList_injective
    simp [pathOf]
  have hback : { request.underApi with path := pathOf (table :: segments) } = request := by
    rw [Request.underApi, ← hpath]
  simp only [ServerEvent.operation, hnested, if_neg (pathOf_api_ne_health _), nestedPath_pathOf,
    Option.bind_some]
  rw [hback]

/-- The request for an operation performs it, when it comes from a caller with the role of
the operation. -/
theorem operation_of_identifies (h : Identifies rt outside authorization actor)
    {order : SetOrder} (horder : order.Lawful) {op : ServiceOp} {request : Request}
    (hrequest : op.request order authorization = some request) (hop : op.Requestable)
    (hrole : rt.serviceAccountAuthorizer.holdsRole actor op.role = true) :
    ServerEvent.operation rt { request := .management request.underApi, outside } =
      some (actor, op) := by
  rw [operation_underApi hrequest, operation_of_request rfl horder hrequest hop
    (authorizeWithRole_of_identifies h hrole (request_shape hrequest).1)]
  rfl

/-- Only an operation that can be asked for is performed at the management port, whoever
asks. -/
theorem requestable_of_event {ev : ServerEvent κ} {op : ServiceOp}
    (h : ev.operation rt = some (actor, op)) : op.Requestable := by
  obtain ⟨request, path, -, -, -, hop⟩ := request_of_operation h
  exact requestable_of_operation rfl hop

/-- Every operation but `verify` has a request, in any order of its sets. -/
theorem exists_request (order : SetOrder) (authorization : Option (List UInt8)) {op : ServiceOp}
    (h : op.Requestable) : ∃ request, op.request order authorization = some request := by
  cases op with
  | verify c x scopes => exact absurd rfl (h.routed c x scopes)
  | _ => exact ⟨_, rfl⟩

end Port

/-- **Requests and operations.**  A caller who holds the role of an operation can
have it performed exactly if it has a route, the last key in its path is not empty and
its claims are values; the request built from the operation, with its keys
percent-encoded and its sets in any order, does so. -/
theorem operation_requestable_iff {κ : Type} (rt : JwtletRuntime κ) (outside : Surroundings κ)
    (authorization : Option (List UInt8)) (actor : String)
    (h : Identifies rt outside authorization actor) (op : ServiceOp)
    (hrole : rt.serviceAccountAuthorizer.holdsRole actor op.role = true) :
    (op.Requestable ↔ ∃ request : Request, request.authorization = authorization ∧
      ServerEvent.operation rt { request := .management request, outside } = some (actor, op)) ∧
    (op.Requestable → ∀ order : SetOrder, order.Lawful →
      ∃ request, op.request order authorization = some request ∧
        ServerEvent.operation rt { request := .management request.underApi, outside } =
          some (actor, op)) := by
  have hbuilt : op.Requestable → ∀ order : SetOrder, order.Lawful →
      ∃ request, op.request order authorization = some request ∧
        ServerEvent.operation rt { request := .management request.underApi, outside } =
          some (actor, op) := by
    intro hop order horder
    obtain ⟨request, hrequest⟩ := exists_request order authorization hop
    exact ⟨request, hrequest, operation_of_identifies h horder hrequest hop hrole⟩
  refine ⟨⟨?_, ?_⟩, hbuilt⟩
  · intro hop
    obtain ⟨request, hrequest, hoperation⟩ := hbuilt hop ascendingOrder ascendingOrder_lawful
    exact ⟨request.underApi, (request_shape hrequest).1, hoperation⟩
  · intro hasked
    obtain ⟨request, -, hoperation⟩ := hasked
    exact requestable_of_event hoperation

/-- The token of the sample administrator identifies the administrator. -/
theorem identifies_sampleAdmin :
    Identifies sampleRuntime sampleOutside (some (utf8Bytes "Bearer admin-token")) "admin" :=
  ⟨"admin-token", sampleAdmin, by decide +kernel, rfl, rfl⟩

/-- A key with a slash, and one that looks encoded: both are one segment of the path, and
come back as they were. -/
theorem operation_requestable_iff_slash : ∃ request : Request,
    request.authorization = some (utf8Bytes "Bearer admin-token") ∧
    ServerEvent.operation sampleRuntime { request := .management request, outside := sampleOutside } =
      some ("admin", .remove "a/b" "%2F") :=
  (operation_requestable_iff sampleRuntime sampleOutside _ "admin" identifies_sampleAdmin
    (.remove "a/b" "%2F") (by decide +kernel)).1.mp
      ⟨by simp, by simp [ServiceOp.pathKeys], by simp [ServiceOp.scopeRecords]⟩

end Jwtlet
