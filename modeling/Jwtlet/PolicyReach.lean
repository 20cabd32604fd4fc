import Jwtlet.OperationRequests

/-!
# The policies in reach of requests

What the management API can make of an empty store is exactly what the service can:
every valid policy whose claims are values (`reachable_iff_valid`).  In each of these
states every stored record can be removed and replaced by the request for its keys,
and the listings show what the history of the server has put in force.
-/

namespace Jwtlet

open Rust Machine

/-- Saving valid mappings with free and distinct keys adds each of them under its key, and
changes nothing else. -/
theorem policy_save_mappings {l : List ResourceMapping} (hvalid : ∀ m ∈ l, m.Valid)
    (hnodup : (l.map ResourceMapping.key).Nodup) (store : InnerStore)
    (hfree : ∀ m ∈ l, (PolicyStore.policy store).mapping m.key = none) :
    PolicyStore.policy (after ServiceOp.perform store (l.map .save)) =
      { PolicyStore.policy store with
        mapping := fun k => (l.find? fun m => m.key == k).or
          ((PolicyStore.policy store).mapping k) } := by
  induction l generalizing store with
  | nil => rfl
  | cons m l ih =>
      rw [List.forall_mem_cons] at hvalid hfree
      rw [List.map_cons, List.nodup_cons] at hnodup
      have haccepted : (ServiceOp.save m).accepted = some (.saveMapping m) :=
        passOn_eq_some_iff.mpr ⟨validateResourceMapping_eq_ok_iff.mpr hvalid.1, rfl⟩
      have hsaved : PolicyStore.policy ((ServiceOp.save m).perform store).2 =
          { PolicyStore.policy store with
            mapping := Function.update (PolicyStore.policy store).mapping m.key (some m) } := by
        rw [perform_policy, haccepted]
        simp [Policy.write, hfree.1]
      have hne : ∀ m' ∈ l, m'.key ≠ m.key := by
        intro m' hm' heq
        exact hnodup.1 (heq ▸ List.mem_map_of_mem hm')
      rw [List.map_cons, after_cons, ih hvalid.2 hnodup.2, hsaved]
      · simp only [Policy.mk.injEq, and_true]
        funext k
        by_cases hk : m.key = k
        · have hnone : (l.find? fun m' => m'.key == k) = none := by
            rw [List.find?_eq_none]
            intro m' hm' heq
            exact hne m' hm' ((beq_iff_eq.mp heq).trans hk.symm)
          simp [hk, hnone]
        · simp [hk, Ne.symm hk]
      · intro m' hm'
        rw [hsaved]
        simp [hne m' hm', hfree.2 m' hm']

/-- Every valid policy of values is what some operations with a request make of an empty
store: one batch for the scopes, then the mappings one by one. -/
theorem exists_operations {store : InnerStore} (hvalid : (PolicyStore.policy store).Valid)
    (hvalues : ∀ s m, (PolicyStore.policy store).scope s = some m → m.HoldsValues) :
    ∃ ops : List ServiceOp, finalStore ops = store ∧
      ∀ op ∈ ops, op.Requestable ∧ (op.role = roleMappingsWrite ∨ op.role = roleScopesWrite) := by
  obtain ⟨scopes, -, hscopeKeys, hscopeMem⟩ := listScopeMappings_keys hvalid.keyed
  obtain ⟨mappings, -, hmappingKeys, hmappingMem⟩ := listMappings_keys hvalid.keyed
  refine ⟨.saveScopeMappings scopes :: mappings.map .save, ?_, ?_⟩
  · have haccepted : (ServiceOp.saveScopeMappings scopes).accepted =
        some (.saveScopeMappings scopes) := by
      refine passOn_eq_some_iff.mpr ⟨forM_eq_ok_iff.mpr fun m hm => ?_, rfl⟩
      exact validateScopeMapping_eq_ok_iff.mpr (hvalid.scope m.scope m ((hscopeMem m).mp hm))
    have hfirst : Policy.firstTaken (fun s => ((PolicyStore.policy
        (MemoryResourceStore.new : InnerStore)).scope s).isSome) scopes = none :=
      firstTaken_scope_eq_none_iff.mpr ⟨hscopeKeys, fun m hm => rfl⟩
    have hsaved : PolicyStore.policy
        ((ServiceOp.saveScopeMappings scopes).perform MemoryResourceStore.new).2 =
          { mapping := fun _ => none, scope := (PolicyStore.policy store).scope } := by
      rw [perform_policy, haccepted]
      simp only [Option.elim_some, Policy.write, hfirst, Policy.mk.injEq]
      refine ⟨rfl, funext fun s => ?_⟩
      rw [Policy.addScopes_apply hscopeKeys, find?_listing hvalid.keyed.scope hscopeMem s]
      cases (PolicyStore.policy store).scope s <;> rfl
    have hmappings := policy_save_mappings
      (fun m hm => hvalid.mapping m.key m ((hmappingMem m).mp hm)) hmappingKeys
      ((ServiceOp.saveScopeMappings scopes).perform MemoryResourceStore.new).2
      (fun m hm => by rw [hsaved])
    apply InnerStore.policy_injective
    rw [finalStore, after_cons, hmappings, hsaved]
    simp only [Option.or_none]
    exact Policy.ext (funext fun k => find?_listing hvalid.keyed.mapping hmappingMem k) rfl
  · intro op hop
    rcases List.mem_cons.mp hop with rfl | hop
    · refine ⟨⟨by simp, by simp [ServiceOp.pathKeys], ?_⟩, Or.inr rfl⟩
      intro m hm
      exact hvalues m.scope m ((hscopeMem m).mp hm)
    · obtain ⟨m, -, rfl⟩ := List.mem_map.mp hop
      exact ⟨⟨by simp, by simp [ServiceOp.pathKeys], by simp [ServiceOp.scopeRecords]⟩, Or.inl rfl⟩

section Reachable

variable {κ : Type} {rt : JwtletRuntime κ} {outside : Surroundings κ}
  {authorization : Option (List UInt8)} {actor : String}

/-- Operations with a request, asked for one after the other by a caller who holds their
roles, are the operations of some run. -/
theorem exists_events (h : Identifies rt outside authorization actor) {ops : List ServiceOp}
    (hops : ∀ op ∈ ops, op.Requestable ∧
      rt.serviceAccountAuthorizer.holdsRole actor op.role = true) :
    ∃ events : List (ServerEvent κ), operations rt events = ops := by
  induction ops with
  | nil => exact ⟨[], rfl⟩
  | cons op ops ih =>
      rw [List.forall_mem_cons] at hops
      obtain ⟨events, hevents⟩ := ih hops.2
      obtain ⟨request, hrequest⟩ := exists_request ascendingOrder authorization hops.1.1
      have hoperation := operation_of_identifies h ascendingOrder_lawful hrequest hops.1.1 hops.1.2
      refine ⟨{ request := .management request.underApi, outside } :: events, ?_⟩
      rw [operations, List.filterMap_cons_some (by rw [hoperation]; rfl)]
      exact congrArg _ hevents

/-- The claims that a run leaves in the store are values, because every record came out of
a body. -/
theorem storeAfter_holdsValues (rt : JwtletRuntime κ) (events : List (ServerEvent κ)) :
    ∀ s m, (PolicyStore.policy (rt.storeAfter events)).scope s = some m → m.HoldsValues := by
  rw [storeAfter_eq]
  refine reachable_holdsValues fun op hop => ?_
  obtain ⟨ev, -, hev⟩ := List.mem_filterMap.mp hop
  obtain ⟨found, hfound, rfl⟩ := Option.map_eq_some_iff.mp hev
  exact (requestable_of_event hfound).values

/-- **What requests can bring about.**  If some caller holds both roles for writing,
then the stores that runs of the server end in are exactly those with a valid policy
whose claims are values. -/
theorem reachable_iff_valid (rt : JwtletRuntime κ) (outside : Surroundings κ)
    (authorization : Option (List UInt8)) (actor : String)
    (h : Identifies rt outside authorization actor)
    (hmappings : rt.serviceAccountAuthorizer.holdsRole actor roleMappingsWrite = true)
    (hscopes : rt.serviceAccountAuthorizer.holdsRole actor roleScopesWrite = true)
    (store : InnerStore) :
    (∃ events, rt.storeAfter events = store) ↔
      (PolicyStore.policy store).Valid ∧
        ∀ s m, (PolicyStore.policy store).scope s = some m → m.HoldsValues := by
  constructor
  · intro hreached
    obtain ⟨events, rfl⟩ := hreached
    exact ⟨storeAfter_valid rt events, storeAfter_holdsValues rt events⟩
  · intro hstore
    obtain ⟨ops, hfinal, hops⟩ := exists_operations hstore.1 hstore.2
    obtain ⟨events, hevents⟩ := @exists_events κ rt outside authorization actor h ops (by
      intro op hop
      refine ⟨(hops op hop).1, ?_⟩
      rcases (hops op hop).2 with hrole | hrole
      · rw [hrole]
        exact hmappings
      · rw [hrole]
        exact hscopes)
    exact ⟨events, by rw [storeAfter_eq, hevents, hfinal]⟩

/-- A store with one scope, which has no claims, and no mapping that would permit it to
anyone. -/
def loneStore : InnerStore where
  entries := ∅
  scopeMappings := Std.ExtTreeMap.insert ∅ "read" { scope := "read", claims := ∅ }

/-- The administrator of the sample can bring it about, by some run of requests. -/
theorem reachable_iff_valid_lone : ∃ events, sampleRuntime.storeAfter events = loneStore := by
  have hmapping : ∀ k, (PolicyStore.policy loneStore).mapping k = none := by
    intro k
    exact Std.ExtTreeMap.getElem?_empty
  have hscope : ∀ s m, (PolicyStore.policy loneStore).scope s = some m →
      s = "read" ∧ m = { scope := "read", claims := ∅ } := by
    intro s m hm
    have hget : loneStore.scopeMappings[s]? = some m := hm
    simp only [loneStore, Std.ExtTreeMap.getElem?_insert, compare_eq_iff_eq,
      Std.ExtTreeMap.getElem?_empty] at hget
    split at hget
    · next heq => exact ⟨heq.symm, (Option.some.inj hget).symm⟩
    · cases hget
  refine (reachable_iff_valid sampleRuntime sampleOutside _ "admin" identifies_sampleAdmin
    (by decide +kernel) (by decide +kernel) loneStore).mpr ⟨⟨⟨?_, ?_⟩, ?_, ?_⟩, ?_⟩
  · intro k m hm
    rw [hmapping] at hm
    cases hm
  · intro s m hm
    obtain ⟨rfl, rfl⟩ := hscope s m hm
    rfl
  · intro k m hm
    rw [hmapping] at hm
    cases hm
  · intro s m hm
    obtain ⟨rfl, rfl⟩ := hscope s m hm
    exact ⟨validateScopeName_eq_ok_iff.mp (by decide +kernel), by simp⟩
  · intro s m hm
    obtain ⟨rfl, rfl⟩ := hscope s m hm
    intro k v hv
    rw [Std.ExtTreeMap.getElem?_empty] at hv
    cases hv

/-- What the request for an operation does: its response and its events are those of the
operation, and so is the store after it. -/
theorem step_of_request (h : Identifies rt outside authorization actor)
    {order : SetOrder} (horder : order.Lawful) {op : ServiceOp} (hop : op.Requestable)
    (hrole : rt.serviceAccountAuthorizer.holdsRole actor op.role = true) :
    ∃ request, op.request order authorization = some request ∧ ∀ store : InnerStore,
      rt.step store { request := .management request.underApi, outside } =
        ({ response := .management (op.respond (op.perform store).1)
           events := op.auditEvents actor (op.perform store).1 }, (op.perform store).2) := by
  obtain ⟨request, hrequest⟩ := exists_request order authorization hop
  obtain ⟨sent, hsent, hstep⟩ := @step_of_operation κ InnerStore _ rt _ _ _
    (operation_of_identifies h horder hrequest hop hrole)
  cases hsent
  refine ⟨request, hrequest, fun store => ?_⟩
  have hmethod : request.underApi.method ≠ .head := (request_shape hrequest).2.1
  rw [hstep, Response.forMethod, if_neg hmethod]

/-- The request built from an operation is carried out: its response, the events it is
logged as, and the policy it leaves are the given ones. -/
def CarriedOut (rt : JwtletRuntime κ) (store : InnerStore) (outside : Surroundings κ)
    (authorization : Option (List UInt8)) (order : SetOrder) (op : ServiceOp)
    (status : StatusCode) (events : List AuditEvent) (policy : Policy) : Prop :=
  ∃ request answer store', op.request order authorization = some request ∧
    rt.step store { request := .management request.underApi, outside } = (answer, store') ∧
    answer.response = .management status.intoResponse ∧ answer.events = events ∧
    PolicyStore.policy store' = policy

/-- So is that of every operation that validation accepts and the policy allows, when a
caller with its role makes it. -/
theorem carriedOut_of_accepted (h : Identifies rt outside authorization actor)
    {order : SetOrder} (horder : order.Lawful) {op : ServiceOp} (hop : op.Requestable)
    (hrole : rt.serviceAccountAuthorizer.holdsRole actor op.role = true) {w : StoreWrite}
    (haccepted : op.accepted = some w) {store : InnerStore} {p : Policy}
    (hwrite : (PolicyStore.policy store).write w = (.ok (), p)) :
    CarriedOut rt store outside authorization order op op.successStatus (w.auditEvents actor) p := by
  obtain ⟨request, hrequest, hstep⟩ := step_of_request h horder hop hrole
  have hanswer : (op.perform store).1 = .done (.ok ()) := by
    rw [perform_answer haccepted, hwrite]
  refine ⟨request, _, _, hrequest, hstep store, ?_, ?_, ?_⟩
  · rw [hanswer]
    rfl
  · simp only [ServiceOp.auditEvents, hanswer, haccepted, ServiceAnswer.isDone, if_true,
      Option.elim_some]
  · rw [perform_policy, haccepted]
    exact congrArg Prod.snd hwrite

/-- **Every stored record is in reach.**  After any run, a caller with the role for
a table can remove each of its records, and replace it by any valid one under the
same key, by the request built from its keys.  The request changes nothing else and
is logged under the caller's name. -/
theorem stored_records_in_reach (rt : JwtletRuntime κ) (events : List (ServerEvent κ))
    (outside : Surroundings κ) (authorization : Option (List UInt8)) (actor : String)
    (h : Identifies rt outside authorization actor) (order : SetOrder) (horder : order.Lawful) :
    let store := rt.storeAfter events
    let p := PolicyStore.policy store
    let carriedOut := CarriedOut rt store outside authorization order
    (rt.serviceAccountAuthorizer.holdsRole actor roleMappingsWrite = true →
      ∀ c x, (p.mapping (c, x)).isSome →
        carriedOut (.remove c x) .noContent [.mappingDeleted actor c x]
          { p with mapping := Function.update p.mapping (c, x) none } ∧
        ∀ m : ResourceMapping, m.Valid → m.key = (c, x) →
          carriedOut (.update m) .noContent [.mappingUpdated actor c x]
            { p with mapping := Function.update p.mapping (c, x) (some m) }) ∧
    (rt.serviceAccountAuthorizer.holdsRole actor roleScopesWrite = true →
      ∀ s, (p.scope s).isSome →
        carriedOut (.deleteScopeMapping s) .noContent [.scopeMappingDeleted actor s]
          { p with scope := Function.update p.scope s none } ∧
        ∀ m : ScopeMapping, m.Valid → m.HoldsValues → m.scope = s →
          carriedOut (.updateScopeMapping m) .noContent [.scopeMappingUpdated actor s]
            { p with scope := Function.update p.scope s (some m) }) := by
  intro store p carriedOut
  have hvalid : p.Valid := storeAfter_valid rt events
  have hblank : ∀ key, isBlank key = false → key ≠ "" := by
    intro key hkey hempty
    rw [hempty] at hkey
    exact absurd hkey (by decide)
  refine ⟨fun hrole c x hstored => ?_, fun hrole s hstored => ?_⟩
  · obtain ⟨m, hm⟩ := Option.isSome_iff_exists.mp hstored
    obtain ⟨rfl, rfl⟩ := Prod.mk.inj (hvalid.keyed.mapping _ m hm)
    have hx := hblank _ (hvalid.mapping _ m hm).participantContext
    constructor
    · have hop : (ServiceOp.remove m.clientIdentifier m.participantContext).Requestable :=
        ⟨by simp, by simp [ServiceOp.pathKeys, hx], by simp [ServiceOp.scopeRecords]⟩
      exact carriedOut_of_accepted h horder hop hrole rfl rfl
    · intro m' hm' hkey
      obtain ⟨hc', hx'⟩ := Prod.mk.inj hkey
      have haccepted : (ServiceOp.update m').accepted = some (.updateMapping m') :=
        passOn_eq_some_iff.mpr ⟨validateResourceMapping_eq_ok_iff.mpr hm', rfl⟩
      have hwrite : p.write (.updateMapping m') =
          (.ok (), { p with mapping := Function.update p.mapping m'.key (some m') }) := by
        rw [Policy.write, hkey, if_pos hstored]
      have hop : (ServiceOp.update m').Requestable :=
        ⟨by simp, by simp [ServiceOp.pathKeys, hx', hx], by simp [ServiceOp.scopeRecords]⟩
      have hcarried := carriedOut_of_accepted h horder hop hrole haccepted hwrite
      rw [StoreWrite.auditEvents, hc', hx', hkey] at hcarried
      exact hcarried
  · obtain ⟨m, hm⟩ := Option.isSome_iff_exists.mp hstored
    have hs := (hvalid.scope s m hm).scope
    rw [hvalid.keyed.scope s m hm] at hs
    constructor
    · have hop : (ServiceOp.deleteScopeMapping s).Requestable :=
        ⟨by simp, by simp [ServiceOp.pathKeys, hs.1], by simp [ServiceOp.scopeRecords]⟩
      exact carriedOut_of_accepted h horder hop hrole rfl rfl
    · intro m' hm' hvalues hkey
      subst hkey
      have haccepted : (ServiceOp.updateScopeMapping m').accepted = some (.updateScopeMapping m') :=
        passOn_eq_some_iff.mpr ⟨validateScopeMapping_eq_ok_iff.mpr hm', rfl⟩
      have hop : (ServiceOp.updateScopeMapping m').Requestable :=
        ⟨by simp, by simp [ServiceOp.pathKeys, hs.1], by simp [ServiceOp.scopeRecords, hvalues]⟩
      have hwrite : p.write (.updateScopeMapping m') =
          (.ok (), { p with scope := Function.update p.scope m'.scope (some m') }) := by
        rw [Policy.write, if_pos hstored]
      exact carriedOut_of_accepted h horder hop hrole haccepted hwrite

/-- The administrator takes the mapping of the sample client back, by the path that its
two keys make. -/
theorem stored_records_in_reach_sample :
    CarriedOut sampleRuntime (sampleRuntime.storeAfter [createMappingEvent]) sampleOutside
      (some (utf8Bytes "Bearer admin-token")) ascendingOrder (.remove "client" "ctx") .noContent
      [.mappingDeleted "admin" "client" "ctx"]
      { PolicyStore.policy (sampleRuntime.storeAfter [createMappingEvent]) with
        mapping := Function.update
          (PolicyStore.policy (sampleRuntime.storeAfter [createMappingEvent])).mapping
          ("client", "ctx") none } :=
  ((stored_records_in_reach sampleRuntime [createMappingEvent] sampleOutside _ "admin"
    identifies_sampleAdmin ascendingOrder ascendingOrder_lawful).1 (by decide +kernel)
    "client" "ctx" (by decide +kernel)).1

/-- **The listings are what is in force.**  After any run, a caller with the role for
reading gets, from the requests for the listings, each mapping and each scope mapping
that the history has put in force, once, and nothing else; the store stays as it is
and nothing is logged. -/
theorem listings_in_force (rt : JwtletRuntime κ) (events : List (ServerEvent κ))
    (outside : Surroundings κ) (authorization : Option (List UInt8)) (actor : String)
    (h : Identifies rt outside authorization actor)
    (hrole : rt.serviceAccountAuthorizer.holdsRole actor roleManagementRead = true)
    (order : SetOrder) (horder : order.Lawful) :
    (∃ request l, ServiceOp.listMappings.request order authorization = some request ∧
      rt.step (rt.storeAfter events) { request := .management request.underApi, outside } =
        ({ response := .management { status := .ok, body := .mappings l } },
          rt.storeAfter events) ∧
      (l.map ResourceMapping.key).Nodup ∧
      ∀ m, m ∈ l ↔ MappingInForce rt (rt.historyOf events) m.clientIdentifier
        m.participantContext m) ∧
    ∃ request l, ServiceOp.listScopeMappings.request order authorization = some request ∧
      rt.step (rt.storeAfter events) { request := .management request.underApi, outside } =
        ({ response := .management { status := .ok, body := .scopeMappings l } },
          rt.storeAfter events) ∧
      (l.map ScopeMapping.scope).Nodup ∧
      ∀ m, m ∈ l ↔ ScopeInForce rt (rt.historyOf events) m.scope m := by
  have hkeyed := (storeAfter_valid rt events).keyed
  constructor
  · obtain ⟨l, hl, hnodup, hmem⟩ := listMappings_keys hkeyed
    have hop : ServiceOp.listMappings.Requestable :=
      ⟨by simp, by simp [ServiceOp.pathKeys], by simp [ServiceOp.scopeRecords]⟩
    obtain ⟨request, hrequest, hstep⟩ := step_of_request h horder hop hrole
    refine ⟨request, l, hrequest, ?_, hnodup, fun m => ?_⟩
    · rw [hstep]
      simp only [ServiceOp.perform, ResourceService.listMappings, hl]
      rfl
    · rw [hmem, ResourceMapping.key, mapping_after_iff]
  · obtain ⟨l, hl, hnodup, hmem⟩ := listScopeMappings_keys hkeyed
    have hop : ServiceOp.listScopeMappings.Requestable :=
      ⟨by simp, by simp [ServiceOp.pathKeys], by simp [ServiceOp.scopeRecords]⟩
    obtain ⟨request, hrequest, hstep⟩ := step_of_request h horder hop hrole
    refine ⟨request, l, hrequest, ?_, hnodup, fun m => ?_⟩
    · rw [hstep]
      simp only [ServiceOp.perform, ResourceService.listScopeMappings, hl]
      rfl
    · rw [hmem, scope_after_iff]

/-- The sample server with an account that may read both tables, and write the one of
resource mappings. -/
def readerRuntime : JwtletRuntime Unit :=
  { sampleRuntime with
    serviceAccountAuthorizer := .fromAccounts
      [{ clientId := "admin"
         roles := Std.ExtTreeSet.ofList [roleManagementRead, roleMappingsWrite] compare }] }

/-- The mapping of the sample client is listed, and nothing else, as the only one in
force. -/
theorem listings_in_force_sample : ∃ l : List ResourceMapping, (l.map ResourceMapping.key).Nodup ∧
    ∀ m, m ∈ l ↔ MappingInForce readerRuntime (readerRuntime.historyOf [createMappingEvent])
      m.clientIdentifier m.participantContext m := by
  have hidentified : Identifies readerRuntime sampleOutside
      (some (utf8Bytes "Bearer admin-token")) "admin" :=
    ⟨"admin-token", sampleAdmin, by decide +kernel, rfl, rfl⟩
  obtain ⟨⟨request, l, -, -, hnodup, hmem⟩, -⟩ := listings_in_force readerRuntime
    [createMappingEvent] sampleOutside _ "admin" hidentified (by decide +kernel) ascendingOrder
    ascendingOrder_lawful
  exact ⟨l, hnodup, hmem⟩

end Reachable

end Jwtlet
