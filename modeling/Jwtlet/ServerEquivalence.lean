import Jwtlet.ConcurrentServer
import Jwtlet.StoreEquivalence

/-!
# Runs of the server that look the same

Two ways to change a run that its remaining requests do not see.  Requests that
write nothing can be left out: token requests, listings, health checks, and
whatever is refused (`silent_requests_erasable`).  And the memory store can be
replaced by the Postgres store (`backend_unobservable`).

For the second the order in which the validation meets the scopes of a mapping is
left open, since a hash set has a new one every time and the error names the first
scope that is not valid: `stepIn` is the step of the server with that order.
-/

namespace Jwtlet

open Rust Machine

variable {κ : Type}

/-- The entry is a write that was carried out: its validation passed it on to the store,
and the store accepted it. -/
def CarriesOutWrite (rt : JwtletRuntime κ) (e : ServerEntry κ) : Prop :=
  ∃ actor op w, e.1.operation rt = some (actor, op) ∧ op.accepted = some w ∧
    e.2.succeeded = true

/-- Any other request leaves the store as it is: it has no write, or the store has refused
it, as with a second creation under the same key. -/
theorem step_of_no_write {rt : JwtletRuntime κ} {store : InnerStore} {ev : ServerEvent κ}
    (h : ¬ CarriesOutWrite rt (ev, (rt.step store ev).1)) : (rt.step store ev).2 = store := by
  rw [step_store]
  cases hop : ev.operation rt with
  | none => rfl
  | some found =>
      obtain ⟨actor, op⟩ := found
      cases haccepted : op.accepted with
      | none => exact (perform_of_not_accepted haccepted store).1
      | some w =>
          have hrefused : (rt.step store ev).1.succeeded ≠ true :=
            fun hsucceeded => h ⟨actor, op, w, hop, haccepted, hsucceeded⟩
          rw [step_succeeded hop, perform_of_accepted haccepted] at hrefused
          change (op.perform store).2 = store
          rw [perform_of_accepted haccepted]
          cases hwrite : (ResourceStore.write store w).1 with
          | ok u =>
              rw [writing_isOk_iff.mpr (congrArg ServiceAnswer.done hwrite)] at hrefused
              exact absurd rfl hrefused
          | error e => exact InnerStore.write_error hwrite

/-- **What writes nothing can be left out.**  From any run leave out requests of which
none has carried out a write, in any choice: token requests, listings, health checks,
whatever is refused before it gets to the store, and writes that the store has refused.
What is left, requests and answers, is a run again - each response, audit event and call
of the generator - and it ends in the same store. -/
theorem silent_requests_erasable (rt : JwtletRuntime κ) (events : List (ServerEvent κ))
    (kept : List (ServerEntry κ))
    (h : Erased (fun e => ¬ CarriesOutWrite rt e) (rt.historyOf events) kept) :
    rt.historyOf (kept.map Prod.fst) = kept ∧
      rt.storeAfter (kept.map Prod.fst) = rt.storeAfter events :=
  history_erased (fun _ _ hsilent => step_of_no_write hsilent) h

/-- The second of two creations is refused, and a token request writes nothing.  Without
them the run ends in the same store. -/
theorem silent_requests_erasable_sample :
    sampleRuntime.storeAfter [createMappingEvent, deleteMappingEvent] =
      sampleRuntime.storeAfter
        [createMappingEvent, createMappingEvent, exchangeEvent, deleteMappingEvent] := by
  have hrefused : (((sampleRuntime.historyOf
      [createMappingEvent, createMappingEvent, exchangeEvent, deleteMappingEvent]).map
        fun e => e.2.succeeded)[1]?) = some false := by decide +kernel
  have hexchange : (exchangeEvent.operation sampleRuntime).isNone = true := by decide +kernel
  refine (silent_requests_erasable sampleRuntime _ [(createMappingEvent, _), (deleteMappingEvent, _)]
    (.kept _ (.erased ?_ (.erased ?_ (.kept _ .nil))))).2
  · intro hwrites
    obtain ⟨-, -, -, -, -, hsucceeded⟩ := hwrites
    rw [← Bool.not_eq_false] at hsucceeded
    exact hsucceeded (Option.some.inj hrefused)
  · intro hwrites
    obtain ⟨actor, op, w, hop, -⟩ := hwrites
    have hsome : exchangeEvent.operation sampleRuntime = some (actor, op) := hop
    rw [hsome] at hexchange
    cases hexchange

/-- The same response, up to the order of listed records.  The two stores list theirs in
different orders, and no caller is promised any. -/
structure Response.Alike (r r' : Response) : Prop where
  status : r.status = r'.status
  body : r.body = r'.body ∨
    (∃ l l', r.body = .mappings l ∧ r'.body = .mappings l' ∧ l.Perm l') ∨
    ∃ l l', r.body = .scopeMappings l ∧ r'.body = .scopeMappings l' ∧ l.Perm l'

theorem Response.Alike.refl (r : Response) : r.Alike r := ⟨rfl, Or.inl rfl⟩

/-- The same answer, up to the order of listed records: audit events and calls of the
generator are the same ones. -/
structure ServerAnswer.Alike (a a' : ServerAnswer κ) : Prop where
  response : a.response = a'.response ∨
    ∃ r r', a.response = .management r ∧ a'.response = .management r' ∧ r.Alike r'
  events : a.events = a'.events
  calls : a.calls = a'.calls

theorem ServerAnswer.Alike.refl (a : ServerAnswer κ) : a.Alike a := ⟨Or.inl rfl, rfl, rfl⟩

/-- A management request without an operation is answered without the store, over two
stores of any kind. -/
theorem answer_of_no_operation {σ τ : Type} [ResourceStore σ] [ResourceStore τ]
    {rt : JwtletRuntime κ} {ev : ServerEvent κ} (hop : ev.operation rt = none) {request : Request}
    (hrequest : ev.request = .management request) (store : σ) (store' : τ) :
    (rt.step store ev).1 = (rt.step store' ev).1 := by
  simp only [ServerEvent.operation, hrequest] at hop
  simp only [JwtletRuntime.step, hrequest, handleManagement]
  split
  · split <;> rfl
  · next hhealth =>
    rw [if_neg hhealth] at hop
    cases hpath : nestedPath request.path with
    | none => rfl
    | some path =>
        rw [hpath, Option.bind_some] at hop
        simp only [handleRequest_eq]
        cases hr : Request.operation (rt.managementState ev.outside) { request with path } with
        | error response => rfl
        | ok found =>
            rw [hr] at hop
            cases hop

section Agreement

variable {σ τ : Type} [PolicyStore σ] [PolicyStore τ] {store : σ} {store' : τ}

/-- Agreeing stores verify alike, since a verification looks at the policy and at nothing
else. -/
theorem verify_agree (h : Agree store store') (c x : String) (scopes : List String) :
    ResourceService.verify store c x scopes = ResourceService.verify store' c x scopes := by
  rw [ResourceService.verify_eq, ResourceService.verify_eq, h.1]

/-- Agreeing stores exchange alike: the response is the same, and so is the call of the
generator. -/
theorem tokenExchange_agree (h : Agree store store') (svc : TokenExchangeService)
    (env : Environment) (form : TokenExchangeForm) :
    tokenExchange svc store env form = tokenExchange svc store' env form := by
  simp only [tokenExchange_eq_phases, verify_agree h]

/-- An operation on agreeing stores: answers that are logged alike and give responses
alike, and agreement after it. -/
theorem operation_agree (h : Agree store store') (op : ServiceOp) (actor : String)
    (method : Method) :
    ((op.respond (op.perform store).1).forMethod method).Alike
        ((op.respond (op.perform store').1).forMethod method) ∧
      op.auditEvents actor (op.perform store).1 = op.auditEvents actor (op.perform store').1 ∧
      Agree (op.perform store).2 (op.perform store').2 := by
  have hsame : (op.perform store).1 = (op.perform store').1 →
      ((op.respond (op.perform store).1).forMethod method).Alike
        ((op.respond (op.perform store').1).forMethod method) ∧
      op.auditEvents actor (op.perform store).1 = op.auditEvents actor (op.perform store').1 := by
    intro heq
    rw [heq]
    exact ⟨Response.Alike.refl _, rfl⟩
  cases hop : op.accepted with
  | some w =>
      obtain ⟨hanswer, hagree⟩ := write_agree h w
      rw [perform_of_accepted hop, perform_of_accepted hop] at hsame ⊢
      obtain ⟨halike, hevents⟩ := hsame (congrArg ServiceAnswer.done hanswer)
      exact ⟨halike, hevents, hagree⟩
  | none =>
      rw [(perform_of_not_accepted hop store).1, (perform_of_not_accepted hop store').1,
        ← and_assoc]
      refine ⟨?_, h⟩
      cases op with
      | verify c x scopes => exact hsame (congrArg ServiceAnswer.verified (verify_agree h c x scopes))
      | listMappings =>
          obtain ⟨l, l', hl, hl', hperm⟩ := listMappings_agree h
          simp only [ServiceOp.perform, ResourceService.listMappings, hl, hl', ServiceOp.respond,
            Response.forMethod]
          refine ⟨?_, rfl⟩
          split
          · exact Response.Alike.refl _
          · exact ⟨rfl, Or.inr (Or.inl ⟨l, l', rfl, rfl, hperm⟩)⟩
      | listScopeMappings =>
          obtain ⟨l, l', hl, hl', hperm⟩ := listScopeMappings_agree h
          simp only [ServiceOp.perform, ResourceService.listScopeMappings, hl, hl',
            ServiceOp.respond, Response.forMethod]
          refine ⟨?_, rfl⟩
          split
          · exact Response.Alike.refl _
          · exact ⟨rfl, Or.inr (Or.inr ⟨l, l', rfl, rfl, hperm⟩)⟩
      | save m =>
          obtain ⟨e, he⟩ := passOn_eq_none_iff.mp hop
          exact hsame (by simp [ServiceOp.perform, ResourceService.save, he, writing])
      | update m =>
          obtain ⟨e, he⟩ := passOn_eq_none_iff.mp hop
          exact hsame (by simp [ServiceOp.perform, ResourceService.update, he, writing])
      | saveScopeMappings ms =>
          obtain ⟨e, he⟩ := passOn_eq_none_iff.mp hop
          exact hsame (by simp [ServiceOp.perform, ResourceService.saveScopeMappings, he, writing])
      | updateScopeMapping m =>
          obtain ⟨e, he⟩ := passOn_eq_none_iff.mp hop
          exact hsame (by simp [ServiceOp.perform, ResourceService.updateScopeMapping, he, writing])
      | remove c x => cases hop
      | removeFor c => cases hop
      | deleteScopeMapping s => cases hop

/-- A request without an operation is answered alike, on either port. -/
theorem answer_agree (rt : JwtletRuntime κ) (h : Agree store store') {ev : ServerEvent κ}
    (hop : ev.operation rt = none) : (rt.step store ev).1 = (rt.step store' ev).1 := by
  cases hrequest : ev.request with
  | management request => exact answer_of_no_operation hop hrequest store store'
  | exchange request =>
      simp only [JwtletRuntime.step, hrequest, handleExchange, tokenExchange_agree h]

/-- Agreeing stores give answers alike and agree after every request.  Agreement is the
simulation relation of the two runs. -/
theorem step_agree (rt : JwtletRuntime κ) (h : Agree store store') (ev : ServerEvent κ) :
    (rt.step store ev).1.Alike (rt.step store' ev).1 ∧
      Agree (rt.step store ev).2 (rt.step store' ev).2 := by
  cases hop : ev.operation rt with
  | none =>
      rw [answer_agree rt h hop, step_of_no_operation hop, step_of_no_operation hop]
      exact ⟨ServerAnswer.Alike.refl _, h⟩
  | some found =>
      obtain ⟨actor, op⟩ := found
      obtain ⟨request, hrequest, hstep⟩ := @step_of_operation κ σ _ rt ev actor op hop
      obtain ⟨request', hrequest', hstep'⟩ := @step_of_operation κ τ _ rt ev actor op hop
      rw [hrequest] at hrequest'
      cases hrequest'
      obtain ⟨halike, hevents, hagree⟩ := operation_agree h op actor request.method
      rw [hstep, hstep']
      exact ⟨⟨Or.inr ⟨_, _, rfl, rfl, halike⟩, hevents, rfl⟩, hagree⟩

end Agreement

namespace ResourceService

variable {σ : Type} [ResourceStore σ]

/-- `ResourceService::save`, with the validation meeting the scopes of the mapping in the
given order. -/
def saveIn (order : SetOrder) (store : σ) (mapping : ResourceMapping) :
    Except ResourceError Unit × σ :=
  match validateResourceMappingIn order mapping with
  | .error e => (.error e, store)
  | .ok () => ResourceStore.saveMapping store mapping

/-- `ResourceService::update`, in the same way. -/
def updateIn (order : SetOrder) (store : σ) (mapping : ResourceMapping) :
    Except ResourceError Unit × σ :=
  match validateResourceMappingIn order mapping with
  | .error e => (.error e, store)
  | .ok () => ResourceStore.updateMapping store mapping

end ResourceService

/-- `perform` with the order in which a validation meets the scopes of a mapping.  The
other operations meet no set. -/
def ServiceOp.performIn {σ : Type} [ResourceStore σ] (order : SetOrder) (store : σ) :
    ServiceOp → ServiceAnswer × σ
  | .save m => writing (ResourceService.saveIn order store m)
  | .update m => writing (ResourceService.updateIn order store m)
  | op => op.perform store

/-- The step of the server with that order: a request that performs an operation has it
performed so, and gets its response.  Any other request is handled as before. -/
def JwtletRuntime.stepIn {σ : Type} [ResourceStore σ] (rt : JwtletRuntime κ) (store : σ)
    (i : SetOrder × ServerEvent κ) : ServerAnswer κ × σ :=
  match i.2.operation rt, i.2.request with
  | some (actor, op), .management request =>
      let r := op.performIn i.1 store
      ({ response := .management ((op.respond r.1).forMethod request.method)
         events := op.auditEvents actor r.1 }, r.2)
  | _, _ => rt.step store i.2

/-- In ascending order the operation is the one that the service performs. -/
theorem performIn_ascending {σ : Type} [ResourceStore σ] (op : ServiceOp) (store : σ) :
    op.performIn ascendingOrder store = op.perform store := by
  cases op <;> rfl

/-- In ascending order it is the step of the server, so what is shown of every order is
shown of that step too. -/
theorem stepIn_ascending {σ : Type} [ResourceStore σ] (rt : JwtletRuntime κ) (store : σ)
    (ev : ServerEvent κ) : rt.stepIn store (ascendingOrder, ev) = rt.step store ev := by
  rw [JwtletRuntime.stepIn]
  split
  · next actor op request hop hrequest =>
    obtain ⟨request', hrequest', hstep⟩ := @step_of_operation κ σ _ rt ev actor op hop
    rw [hrequest] at hrequest'
    cases hrequest'
    rw [hstep, performIn_ascending]
  · rfl

/-- The answer to a mapping with the scope `s`, which is not valid: a refusal whose
message quotes the scope. -/
def scopeRefusal (s : String) : ServerAnswer κ :=
  { response := .management (ManagementApiError.resource (.invalidMapping
      ("scope '" ++ s ++ "' must be non-empty and contain no whitespace"))).intoResponse }

/-- Two answers to a request that differ in nothing but what Rust leaves open: the order
of listed records, and which scope that is not valid the refusal of a mapping names. -/
inductive ServerAnswer.AlikeFor (rt : JwtletRuntime κ) (ev : ServerEvent κ) :
    ServerAnswer κ → ServerAnswer κ → Prop
  | alike {a a' : ServerAnswer κ} (h : a.Alike a') : AlikeFor rt ev a a'
  | refused {actor : String} {op : ServiceOp} {m : ResourceMapping} {s s' : String}
      (hop : ev.operation rt = some (actor, op)) (hkind : op = .save m ∨ op = .update m)
      (hs : s ∈ m.scopes) (hinvalid : ¬ ValidScopeName s)
      (hs' : s' ∈ m.scopes) (hinvalid' : ¬ ValidScopeName s') :
      AlikeFor rt ev (scopeRefusal s) (scopeRefusal s')

/-- Answers that are alike in this way have the same calls of the generator, for a refusal
of a mapping has none. -/
theorem ServerAnswer.AlikeFor.calls {rt : JwtletRuntime κ} {ev : ServerEvent κ}
    {a a' : ServerAnswer κ} (h : a.AlikeFor rt ev a') : a.calls = a'.calls := by
  cases h with
  | alike h => exact h.calls
  | refused => rfl

/-- What the order decides about an operation that validates a mapping: nothing, or at which
of its scopes the validation ends.  `next` is what the store makes of a valid mapping. -/
theorem performIn_cases_of {op : ServiceOp} {m : ResourceMapping}
    (hkind : op = .save m ∨ op = .update m)
    (hperform : ∀ {σ : Type} [ResourceStore σ] (store : σ), ∃ next, ∀ order : SetOrder,
      op.performIn order store = writing (match validateResourceMappingIn order m with
        | .error e => (.error e, store)
        | .ok () => next)) :
    (∀ {σ : Type} [ResourceStore σ] (order : SetOrder), order.Lawful → ∀ store : σ,
      op.performIn order store = op.perform store) ∨
    ∃ m, (op = .save m ∨ op = .update m) ∧
      ∀ order : SetOrder, order.Lawful → ∃ s ∈ m.scopes, ¬ ValidScopeName s ∧
        ∀ {σ : Type} [ResourceStore σ] (store : σ),
          op.performIn order store = (.done (validateScopeName s), store) := by
  rcases validateResourceMappingIn_cases m with hsame | hnamed
  · left
    intro σ _ order horder store
    obtain ⟨next, hnext⟩ := hperform store
    rw [← performIn_ascending op, hnext, hnext, hsame order horder,
      hsame ascendingOrder ascendingOrder_lawful]
  · right
    refine ⟨m, hkind, ?_⟩
    intro order horder
    obtain ⟨s, hs, hinvalid, herror⟩ := hnamed order horder
    rw [validateScopeName_of_not_valid hinvalid] at herror
    refine ⟨s, hs, hinvalid, ?_⟩
    intro σ _ store
    obtain ⟨next, hnext⟩ := hperform store
    rw [validateScopeName_of_not_valid hinvalid, hnext, herror]
    rfl

/-- What the order decides about an operation: nothing, or at which scope of its mapping
the validation ends. -/
theorem performIn_cases (op : ServiceOp) :
    (∀ {σ : Type} [ResourceStore σ] (order : SetOrder), order.Lawful → ∀ store : σ,
      op.performIn order store = op.perform store) ∨
    ∃ m, (op = .save m ∨ op = .update m) ∧
      ∀ order : SetOrder, order.Lawful → ∃ s ∈ m.scopes, ¬ ValidScopeName s ∧
        ∀ {σ : Type} [ResourceStore σ] (store : σ),
          op.performIn order store = (.done (validateScopeName s), store) := by
  cases op with
  | save m => exact performIn_cases_of (Or.inl rfl) fun _ => ⟨_, fun _ => rfl⟩
  | update m => exact performIn_cases_of (Or.inr rfl) fun _ => ⟨_, fun _ => rfl⟩
  | _ => exact Or.inl fun _ _ _ => rfl

/-- A refusal that names a scope, as the response to a request: no event is logged, and no
token issued. -/
theorem answer_of_refused {op : ServiceOp} {s : String} (hinvalid : ¬ ValidScopeName s)
    (actor : String) (method : Method) (hmethod : method ≠ .head) :
    ({ response := .management
         ((op.respond (.done (validateScopeName s))).forMethod method)
       events := op.auditEvents actor (.done (validateScopeName s)) } : ServerAnswer κ) =
      scopeRefusal s := by
  rw [validateScopeName_of_not_valid hinvalid, Response.forMethod, if_neg hmethod]
  rfl

section Backends

variable {σ τ : Type} [PolicyStore σ] [PolicyStore τ] {store : σ} {store' : τ}

/-- Agreeing stores give answers alike, whatever the orders, and agree after every
request. -/
theorem stepIn_agree (rt : JwtletRuntime κ) (h : Agree store store') {order order' : SetOrder}
    (horder : order.Lawful) (horder' : order'.Lawful) (ev : ServerEvent κ) :
    (rt.stepIn store (order, ev)).1.AlikeFor rt ev (rt.stepIn store' (order', ev)).1 ∧
      Agree (rt.stepIn store (order, ev)).2 (rt.stepIn store' (order', ev)).2 := by
  cases hop : ev.operation rt with
  | none =>
      have hagree := step_agree rt h ev
      simp only [JwtletRuntime.stepIn, hop]
      exact ⟨.alike hagree.1, hagree.2⟩
  | some found =>
      obtain ⟨actor, op⟩ := found
      obtain ⟨request, hrequest, -⟩ := @step_of_operation κ σ _ rt ev actor op hop
      simp only [JwtletRuntime.stepIn, hop, hrequest]
      rcases performIn_cases op with hsame | ⟨m, hkind, hnamed⟩
      · obtain ⟨halike, hevents, hagree⟩ := operation_agree h op actor request.method
        rw [hsame order horder, hsame order' horder']
        exact ⟨.alike ⟨Or.inr ⟨_, _, rfl, rfl, halike⟩, hevents, rfl⟩, hagree⟩
      · obtain ⟨s, hs, hinvalid, hfirst⟩ := hnamed order horder
        obtain ⟨s', hs', hinvalid', hsecond⟩ := hnamed order' horder'
        rw [hfirst, hsecond]
        refine ⟨?_, h⟩
        by_cases hmethod : request.method = .head
        · -- No route of `HEAD` writes, and if it did, the response would have no body.
          refine .alike ⟨Or.inl ?_, ?_, rfl⟩
          · rw [validateScopeName_of_not_valid hinvalid, validateScopeName_of_not_valid hinvalid',
              hmethod]
            rfl
          · rw [validateScopeName_of_not_valid hinvalid, validateScopeName_of_not_valid hinvalid']
            rfl
        · simp only [answer_of_refused hinvalid actor _ hmethod,
            answer_of_refused hinvalid' actor _ hmethod]
          exact .refused hop hkind hs hinvalid hs' hinvalid'

end Backends

/-- A request that is made to two servers, with the orders in which their sets happen to
be met.  Nothing ties the two orders together. -/
structure TwinRequest (κ : Type) where
  ev : ServerEvent κ
  order : SetOrder
  order' : SetOrder
  lawful : order.Lawful
  lawful' : order'.Lawful

/-- **The backend is unobservable.**  Run the same requests from empty stores over memory
and over Postgres, with each set in whichever order either server happens to meet it.
Every request gets the same answer from both, up to what Rust leaves open: the same
status, audit events and calls of the generator, and the same body up to the order of
listed records and up to which invalid scope a refusal names.  As everywhere, the
database stores texts and JSON values as they are written. -/
theorem backend_unobservable (rt : JwtletRuntime κ) (requests : List (TwinRequest κ)) :
    List.Forall₂ (fun e e' => e.1 = e'.1 ∧ e.2.AlikeFor rt e.1.ev e'.2)
      (history (fun store r => rt.stepIn store (r.order, r.ev)) MemoryResourceStore.new requests)
      (history (fun db r => rt.stepIn db (r.order', r.ev)) PostgresResourceStore.initialized
        requests) :=
  (simulation (R := Agree) (A := fun r => ServerAnswer.AlikeFor rt r.ev)
    (fun _ _ r h => stepIn_agree rt h r.lawful r.lawful' r.ev) agree_empty requests).1

end Jwtlet
