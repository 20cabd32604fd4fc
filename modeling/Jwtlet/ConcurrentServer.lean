import Jwtlet.ExchangePhases
import Jwtlet.SingleAccess
import Jwtlet.TokenProvenance

/-!
# Concurrent requests

The server handles requests concurrently.  Over the memory store a request touches
the store at most once, under its lock: routing, decoding and the verification of
the bearer or subject token come before, the clock, the generator and the audit
events after.  `serverHandling` cuts `JwtletRuntime.step` into these phases.

So any interleaving of requests is a run of the sequential server in the order of
the accesses (`concurrent_requests_linearizable`), and what holds of sequential
runs holds here: a removal that was answered is in force for every token request
that begins later (`no_token_after_removal`).
-/

namespace Jwtlet

open Rust Machine SingleAccess

variable {κ : Type}

/-- A request that is about to touch the store, with all that it needs from then on: the
claims of its verified client, or the operation of its verified caller. -/
inductive PreparedRequest where
  | exchange (form : TokenExchangeForm) (clientClaims : TokenClaims)
  | operation (actor : String) (op : ServiceOp) (method : Method)

/-- A request that has touched the store, and has what it read there in hand. -/
inductive AccessedRequest where
  | exchange (form : TokenExchangeForm) (clientClaims : TokenClaims)
      (verification : Except ResourceError VerificationResult)
  | operation (actor : String) (op : ServiceOp) (method : Method) (answer : ServiceAnswer)

/-- A request up to the store, or the answer that ends it before.  Tokens are verified in
this phase, outside of any lock. -/
def prepareRequest (rt : JwtletRuntime κ) (ev : ServerEvent κ) :
    Except (ServerAnswer κ) PreparedRequest :=
  match ev.request with
  | .exchange request =>
      match request.route with
      | .error code => .error { response := .status code }
      | .ok .health => .error { response := ServerResponse.health.forMethod request.method }
      | .ok .getSwkSet =>
          .error { response := (ServerResponse.jwkSet ev.outside.jwkSet).forMethod request.method }
      | .ok .getAuthorizationServerMetadata =>
          .error { response := (ServerResponse.metadata rt.metadata).forMethod request.method }
      | .ok .tokenExchange =>
          match request.form with
          | .error r => .error { response := .rejection r.status }
          | .ok pairs =>
              match TokenExchangeForm.deserialize pairs with
              | none => .error { response := .rejection .unprocessableEntity }
              | some form =>
                  match prepareExchange (rt.exchangeService ev.outside) form with
                  | .error response => .error { response := .token response }
                  | .ok clientClaims => .ok (.exchange form clientClaims)
  | .management request =>
      if request.path = "/health" then
        if request.method = .get ∨ request.method = .head then
          .error { response := ServerResponse.health.forMethod request.method }
        else .error { response := .status .methodNotAllowed }
      else
        match nestedPath request.path with
        | none => .error { response := .status .notFound }
        | some path =>
            match Request.operation (rt.managementState ev.outside) { request with path } with
            | .error response => .error { response := .management response }
            | .ok (actor, op) => .ok (.operation actor op request.method)

/-- The access to the store: the verification of an exchange, which only reads, or one
operation of the service. -/
def accessStore (store : InnerStore) : PreparedRequest → AccessedRequest × InnerStore
  | .exchange form clientClaims =>
      (.exchange form clientClaims
        (ResourceService.verify store clientClaims.sub form.resource form.scopeSet.toList), store)
  | .operation actor op method =>
      (.operation actor op method (op.perform store).1, (op.perform store).2)

/-- A request from the answer of the store on.  The token is generated here, from what was
read then, even if the store is another one by now. -/
def finishRequest (rt : JwtletRuntime κ) (ev : ServerEvent κ) : AccessedRequest → ServerAnswer κ
  | .exchange form clientClaims verification =>
      let (response, calls) := finishExchange (rt.exchangeService ev.outside) ev.outside.env form
        clientClaims verification
      { response := .token response, calls }
  | .operation actor op method answer =>
      { response := .management ((op.respond answer).forMethod method)
        events := op.auditEvents actor answer }

/-- How the server handles a request over the memory store: three phases, of which the
middle one is atomic. -/
def serverHandling (rt : JwtletRuntime κ) :
    Handling InnerStore (ServerEvent κ) PreparedRequest AccessedRequest (ServerAnswer κ) where
  prepare := prepareRequest rt
  access := accessStore
  finish := finishRequest rt

/-- **The phases of a request are the request.** Run without interruption they are the
step of the sequential server, on every input and every store. -/
theorem serve_eq_step (rt : JwtletRuntime κ) :
    (serverHandling rt).serve = fun store ev => rt.step store ev := by
  funext store ev
  obtain ⟨request, outside⟩ := ev
  rw [Handling.serve]
  simp only [serverHandling, prepareRequest]
  cases request with
  | exchange request =>
      simp only [JwtletRuntime.step, handleExchange]
      cases request.route with
      | error code => rfl
      | ok handler =>
          cases handler with
          | health => rfl
          | getSwkSet => rfl
          | getAuthorizationServerMetadata => rfl
          | tokenExchange =>
              cases request.form with
              | error r => rfl
              | ok pairs =>
                  simp only
                  cases TokenExchangeForm.deserialize pairs with
                  | none => rfl
                  | some form =>
                      simp only [tokenExchange_eq_phases]
                      cases prepareExchange (rt.exchangeService outside) form <;> rfl
  | management request =>
      simp only [JwtletRuntime.step, handleManagement]
      by_cases hhealth : request.path = "/health"
      · by_cases hmethod : request.method = .get ∨ request.method = .head
        · simp only [if_pos hhealth, if_pos hmethod]
        · simp only [if_pos hhealth, if_neg hmethod]
      · simp only [if_neg hhealth]
        cases nestedPath request.path with
        | none => rfl
        | some path =>
            simp only [handleRequest_eq]
            cases Request.operation (rt.managementState outside) { request with path } with
            | error response => rfl
            | ok found =>
                simp only [ServiceOp.outcome, Outcome.forMethod, Response.forMethod, accessStore,
                  finishRequest]
                split <;> rfl

/-- The run of concurrent requests is a sequential run of the server, over the same
requests in the order in which they were decided. -/
structure ServerLinearized (rt : JwtletRuntime κ)
    (past : Past (ServerEvent κ) (ServerAnswer κ)) (store : InnerStore) : Prop where
  /-- The decisions are what the server answers to the same requests one by one. -/
  answers : rt.historyOf ((decisionsOf past).map Decision.input) =
    (decisionsOf past).map fun q => (q.input, q.answer)
  effect : rt.storeAfter ((decisionsOf past).map Decision.input) = store
  /-- Every answered request is decided once, after it began and before its answer,
  with that answer. -/
  placed : ∀ id answer, .answered id answer ∈ past.map Prod.snd → ∃ ev,
    notesFor id past =
      [.began id ev, .decided { id, input := ev, answer }, .answered id answer]
  /-- A request that is answered before another begins is decided before it. -/
  order : ∀ before later : Past (ServerEvent κ) (ServerAnswer κ), past = before ++ later →
    ∀ id answer id' ev', .answered id answer ∈ before.map Prod.snd →
      .began id' ev' ∈ later.map Prod.snd →
      (∃ ev, { id, input := ev, answer } ∈ decisionsOf before) ∧
        ∀ q ∈ decisionsOf before, q.id ≠ id'

/-- A run of concurrent requests from an empty store, as the list of what was seen of it:
requests that began, decisions, and answers. -/
def JwtletRuntime.pastOf (rt : JwtletRuntime κ) (events : List (SingleAccess.Event (ServerEvent κ))) :
    Past (ServerEvent κ) (ServerAnswer κ) :=
  history (serverHandling rt).step (Tasks.initial MemoryResourceStore.new) events

/-- A decision as an entry of the sequential history: the request with the answer that it
was decided to have. -/
def decisionEntry (q : Decision (ServerEvent κ) (ServerAnswer κ)) : ServerEntry κ :=
  (q.input, q.answer)

/-- The decisions of a concurrent run are a run of the sequential server, which ends in
the store that the concurrent one has reached. -/
theorem decisions_of_pastOf (rt : JwtletRuntime κ)
    (events : List (SingleAccess.Event (ServerEvent κ))) :
    rt.historyOf ((decisionsOf (rt.pastOf events)).map Decision.input) =
        (decisionsOf (rt.pastOf events)).map decisionEntry ∧
      rt.storeAfter ((decisionsOf (rt.pastOf events)).map Decision.input) =
        (after (serverHandling rt).step (Tasks.initial MemoryResourceStore.new) events).shared := by
  have hreplay := decisions_replay (serverHandling rt) MemoryResourceStore.new events
  rw [serve_eq_step] at hreplay
  exact hreplay

/-- **Concurrent requests are linearizable.**  For any number of concurrent requests
to both ports and any interleaving of their phases, the requests have, in the order
in which they are decided, the answers, the audit events and the calls of the
generator of a sequential run of the server, which ends in the same store.  Every
request is decided between its beginning and its answer, so requests that do not
overlap keep their order. -/
theorem concurrent_requests_linearizable (rt : JwtletRuntime κ)
    (events : List (SingleAccess.Event (ServerEvent κ))) :
    ServerLinearized rt (rt.pastOf events)
      (after (serverHandling rt).step (Tasks.initial MemoryResourceStore.new) events).shared := by
  obtain ⟨hanswers, heffect⟩ := decisions_of_pastOf rt events
  exact ⟨hanswers, heffect, fun id answer h => notesFor_of_answered h,
    fun before later hpast id answer id' ev' hanswered hbegan =>
      decided_before hpast hanswered hbegan⟩

/-- A token is decided on what the decisions before it have put in force, and on nothing
that came later. -/
theorem permitted_of_decision {rt : JwtletRuntime κ}
    {events : List (SingleAccess.Event (ServerEvent κ))}
    {l r : List (Decision (ServerEvent κ) (ServerAnswer κ))}
    {q : Decision (ServerEvent κ) (ServerAnswer κ)}
    (h : decisionsOf (rt.pastOf events) = l ++ q :: r) {form : TokenExchangeForm}
    (hform : q.input.tokenForm = some form) (hcalls : q.answer.calls ≠ []) :
    ∃ c m, Permitted rt (l.map decisionEntry) q.input.outside form c m := by
  have hhistory := (decisions_of_pastOf rt events).1
  rw [h, List.map_append, List.map_cons, List.map_append, List.map_cons] at hhistory
  have hpast := history_of_append hhistory
  have hanswer := answer_of_history hhistory
  obtain ⟨call, hcall⟩ := List.exists_mem_of_ne_nil _ hcalls
  have hinputs : rt.historyOf ((l.map decisionEntry).map Prod.fst) = l.map decisionEntry :=
    hpast.symm
  change q.answer = (rt.step (rt.storeAfter ((l.map decisionEntry).map Prod.fst)) q.input).1
    at hanswer
  rw [hanswer, step_of_tokenForm hform] at hcall
  obtain ⟨c, m, hpermitted, -⟩ := issuedFrom_of_call hcall
  rw [hinputs] at hpermitted
  exact ⟨c, m, hpermitted⟩

/-- The mapping covers the form: it has the requested scopes, and it permits the audience,
be it the requested one or the default. -/
def Covers (rt : JwtletRuntime κ) (m : ResourceMapping) (form : TokenExchangeForm) : Prop :=
  (∀ s ∈ form.requestedScopes, s ∈ m.scopes) ∧
    m.PermitsAudience rt.tokenService.audience (form.audience.getD rt.tokenService.audience)

/-- A request that takes back what the form rests on: it removes the mapping of `c` in
`x`, or all mappings of `c`, or it has put a mapping in its place that does not cover
the form. -/
def TakesBack (rt : JwtletRuntime κ) (c x : String) (form : TokenExchangeForm)
    (e : ServerEntry κ) : Prop :=
  Revokes rt c x e ∨ ∃ m, Grants rt c x m e ∧ ¬ Covers rt m form

/-- Requests that put a mapping put the one in their operation, so that no request grants
two. -/
theorem grants_unique {rt : JwtletRuntime κ} {e : ServerEntry κ} {c x : String}
    {m m' : ResourceMapping} (h : Grants rt c x m e) (h' : Grants rt c x m' e) : m = m' := by
  obtain ⟨actor, op, hop, hkind, -⟩ := h
  obtain ⟨actor', op', hop', hkind', -⟩ := h'
  rw [hop] at hop'
  cases hop'
  rcases hkind with rfl | rfl
  · rcases hkind' with h | h <;> cases h
    rfl
  · rcases hkind' with h | h <;> cases h
    rfl

/-- A removal grants nothing, since it is another operation. -/
theorem not_grants_of_revokes {rt : JwtletRuntime κ} {e : ServerEntry κ} {c x : String}
    {m : ResourceMapping} (h : Revokes rt c x e) : ¬ Grants rt c x m e := by
  intro hgrants
  obtain ⟨actor, op, hop, hkind⟩ := h
  obtain ⟨actor', op', hop', hkind', -⟩ := hgrants
  rw [hop] at hop'
  cases hop'
  rcases hkind with rfl | rfl <;> rcases hkind' with h | h <;> cases h

/-- What takes back does not grant a mapping that covers the form.  This is what rules the
decided request out as the origin of a later token. -/
theorem not_grants_of_takesBack {rt : JwtletRuntime κ} {e : ServerEntry κ} {c x : String}
    {form : TokenExchangeForm} {m : ResourceMapping} (h : TakesBack rt c x form e)
    (hm : Covers rt m form) : ¬ Grants rt c x m e := by
  rcases h with hrevokes | ⟨m', hgrants', hshort⟩
  · exact not_grants_of_revokes hrevokes
  · intro hgrants
    rw [grants_unique hgrants' hgrants] at hshort
    exact hshort hm

/-- A run of concurrent requests, cut in two: in the first part the request `id` is
answered and takes back what the form rests on, and in the second the request `id'`,
with that form and of that client, is answered with a token. -/
structure TokenAfterRemoval (rt : JwtletRuntime κ)
    (before later : Past (ServerEvent κ) (ServerAnswer κ)) (id id' : Nat) (c x : String)
    (request : ServerEvent κ) (form : TokenExchangeForm) : Prop where
  removed : ∃ removal answer, .began id removal ∈ before.map Prod.snd ∧
    .answered id answer ∈ before.map Prod.snd ∧ TakesBack rt c x form (removal, answer)
  asked : request.tokenForm = some form
  client : ∃ client, request.outside.verifier rt.tokenService.clientAudience form.subjectToken =
    .ok client ∧ (client.sub, form.resource) = (c, x)
  issued : ∃ answer, .answered id' answer ∈ later.map Prod.snd ∧ answer.calls ≠ []

/-- A mapping that covers the form was granted after the request `id` was decided and
before the request `id'` was. -/
def GrantedBetween (rt : JwtletRuntime κ)
    (decisions : List (Decision (ServerEvent κ) (ServerAnswer κ))) (id id' : Nat) (c x : String)
    (form : TokenExchangeForm) : Prop :=
  ∃ l₁ d l₂ g l₃ q l₄, decisions = l₁ ++ d :: (l₂ ++ g :: (l₃ ++ q :: l₄)) ∧
    d.id = id ∧ q.id = id' ∧ ∃ m, Grants rt c x m (decisionEntry g) ∧ Covers rt m form

/-- **No token after a removal.**  In any interleaving of requests, take a request that
removes the mapping of a client in a context, removes all its mappings, or narrows the
mapping so that it no longer covers a form, and a token request with that form that
begins after the first was answered.  If the token request reaches the generator, then
another request granted a mapping that covers the form after the removal was decided
and before the token request was. -/
theorem no_token_after_removal (rt : JwtletRuntime κ)
    (events : List (SingleAccess.Event (ServerEvent κ)))
    (before later : Past (ServerEvent κ) (ServerAnswer κ))
    (hpast : rt.pastOf events = before ++ later) (id id' : Nat) (c x : String)
    (request : ServerEvent κ) (form : TokenExchangeForm)
    (h : TokenAfterRemoval rt before later id id' c x request form)
    (hbegan : .began id' request ∈ later.map Prod.snd) :
    GrantedBetween rt (decisionsOf (rt.pastOf events)) id id' c x form := by
  obtain ⟨removal, answer, hremoval, hanswered, htakes⟩ := h.removed
  obtain ⟨client, hclient, hkey⟩ := h.client
  obtain ⟨issued, hissued, hcalls⟩ := h.issued
  -- The removal is decided in the first part, the token request in the second.
  have hd := decided_in_first hpast hremoval hanswered
  have hq := decided_in_second hpast hbegan hissued
  obtain ⟨l₁, l, hbefore⟩ := List.append_of_mem hd
  obtain ⟨r, l₄, hlater⟩ := List.append_of_mem hq
  have hsplit : decisionsOf (rt.pastOf events) =
      (l₁ ++ { id, input := removal, answer } :: (l ++ r)) ++
        { id := id', input := request, answer := issued } :: l₄ := by
    rw [hpast, decisionsOf_append, hbefore, hlater]
    simp
  obtain ⟨c', m, hpermitted⟩ := permitted_of_decision hsplit h.asked hcalls
  have hc : c' = client := Except.ok.inj (hpermitted.verified.symm.trans hclient)
  subst hc
  obtain ⟨rfl, rfl⟩ := Prod.mk.inj hkey
  have hcovers : Covers rt m form := ⟨hpermitted.scopes, hpermitted.audience⟩
  have hmapping := hpermitted.mapping
  rw [List.map_append, List.map_cons] at hmapping
  have hcut : (∃ m', Grants rt c'.sub form.resource m' (removal, answer)) ∨
      Revokes rt c'.sub form.resource (removal, answer) := by
    rcases htakes with hrevokes | ⟨m', hgrants, -⟩
    · exact Or.inr hrevokes
    · exact Or.inl ⟨m', hgrants⟩
  have hlate : MappingInForce rt ((l ++ r).map decisionEntry) c'.sub form.resource m :=
    unrevoked_after_cut hcut (not_grants_of_takesBack htakes hcovers) hmapping
  obtain ⟨r₁, g, r₂, hlist, hgrants, -⟩ := hlate
  obtain ⟨l₂, rest, hlr, rfl, hrest⟩ := List.map_eq_append_iff.mp hlist
  obtain ⟨g', l₃, rfl, rfl, rfl⟩ := List.map_eq_cons_iff.mp hrest
  refine ⟨l₁, { id, input := removal, answer }, l₂, g', l₃,
    { id := id', input := request, answer := issued }, l₄, ?_, rfl, rfl, m, hgrants, hcovers⟩
  rw [hsplit, hlr]
  simp

/-- All phases of one request, without interruption, as in a server that has nothing else
to do. -/
def wholeRequest (id : Nat) (ev : ServerEvent Unit) :
    List (SingleAccess.Event (ServerEvent Unit)) :=
  [.arrive id ev, .advance id, .advance id, .advance id]

/-- The client is allowed to read in `ctx` and loses it again, before anything else
happens. -/
def removalEvents : List (SingleAccess.Event (ServerEvent Unit)) :=
  wholeRequest 0 createScopeEvent ++ wholeRequest 1 createMappingEvent ++
    wholeRequest 2 deleteMappingEvent

/-- The mapping is created again while the client asks for a token: the creation is
decided in the middle of the request for the token. -/
def renewalEvents : List (SingleAccess.Event (ServerEvent Unit)) :=
  [.arrive 3 createMappingEvent, .advance 3, .arrive 4 exchangeEvent, .advance 4, .advance 3,
    .advance 4, .advance 4, .advance 3]

/-- The form of the sample client, for which the mapping of `ctx` is decisive.  Its scopes
and its audience do not matter in this. -/
theorem sampleForm_client : ∃ form, exchangeEvent.tokenForm = some form ∧
    ∃ client, exchangeEvent.outside.verifier sampleRuntime.tokenService.clientAudience
      form.subjectToken = .ok client ∧ (client.sub, form.resource) = ("client", "ctx") := by
  have hfields : exchangeEvent.tokenForm.map (fun form => (form.subjectToken, form.resource)) =
      some ("sa-token", "ctx") := by decide +kernel
  obtain ⟨form, hform, hpair⟩ := Option.map_eq_some_iff.mp hfields
  obtain ⟨htoken, hresource⟩ := Prod.mk.inj hpair
  refine ⟨form, hform, sampleClient, ?_, ?_⟩
  · rw [htoken]
    decide +kernel
  · rw [hresource]
    rfl

/-- The token of request 4 is due to request 3, the renewal, and not to what request 2 had
taken away. -/
theorem no_token_after_removal_renewed : ∃ form,
    GrantedBetween sampleRuntime
      (decisionsOf (sampleRuntime.pastOf (removalEvents ++ renewalEvents))) 2 4 "client" "ctx"
      form := by
  obtain ⟨form, hform, hclient⟩ := sampleForm_client
  refine ⟨form, no_token_after_removal sampleRuntime (removalEvents ++ renewalEvents)
    (sampleRuntime.pastOf removalEvents) _ (history_append _ _ _) 2 4 "client" "ctx"
    exchangeEvent form ⟨⟨deleteMappingEvent, _, @List.mem_of_getElem? _ _ 8 _ rfl,
      @List.mem_of_getElem? _ _ 11 _ rfl, Or.inl ⟨"admin", .remove "client" "ctx", ?_, Or.inl rfl⟩⟩,
      hform, hclient, ⟨_, @List.mem_of_getElem? _ _ 6 _ rfl, ?_⟩⟩
    (@List.mem_of_getElem? _ _ 2 _ rfl)⟩
  · decide +kernel
  · decide +kernel

/-- The client asks for a token and has read the store before its mapping is removed;
the rest of its request follows. -/
def overtakenEvents : List (SingleAccess.Event (ServerEvent Unit)) :=
  wholeRequest 0 createScopeEvent ++ wholeRequest 1 createMappingEvent ++
    [.arrive 4 exchangeEvent, .advance 4, .advance 4] ++ wholeRequest 2 deleteMappingEvent

/-- **Only what begins later is refused.**  A token request that has begun before the
removal was answered may still be answered with a token, though nothing is granted any
more. -/
theorem token_overtaken_by_removal : ∃ before later form,
    sampleRuntime.pastOf (overtakenEvents ++ [.advance 4]) = before ++ later ∧
    TokenAfterRemoval sampleRuntime before later 2 4 "client" "ctx" exchangeEvent form ∧
    ¬ GrantedBetween sampleRuntime
      (decisionsOf (sampleRuntime.pastOf (overtakenEvents ++ [.advance 4]))) 2 4 "client" "ctx"
      form := by
  obtain ⟨form, hform, hclient⟩ := sampleForm_client
  refine ⟨sampleRuntime.pastOf overtakenEvents, _, form, history_append _ _ _,
    ⟨⟨deleteMappingEvent, _, @List.mem_of_getElem? _ _ 11 _ rfl, @List.mem_of_getElem? _ _ 14 _ rfl,
      Or.inl ⟨"admin", .remove "client" "ctx", ?_, Or.inl rfl⟩⟩, hform, hclient,
      ⟨_, @List.mem_of_getElem? _ _ 0 _ rfl, ?_⟩⟩, ?_⟩
  · decide +kernel
  · decide +kernel
  · -- The requests are decided in the order 0, 1, 4, 2.
    intro hgranted
    obtain ⟨l₁, d, l₂, g, l₃, q, l₄, hsplit, hd, hq, -⟩ := hgranted
    have hids : (decisionsOf (sampleRuntime.pastOf (overtakenEvents ++ [.advance 4]))).map
        Decision.id = [0, 1, 4, 2] := by decide +kernel
    have hlater : [4].Sublist ((l₂ ++ g :: (l₃ ++ q :: l₄)).map Decision.id) :=
      List.singleton_sublist.mpr (by simp [hq])
    have hboth : [2, 4].Sublist
        ((l₁ ++ d :: (l₂ ++ g :: (l₃ ++ q :: l₄))).map Decision.id) := by
      rw [List.map_append, List.map_cons, hd]
      exact (hlater.cons_cons 2).trans (List.sublist_append_right _ _)
    rw [hsplit] at hids
    rw [hids] at hboth
    exact absurd hboth (by decide)

end Jwtlet
