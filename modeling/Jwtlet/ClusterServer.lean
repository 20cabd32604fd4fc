import Jwtlet.ExchangePhases
import Jwtlet.K8sTokenReview
import Jwtlet.TokenProvenance

/-!
# The server in its cluster

The server as `jwtlet-server/src/assembly/mod.rs` puts it together: both ports verify
tokens by TokenReview, each with a verifier of its own that has its own cached
service-account token.  The step of the server now sends the reviews itself, with the
token that is cached at that moment, and the renewal loops replace the cached tokens
in between.

Such a run is a run of the server of `Server` (`cluster_refines`), so what a token
owes to the history it now owes to reviews: whom it names as actor is who the API
server said it was, in the same request, for the same token.

A review is sent when it is handed to the HTTP client, with its URL, bearer and body,
and the answer of the API server is what the client returns for it.  The client
follows redirects by itself: whom it then asks, and with what, is not modelled, and an
answer from there counts as the API server's, as it does for the code.
-/

namespace Jwtlet

open Rust Machine

variable {κ : Type}

/-- The verifier of the exchange service, or that of the management API.  They are
configured alike and share nothing else. -/
inductive Port where
  | exchange
  | management
  deriving DecidableEq

/-- The port at which a request arrives, and with it the verifier that it is going to
need. -/
def ServerRequest.port : ServerRequest → Port
  | .exchange _ => .exchange
  | .management _ => .management

/-- The audience and the token that a request has verified, if it gets so far.  On the
management port that is any request for a route, with whichever method, since the layer of
a route verifies before the method is looked at. -/
def ServerRequest.presented (rt : JwtletRuntime κ) : ServerRequest → Option (String × String)
  | .exchange request =>
      match request.route, request.form with
      | .ok .tokenExchange, .ok pairs =>
          (TokenExchangeForm.deserialize pairs).bind fun form =>
            if form.grantType = tokenExchangeGrantType ∧ form.subjectTokenType = issuedTokenType then
              some (rt.tokenService.clientAudience, form.subjectToken)
            else none
      | _, _ => none
  | .management request =>
      if request.path = "/health" then none
      else
        (nestedPath request.path).bind fun path =>
          match dispatch { request with path } with
          | .endpoint _ _ | .methodNotAllowed _ =>
              (extractBearerToken request.authorization).map fun token =>
                (rt.managementClientAudience, token)
          | .notFound => none

section Presented

variable {σ : Type} [ResourceStore σ] (rt : JwtletRuntime κ) (store : σ) (outside : Surroundings κ)
  (verifier : JwtVerifier)

/-- Two verifiers that say the same of the token that a form presents exchange it alike; a
form that is refused before its token is verified presents none. -/
theorem tokenExchange_of_presented {request : ExchangeRequest} {pairs : List (String × String)}
    {form : TokenExchangeForm} (hroute : request.route = .ok .tokenExchange)
    (hform : request.form = .ok pairs) (hpairs : TokenExchangeForm.deserialize pairs = some form)
    (h : ∀ audience token,
      (ServerRequest.exchange request).presented rt = some (audience, token) →
      verifier audience token = outside.verifier audience token) :
    tokenExchange (rt.exchangeService { outside with verifier }) store outside.env form =
      tokenExchange (rt.exchangeService outside) store outside.env form := by
  have hprepare : prepareExchange (rt.exchangeService { outside with verifier }) form =
      prepareExchange (rt.exchangeService outside) form := by
    rw [prepareExchange, prepareExchange]
    split
    · rfl
    · next hgrant =>
      split
      · rfl
      · next htype =>
        rw [not_not] at hgrant htype
        have hpresented : (ServerRequest.exchange request).presented rt =
            some (rt.tokenService.clientAudience, form.subjectToken) := by
          simp only [ServerRequest.presented, hroute, hform, hpairs, Option.bind_some, hgrant, htype,
            and_self, if_true]
        have hasked := h _ _ hpresented
        simp only [JwtletRuntime.exchangeService, hasked]
  rw [tokenExchange_eq_phases, tokenExchange_eq_phases, hprepare]
  rfl

/-- The authorization of a management request asks the verifier about its bearer token
only, and only for the management audience. -/
theorem authorizeWithRole_of_presented {request : Request} {role : String}
    (h : ∀ token, extractBearerToken request.authorization = some token →
      verifier rt.managementClientAudience token =
        outside.verifier rt.managementClientAudience token) :
    authorizeWithRole (rt.managementState { outside with verifier }) role request =
      authorizeWithRole (rt.managementState outside) role request := by
  rw [authorizeWithRole, authorizeWithRole]
  cases htoken : extractBearerToken request.authorization with
  | none => rfl
  | some token =>
      have hasked := h token htoken
      simp only [JwtletRuntime.managementState, accountState, hasked]

/-- Two verifiers that say the same of the bearer token of a request for a route have
it handled alike; a request for no route is answered without asking either. -/
theorem handleRequest_of_presented {request : Request}
    (h : ∀ token, dispatch request ≠ .notFound →
      extractBearerToken request.authorization = some token →
      verifier rt.managementClientAudience token =
        outside.verifier rt.managementClientAudience token) :
    handleRequest (rt.managementState { outside with verifier }) store request =
      handleRequest (rt.managementState outside) store request := by
  rw [handleRequest, handleRequest]
  cases hd : dispatch request with
  | notFound => rfl
  | methodNotAllowed role =>
      have hadmitted := @authorizeWithRole_of_presented κ rt outside verifier request role
        fun token htoken => h token (by rw [hd]; exact Dispatch.noConfusion) htoken
      simp only [hadmitted]
  | endpoint e params =>
      have hadmitted := @authorizeWithRole_of_presented κ rt outside verifier request
        e.requiredRole fun token htoken => h token (by rw [hd]; exact Dispatch.noConfusion) htoken
      simp only [hadmitted]
      rfl

/-- **A request asks its verifier once.**  The answer and the store depend on the
verifier only through what it says of the presented token. -/
theorem step_of_presented (request : ServerRequest)
    (h : ∀ audience token, request.presented rt = some (audience, token) →
      verifier audience token = outside.verifier audience token) :
    rt.step store { request, outside := { outside with verifier } } =
      rt.step store { request, outside } := by
  cases request with
  | exchange request =>
      simp only [JwtletRuntime.step, handleExchange]
      cases hroute : request.route with
      | error code => rfl
      | ok handler =>
          cases handler with
          | health => rfl
          | getSwkSet => rfl
          | getAuthorizationServerMetadata => rfl
          | tokenExchange =>
              cases hform : request.form with
              | error r => rfl
              | ok pairs =>
                  simp only
                  cases hpairs : TokenExchangeForm.deserialize pairs with
                  | none => rfl
                  | some form =>
                      simp only [tokenExchange_of_presented rt store outside verifier hroute hform
                        hpairs h]
  | management request =>
      simp only [JwtletRuntime.step, handleManagement]
      by_cases hhealth : request.path = "/health"
      · simp only [if_pos hhealth]
      · simp only [if_neg hhealth]
        cases hpath : nestedPath request.path with
        | none => rfl
        | some path =>
            have hasked : ∀ token, dispatch { request with path } ≠ .notFound →
                extractBearerToken request.authorization = some token →
                verifier rt.managementClientAudience token =
                  outside.verifier rt.managementClientAudience token := by
              intro token hd htoken
              apply h
              simp only [ServerRequest.presented, if_neg hhealth, hpath, Option.bind_some]
              cases hdispatch : dispatch { request with path } with
              | notFound => exact absurd hdispatch hd
              | methodNotAllowed role => rw [htoken, Option.map_some]
              | endpoint e params => rw [htoken, Option.map_some]
            simp only [handleRequest_of_presented rt store outside verifier hasked]

end Presented

/-- The server with the verifier that `create_k8s_verifier` builds, once for each port.
What differs between the two is the token that each has cached. -/
structure ClusterRuntime (κ : Type) where
  server : JwtletRuntime κ
  verifier : K8sTokenReviewVerifier

/-- What one request meets outside: the token file may be read once while it is handled,
and the API server answers the reviews it is sent.  Those answers are what the HTTP client
returns in the end, after redirects that it may have followed. -/
structure ClusterSurroundings (κ : Type) where
  env : Environment
  generator : JwtGenerator
  jwkSet : κ
  file : Except String String
  apiServer : Nat → SentReview → ReviewAnswer

/-- What can happen next: a request to either port, or the step of a renewal loop. -/
inductive ClusterInput (κ : Type) where
  | request (request : ServerRequest) (outside : ClusterSurroundings κ)
  /-- The renewal loop of a verifier stores what it read from the file. -/
  | renewal (port : Port) (raw : String)

/-- The store, and the cached service-account token of each verifier.  A verifier without
a token does not occur after the start. -/
structure ClusterState where
  store : InnerStore
  cached : Port → Option String

/-- The request as the server of `Server` handles it, with its answer, and the reviews
that were sent for it, each with what came back. -/
structure ClusterAnswer (κ : Type) where
  served : Option (ServerEntry κ) := none
  reviews : List (SentReview × ReviewAnswer) := []

/-- An input of a run with what came of it. -/
abbrev ClusterEntry (κ : Type) := ClusterInput κ × ClusterAnswer κ

/-- After `initialize` of both verifiers, with what each read from the file, trimmed as
the code trims it. -/
def ClusterState.initial (contents : Port → String) : ClusterState where
  store := MemoryResourceStore.new
  cached := fun port => some (trim (contents port))

namespace ClusterRuntime

variable (rt : ClusterRuntime κ)

/-- A verification by the verifier of a port, which starts out with the token that is
cached at this moment. -/
def verification (s : ClusterState) (port : Port) (outside : ClusterSurroundings κ)
    (audience token : String) : Verification :=
  rt.verifier.verifyToken (s.cached port) outside.file outside.apiServer audience token

/-- The request with the answers of the verifier of its port, as the server that knows of
no cluster gets to see it. -/
def event (s : ClusterState) (request : ServerRequest) (outside : ClusterSurroundings κ) :
    ServerEvent κ where
  request
  outside :=
    { env := outside.env
      generator := outside.generator
      jwkSet := outside.jwkSet
      verifier := fun audience token =>
        (rt.verification s request.port outside audience token).result }

/-- One input.  A renewal replaces the cached token of one port; a request is served, and
the verification it makes may replace the token of its own port. -/
def step (s : ClusterState) : ClusterInput κ → ClusterAnswer κ × ClusterState
  | .renewal port raw => ({}, { s with cached := Function.update s.cached port (some (trim raw)) })
  | .request request outside =>
      let ev := rt.event s request outside
      let (answer, store) := rt.server.step s.store ev
      match request.presented rt.server with
      | none => ({ served := some (ev, answer) }, { s with store })
      | some (audience, token) =>
          let run := rt.verification s request.port outside audience token
          ({ served := some (ev, answer), reviews := run.exchanges },
            { store, cached := Function.update s.cached request.port run.state })

/-- The inputs of a run, with their answers, from the start on. -/
def historyOf (contents : Port → String) (inputs : List (ClusterInput κ)) :
    List (ClusterEntry κ) :=
  history rt.step (ClusterState.initial contents) inputs

/-- The state at the end of a run, with the store and the two cached tokens. -/
def stateAfter (contents : Port → String) (inputs : List (ClusterInput κ)) : ClusterState :=
  after rt.step (ClusterState.initial contents) inputs

end ClusterRuntime

/-- The requests of a history as the server handled them; the renewals leave nothing
there. -/
def servedPast (past : List (ClusterEntry κ)) : List (ServerEntry κ) :=
  past.flatMap fun e => e.2.served.toList

section Runs

variable {rt : ClusterRuntime κ}

/-- What a request does, with or without a verification: the server serves it, and if it
presents a token, the reviews are those of that token's verification. -/
theorem step_request (s : ClusterState) (request : ServerRequest) (outside : ClusterSurroundings κ) :
    (rt.step s (.request request outside)).1.served = some (rt.event s request outside,
        (rt.server.step s.store (rt.event s request outside)).1) ∧
      (rt.step s (.request request outside)).2.store =
        (rt.server.step s.store (rt.event s request outside)).2 ∧
      ∀ audience token, request.presented rt.server = some (audience, token) →
        (rt.step s (.request request outside)).1.reviews =
          (rt.verification s request.port outside audience token).exchanges := by
  simp only [ClusterRuntime.step]
  cases request.presented rt.server with
  | none =>
      refine ⟨rfl, rfl, ?_⟩
      intro audience token h
      cases h
  | some p =>
      obtain ⟨audience', token'⟩ := p
      refine ⟨rfl, rfl, ?_⟩
      intro audience token h
      cases h
      rfl

/-- **The cluster server is the server.**  A run of it serves a run of the server,
with the same answers and the same store. -/
theorem cluster_refines (contents : Port → String) (inputs : List (ClusterInput κ)) :
    rt.server.historyOf ((servedPast (rt.historyOf contents inputs)).map Prod.fst) =
        servedPast (rt.historyOf contents inputs) ∧
      rt.server.storeAfter ((servedPast (rt.historyOf contents inputs)).map Prod.fst) =
        (rt.stateAfter contents inputs).store := by
  have hrun := @linearization ClusterState (ClusterInput κ) (ClusterAnswer κ) rt.step InnerStore
    (ServerEvent κ) (ServerAnswer κ) rt.server.step (fun answer => answer.served.toList)
    (fun store s => store = s.store) ?_ MemoryResourceStore.new (ClusterState.initial contents) rfl
    inputs
  · exact hrun
  · intro store s i hstore
    subst hstore
    cases i with
    | renewal port raw => exact ⟨rfl, rfl⟩
    | request request outside =>
        obtain ⟨hserved, hstore, -⟩ := @step_request κ rt s request outside
        rw [hserved, hstore]
        exact ⟨rfl, rfl⟩

end Runs

/-- The cached token after a verification is the one before, or the one in the file. -/
theorem verifyToken_state (v : K8sTokenReviewVerifier) (cached : String)
    (file : Except String String) (server : Nat → SentReview → ReviewAnswer)
    (audience token : String) :
    (v.verifyToken (some cached) file server audience token).state = some cached ∨
      ∃ raw, file = .ok raw ∧
        (v.verifyToken (some cached) file server audience token).state = some (trim raw) := by
  by_cases h : (server 0 (v.tokenReview cached audience token)).status = .unauthorized
  · rw [K8sTokenReviewVerifier.verifyToken_of_unauthorized h]
    cases file with
    | error e => exact Or.inl rfl
    | ok raw => exact Or.inr ⟨raw, rfl, rfl⟩
  · rw [K8sTokenReviewVerifier.verifyToken_of_answered h]
    exact Or.inl rfl

/-- The reviews that a verification sends are all for the token and the audience it was
asked about; only their bearers can differ. -/
theorem mem_exchanges_verifyToken {v : K8sTokenReviewVerifier} {cached : String}
    {file : Except String String} {server : Nat → SentReview → ReviewAnswer}
    {audience token : String} {exchange : SentReview × ReviewAnswer}
    (h : exchange ∈ (v.verifyToken (some cached) file server audience token).exchanges) :
    ∃ bearer, exchange.1 = v.tokenReview bearer audience token ∧
      (bearer = cached ∨ ∃ raw, file = .ok raw ∧ bearer = trim raw) := by
  have hmem := List.mem_map_of_mem (f := Prod.fst) h
  rcases K8sTokenReviewVerifier.exchanges_verifyToken v cached file server audience token with
    hone | ⟨raw, hfile, htwo, -⟩
  · rw [hone, List.mem_singleton] at hmem
    exact ⟨cached, hmem, Or.inl rfl⟩
  · rw [htwo] at hmem
    rcases List.mem_cons.mp hmem with hfirst | hsecond
    · exact ⟨cached, hfirst, Or.inl rfl⟩
    · exact ⟨trim raw, List.mem_singleton.mp hsecond, Or.inr ⟨raw, hfile, rfl⟩⟩

/-- There are at most two of them, the second one after a 401. -/
theorem length_exchanges_verifyToken (v : K8sTokenReviewVerifier) (cached : String)
    (file : Except String String) (server : Nat → SentReview → ReviewAnswer)
    (audience token : String) :
    (v.verifyToken (some cached) file server audience token).exchanges.length ≤ 2 := by
  rw [← List.length_map (f := Prod.fst)]
  rcases K8sTokenReviewVerifier.exchanges_verifyToken v cached file server audience token with
    hone | ⟨raw, -, htwo, -⟩
  · rw [hone]
    exact Nat.le_succ 1
  · rw [htwo]
    exact Nat.le_refl 2

/-- An input in which a verifier may read `raw` from the token file: a request at its
port, or a renewal. -/
def ClusterInput.Reads (port : Port) (raw : String) : ClusterInput κ → Prop
  | .request r outside => r.port = port ∧ outside.file = .ok raw
  | .renewal port' raw' => port' = port ∧ raw' = raw

/-- The token was read from the file for the verifier of the port: at the start or in the
past.  A token that was never in the file is none of the kind. -/
def WasRead (contents : Port → String) (past : List (ClusterEntry κ)) (port : Port)
    (token : String) : Prop :=
  token = trim (contents port) ∨ ∃ e ∈ past, ∃ raw, e.1.Reads port raw ∧ token = trim raw

theorem WasRead.append {contents : Port → String} {past : List (ClusterEntry κ)} {port : Port}
    {token : String} (h : WasRead contents past port token) (later : List (ClusterEntry κ)) :
    WasRead contents (past ++ later) port token := by
  rcases h with hstart | ⟨e, he, hread⟩
  · exact Or.inl hstart
  · exact Or.inr ⟨e, List.mem_append_left _ he, hread⟩

theorem WasRead.of_last {contents : Port → String} {past : List (ClusterEntry κ)}
    {e : ClusterEntry κ} {port : Port} {raw : String} (h : e.1.Reads port raw) :
    WasRead contents (past ++ [e]) port (trim raw) :=
  Or.inr ⟨e, List.mem_append_right _ (List.mem_singleton.mpr rfl), raw, h, rfl⟩

/-- Each verifier has a cached token that was read from the file.  This is the invariant
of the runs, and it holds from the start. -/
def CachesRead (contents : Port → String) (past : List (ClusterEntry κ)) (s : ClusterState) :
    Prop :=
  ∀ port, ∃ token, s.cached port = some token ∧ WasRead contents past port token

section Traffic

variable {rt : ClusterRuntime κ}

/-- The cached token of the port that a step touches, the other one being left as it is.
-/
theorem cachesRead_update {contents : Port → String} {past : List (ClusterEntry κ)}
    {s : ClusterState} {e : ClusterEntry κ} {port : Port} {token : String} {store : InnerStore}
    (h : CachesRead contents past s) (htoken : WasRead contents (past ++ [e]) port token) :
    CachesRead contents (past ++ [e])
      { store, cached := Function.update s.cached port (some token) } := by
  intro port'
  by_cases hport : port' = port
  · subst hport
    exact ⟨token, Function.update_self _ _ _, htoken⟩
  · obtain ⟨token', hcached, hread⟩ := h port'
    exact ⟨token', by rw [← hcached]; exact Function.update_of_ne hport _ _, hread.append _⟩

/-- Every input keeps the caches to what was read, its own reading included. -/
theorem cachesRead_step {contents : Port → String} {past : List (ClusterEntry κ)}
    {s : ClusterState} (i : ClusterInput κ) (h : CachesRead contents past s) :
    CachesRead contents (past ++ [(i, (rt.step s i).1)]) (rt.step s i).2 := by
  cases i with
  | renewal port raw => exact cachesRead_update h (WasRead.of_last ⟨rfl, rfl⟩)
  | request request outside =>
      simp only [ClusterRuntime.step]
      cases request.presented rt.server with
      | none =>
          intro port
          obtain ⟨token, hcached, hread⟩ := h port
          exact ⟨token, hcached, hread.append _⟩
      | some p =>
          obtain ⟨audience, token⟩ := p
          obtain ⟨cached, hcached, hread⟩ := h request.port
          simp only [ClusterRuntime.verification, hcached]
          rcases verifyToken_state rt.verifier cached outside.file outside.apiServer audience token
            with hstate | ⟨raw, hfile, hstate⟩
          · rw [hstate]
            exact cachesRead_update h (hread.append _)
          · rw [hstate]
            exact cachesRead_update h (WasRead.of_last ⟨rfl, hfile⟩)

/-- The caches of a run hold what was read in it.  The induction is over the inputs, from
the last one back. -/
theorem cachesRead_after (contents : Port → String) (inputs : List (ClusterInput κ)) :
    CachesRead contents (rt.historyOf contents inputs) (rt.stateAfter contents inputs) := by
  refine past_invariant (fun past s i h => cachesRead_step i h) ?_ inputs
  intro port
  exact ⟨_, rfl, Or.inl rfl⟩

/-- An entry of a run, seen from the state that its past leads to.  Every statement about
entries below begins with it. -/
theorem entry_at {contents : Port → String} {inputs : List (ClusterInput κ)}
    {pre post : List (ClusterEntry κ)} {e : ClusterEntry κ}
    (h : rt.historyOf contents inputs = pre ++ e :: post) :
    ∃ s, s = rt.stateAfter contents (pre.map Prod.fst) ∧ CachesRead contents pre s ∧
      e.2 = (rt.step s e.1).1 ∧
      rt.server.storeAfter ((servedPast pre).map Prod.fst) = s.store ∧
      rt.server.historyOf ((servedPast pre).map Prod.fst) = servedPast pre := by
  have hpre : pre = rt.historyOf contents (pre.map Prod.fst) := history_of_append h
  obtain ⟨hserved, hstore⟩ := @cluster_refines κ rt contents (pre.map Prod.fst)
  have hcaches := @cachesRead_after κ rt contents (pre.map Prod.fst)
  rw [← hpre] at hserved hstore hcaches
  exact ⟨_, rfl, hcaches, answer_of_history h, hstore, hserved⟩

end Traffic

/-- The last review of an entry of a run was for this token and audience, and what the API
server of that request answered to it confirms the user.  It speaks of the server's
answers, not of what the verifier made of them. -/
def ReviewedAs (v : K8sTokenReviewVerifier) (e : ClusterEntry κ) (audience token : String)
    (user : UserInfo) : Prop :=
  ∃ request outside n bearer review, e.1 = .request request outside ∧
    e.2.reviews.length = n + 1 ∧
    e.2.reviews[n]? = some (v.tokenReview bearer audience token,
      outside.apiServer n (v.tokenReview bearer audience token)) ∧
    (outside.apiServer n (v.tokenReview bearer audience token)).reviewed = some review ∧
    v.Confirms audience review user

/-- A verification that succeeds is that of a reviewed user, and its claims are made of
that user's data. -/
theorem reviewedAs_of_verified {v : K8sTokenReviewVerifier} {cached : String}
    {request : ServerRequest} {outside : ClusterSurroundings κ} {answer : ClusterAnswer κ}
    {audience token : String} {claims : TokenClaims}
    (hreviews : answer.reviews =
      (v.verifyToken (some cached) outside.file outside.apiServer audience token).exchanges)
    (h : (v.verifyToken (some cached) outside.file outside.apiServer audience token).result =
      .ok claims) :
    ∃ user, ReviewedAs v (.request request outside, answer) audience token user ∧
      claims = v.userClaims audience user := by
  obtain ⟨last, review, user, hlast, hreview, hconfirms, hclaims⟩ :=
    (K8sTokenReviewVerifier.verifyToken_eq_ok_iff v cached outside.file outside.apiServer audience
      token claims).mp h
  obtain ⟨bearer, hsent, -⟩ := mem_exchanges_verifyToken (List.mem_of_getLast? hlast)
  rw [← hreviews, List.getLast?_eq_getElem?] at hlast
  have hlength := (List.getElem?_eq_some_iff.mp hlast).1
  have hanswer : last.2 = outside.apiServer (answer.reviews.length - 1) last.1 := by
    rw [hreviews] at hlast ⊢
    exact K8sTokenReviewVerifier.answer_of_exchange hlast
  rw [hsent] at hanswer
  refine ⟨user, ⟨request, outside, answer.reviews.length - 1, bearer, review, rfl, ?_, ?_, ?_,
    hconfirms⟩, hclaims⟩
  · change answer.reviews.length = answer.reviews.length - 1 + 1
    omega
  · rw [← hanswer, ← hsent]
    exact hlast
  · rw [← hanswer]
    exact hreview

section Reviews

variable {rt : ClusterRuntime κ} {contents : Port → String} {inputs : List (ClusterInput κ)}
  {pre post : List (ClusterEntry κ)} {e : ClusterEntry κ}

/-- What a run serves is a step of the server after what it has served before, and whoever
its verifier accepts was reviewed for it, within the same request. -/
theorem served_at (h : rt.historyOf contents inputs = pre ++ e :: post) {ev : ServerEvent κ}
    {answer : ServerAnswer κ} (hserved : e.2.served = some (ev, answer)) :
    answer = (rt.server.step (rt.server.storeAfter ((servedPast pre).map Prod.fst)) ev).1 ∧
      rt.server.historyOf ((servedPast pre).map Prod.fst) = servedPast pre ∧
      ∀ audience token claims, ev.request.presented rt.server = some (audience, token) →
        ev.outside.verifier audience token = .ok claims →
        ∃ user, ReviewedAs rt.verifier e audience token user ∧
          claims = rt.verifier.userClaims audience user := by
  obtain ⟨s, -, hcaches, hstep, hstore, hpast⟩ := entry_at h
  obtain ⟨i, found⟩ := e
  simp only at hstep hserved
  subst hstep
  cases i with
  | renewal port raw => cases hserved
  | request request outside =>
      obtain ⟨hentry, -, hreviews⟩ := @step_request κ rt s request outside
      rw [hentry] at hserved
      cases hserved
      refine ⟨by rw [hstore], hpast, ?_⟩
      intro audience token claims hpresented hclaims
      obtain ⟨cached, hcached, -⟩ := hcaches request.port
      have hsent := hreviews audience token hpresented
      simp only [ClusterRuntime.event, ClusterRuntime.verification, hcached] at hclaims hsent
      exact reviewedAs_of_verified hsent hclaims

/-- The token of a permitted form is presented, since no check before the verification can
have ended the request. -/
theorem presented_of_permitted {h : List (ServerEntry κ)} {ev : ServerEvent κ}
    {form : TokenExchangeForm} {c : TokenClaims} {m : ResourceMapping}
    (hform : ev.tokenForm = some form) (hpermitted : Permitted rt.server h ev.outside form c m) :
    ev.request.presented rt.server =
      some (rt.server.tokenService.clientAudience, form.subjectToken) := by
  obtain ⟨request, outside⟩ := ev
  cases request with
  | management request => cases hform
  | exchange request =>
      simp only [ServerEvent.tokenForm] at hform
      split at hform
      · next pairs hroute hpairs =>
        simp only [ServerRequest.presented, hroute, hpairs, hform, Option.bind_some,
          hpermitted.grantType, hpermitted.tokenType, and_self, if_true]
      · cases hform

/-- The token of a request that performs an operation is presented, and it was verified as
the caller's. -/
theorem presented_of_operation {ev : ServerEvent κ} {actor : String} {op : ServiceOp}
    (hop : ev.operation rt.server = some (actor, op)) :
    ∃ request token claims, ev.request = .management request ∧
      extractBearerToken request.authorization = some token ∧
      ev.request.presented rt.server = some (rt.server.managementClientAudience, token) ∧
      ev.outside.verifier rt.server.managementClientAudience token = .ok claims ∧
      claims.sub = actor ∧
      rt.server.serviceAccountAuthorizer.holdsRole actor op.role = true := by
  obtain ⟨request, token, claims, hrequest, htoken, hclaims, hsub, hrole⟩ := actsAs_of_operation hop
  obtain ⟨request', path, hrequest', hhealth, hpath, hoperation⟩ := request_of_operation hop
  rw [hrequest] at hrequest'
  cases hrequest'
  refine ⟨request, token, claims, hrequest, htoken, ?_, hclaims, hsub, hrole⟩
  obtain ⟨⟨e, params, hdispatch, -⟩, -⟩ := admitted_of_operation hoperation
  simp only [hrequest, ServerRequest.presented, if_neg hhealth, hpath, Option.bind_some, hdispatch,
    htoken, Option.map_some]

/-- A call of the generator is for a reviewed user, whom the history permits what the form
asks for. -/
theorem reviewed_of_call (h : rt.historyOf contents inputs = pre ++ e :: post) {ev : ServerEvent κ}
    {answer : ServerAnswer κ} (hserved : e.2.served = some (ev, answer)) {call : GeneratorCall}
    (hcall : call ∈ answer.calls) :
    ∃ form user m, ev.tokenForm = some form ∧
      ReviewedAs rt.verifier e rt.server.tokenService.clientAudience form.subjectToken
        user ∧
      Permitted rt.server (servedPast pre) ev.outside form
        (rt.verifier.userClaims rt.server.tokenService.clientAudience user) m ∧
      IssuedFrom rt.server (servedPast pre) ev.outside.env form
        (rt.verifier.userClaims rt.server.tokenService.clientAudience user) call.claims := by
  obtain ⟨hanswer, hpast, hreviewed⟩ := served_at h hserved
  rw [hanswer] at hcall
  cases hform : ev.tokenForm with
  | none =>
      rw [calls_of_no_form hform] at hcall
      cases hcall
  | some form =>
      rw [step_of_tokenForm hform] at hcall
      obtain ⟨c, m, hpermitted, hissued⟩ := issuedFrom_of_call hcall
      rw [hpast] at hpermitted hissued
      obtain ⟨user, huser, rfl⟩ := hreviewed _ _ _ (presented_of_permitted hform hpermitted)
        hpermitted.verified
      exact ⟨form, user, m, rfl, huser, hpermitted, hissued⟩

/-- An operation is performed for a reviewed user, who holds the role of the operation
under the name that the review confirms. -/
theorem reviewed_of_operation (h : rt.historyOf contents inputs = pre ++ e :: post)
    {ev : ServerEvent κ} {answer : ServerAnswer κ} (hserved : e.2.served = some (ev, answer))
    {actor : String} {op : ServiceOp} (hop : ev.operation rt.server = some (actor, op)) :
    ∃ request token user, ev.request = .management request ∧
      extractBearerToken request.authorization = some token ∧
      ReviewedAs rt.verifier e rt.server.managementClientAudience token user ∧
      user.username = actor ∧
      rt.server.serviceAccountAuthorizer.holdsRole user.username op.role = true := by
  obtain ⟨-, -, hreviewed⟩ := served_at h hserved
  obtain ⟨request, token, claims, hrequest, htoken, hpresented, hclaims, hsub, hrole⟩ :=
    presented_of_operation hop
  obtain ⟨user, huser, hof⟩ := hreviewed _ _ _ hpresented hclaims
  have hname : user.username = actor := by
    rw [← hsub, hof]
    rfl
  exact ⟨request, token, user, hrequest, htoken, huser, hname, hname ▸ hrole⟩

end Reviews

/-- The map behind `act` is that of the user: the name, the issuer of the cluster,
and the uid if it is there and not empty. -/
def ActsFor (v : K8sTokenReviewVerifier) (user : UserInfo) (act : Map) : Prop :=
  ∀ k j, act[k]? = some j ↔
    (k = "sub" ∧ j = .string user.username) ∨ (k = "iss" ∧ j = .string v.clusterIssuer) ∨
    (k = k8sUidClaim ∧ ∃ uid, user.uid = some uid ∧ uid ≠ "" ∧ j = .string uid)

/-- The actor that the exchange writes for the claims of a user is that user's. -/
theorem actsFor_of_isActor {v : K8sTokenReviewVerifier} {audience : String} {user : UserInfo}
    {act : Map} (h : IsActor (v.userClaims audience user) act) : ActsFor v user act := by
  intro k j
  rw [h k]
  by_cases hsub : k = "sub"
  · subst hsub
    have hother : "sub" ≠ "iss" ∧ "sub" ≠ k8sUidClaim := by decide
    simp only [if_true, Option.some.injEq, true_and, hother, false_and, or_false]
    exact eq_comm
  · by_cases hiss : k = "iss"
    · subst hiss
      have hother : "iss" ≠ "sub" ∧ "iss" ≠ k8sUidClaim := by decide
      simp only [hother, if_false, if_true, Option.some.injEq, true_and, false_and, false_or,
        or_false]
      exact eq_comm
    · by_cases huid : k = k8sUidClaim
      · subst huid
        have hother : k8sUidClaim ≠ "sub" ∧ k8sUidClaim ≠ "iss" := by decide
        simp only [hother, if_false, if_true, true_and, false_and, false_or]
        exact K8sTokenReviewVerifier.uid_userClaims v audience user j
      · simp [hsub, hiss, huid]

/-- Whatever review the API server is asked for in a run, it confirms an audience only if
the token is bound to it.  This is a condition on the API server's answers, for every
review that it could be sent, and on nothing that the code does. -/
def ConfirmsOnlyBound (bound : String → String → Prop) (inputs : List (ClusterInput κ)) : Prop :=
  ∀ request outside, ClusterInput.request request outside ∈ inputs → ∀ n sent review,
    (outside.apiServer n sent).reviewed = some review →
    ∀ a ∈ review.status.audiences, bound sent.request.spec.token a

section Bound

variable {rt : ClusterRuntime κ} {contents : Port → String} {inputs : List (ClusterInput κ)}
  {bound : String → String → Prop} {e : ClusterEntry κ} {ev : ServerEvent κ}
  {answer : ServerAnswer κ}

/-- A review that confirms a user shows that its token is bound to the audience, if the
API server keeps to that. -/
theorem bound_of_reviewedAs (hbound : ConfirmsOnlyBound bound inputs)
    (he : e ∈ rt.historyOf contents inputs) {audience token : String} {user : UserInfo}
    (huser : ReviewedAs rt.verifier e audience token user) : bound token audience := by
  obtain ⟨request, outside, n, bearer, review, hinput, -, -, hreview, hconfirms⟩ := huser
  have hmem : ClusterInput.request request outside ∈ inputs := by
    rw [← hinput, ← history_inputs rt.step (ClusterState.initial contents) inputs]
    exact List.mem_map_of_mem he
  exact hbound request outside hmem n _ review hreview audience hconfirms.audienceConfirmed

/-- A token is issued for a subject token that is bound to the audience of the
exchange. -/
theorem bound_of_issued (hbound : ConfirmsOnlyBound bound inputs)
    (he : e ∈ rt.historyOf contents inputs) (hserved : e.2.served = some (ev, answer))
    {form : TokenExchangeForm} (hform : ev.tokenForm = some form) (hissued : answer.calls ≠ []) :
    bound form.subjectToken rt.server.tokenService.clientAudience := by
  obtain ⟨pre, post, hsplit⟩ := List.append_of_mem he
  obtain ⟨call, hcall⟩ := List.exists_mem_of_ne_nil _ hissued
  obtain ⟨form', user, -, hform', huser, -⟩ := reviewed_of_call hsplit hserved hcall
  rw [hform] at hform'
  cases hform'
  exact bound_of_reviewedAs hbound he huser

/-- An operation is performed for a bearer token that is bound to the management
audience. -/
theorem bound_of_operation (hbound : ConfirmsOnlyBound bound inputs)
    (he : e ∈ rt.historyOf contents inputs) (hserved : e.2.served = some (ev, answer))
    {request : Request} (hrequest : ev.request = .management request)
    (hoperation : (ev.operation rt.server).isSome) :
    ∃ token, extractBearerToken request.authorization = some token ∧
      bound token rt.server.managementClientAudience := by
  obtain ⟨pre, post, hsplit⟩ := List.append_of_mem he
  obtain ⟨⟨actor, op⟩, hop⟩ := Option.isSome_iff_exists.mp hoperation
  obtain ⟨request', token, user, hrequest', htoken, huser, -⟩ :=
    reviewed_of_operation hsplit hserved hop
  rw [hrequest] at hrequest'
  cases hrequest'
  exact ⟨token, htoken, bound_of_reviewedAs hbound he huser⟩

end Bound

/-- The reviews that are sent for an entry of a run: how many, where to, for what, and
with whose token. -/
theorem reviews_of_entry {rt : ClusterRuntime κ} {contents : Port → String}
    {inputs : List (ClusterInput κ)} {pre post : List (ClusterEntry κ)} {e : ClusterEntry κ}
    (h : rt.historyOf contents inputs = pre ++ e :: post) :
    e.2.reviews.length ≤ 2 ∧
    ∀ n exchange, e.2.reviews[n]? = some exchange → ∃ request outside audience token,
      e.1 = .request request outside ∧
      request.presented rt.server = some (audience, token) ∧
      exchange.1 = rt.verifier.tokenReview exchange.1.bearer audience token ∧
      exchange.2 = outside.apiServer n exchange.1 ∧
      WasRead contents (pre ++ [e]) request.port exchange.1.bearer := by
  obtain ⟨s, -, hcaches, hstep, -, -⟩ := entry_at h
  obtain ⟨i, found⟩ := e
  simp only at hstep ⊢
  subst hstep
  cases i with
  | renewal port raw => exact ⟨Nat.zero_le 2, by intro n exchange hmem; cases hmem⟩
  | request request outside =>
      obtain ⟨-, -, hreviews⟩ := @step_request κ rt s request outside
      cases hpresented : request.presented rt.server with
      | none =>
          have hnil : (rt.step s (.request request outside)).1.reviews = [] := by
            simp only [ClusterRuntime.step, hpresented]
          rw [hnil]
          exact ⟨Nat.zero_le 2, by intro n exchange hmem; cases hmem⟩
      | some p =>
          obtain ⟨audience, token⟩ := p
          obtain ⟨cached, hcached, hread⟩ := hcaches request.port
          rw [hreviews audience token hpresented, ClusterRuntime.verification, hcached]
          refine ⟨length_exchanges_verifyToken _ _ _ _ _ _, fun n exchange hat => ?_⟩
          obtain ⟨bearer, hsent, hbearer⟩ := mem_exchanges_verifyToken (List.mem_of_getElem? hat)
          refine ⟨request, outside, audience, token, rfl, hpresented, ?_,
            K8sTokenReviewVerifier.answer_of_exchange hat, ?_⟩
          · rw [hsent]
            rfl
          · rw [hsent]
            rcases hbearer with rfl | ⟨raw, hfile, rfl⟩
            · exact hread.append _
            · exact WasRead.of_last ⟨rfl, hfile⟩

section Identity

variable (rt : ClusterRuntime κ) (contents : Port → String) (inputs : List (ClusterInput κ))
  (pre post : List (ClusterEntry κ)) (e : ClusterEntry κ)

/-- **An operation is performed for the user of a review.**  In every run of the
server in its cluster, a management request that performs an operation comes with a
last review of the same request that was sent for its bearer token and the management
audience, and confirms a user who holds the role of the operation; any other request
leaves the store alone. -/
theorem operation_for_reviewed_user (h : rt.historyOf contents inputs = pre ++ e :: post)
    (ev : ServerEvent κ) (answer : ServerAnswer κ) (hserved : e.2.served = some (ev, answer)) :
    (∀ actor op, ev.operation rt.server = some (actor, op) →
      ∃ request token user, ev.request = .management request ∧
        extractBearerToken request.authorization = some token ∧
        ReviewedAs rt.verifier e rt.server.managementClientAudience token user ∧
        user.username = actor ∧
        rt.server.serviceAccountAuthorizer.holdsRole user.username op.role = true) ∧
    (ev.operation rt.server = none →
      (rt.stateAfter contents ((pre ++ [e]).map Prod.fst)).store =
        (rt.stateAfter contents (pre.map Prod.fst)).store) := by
  constructor
  · intro actor op hop
    exact reviewed_of_operation h hserved hop
  · intro hnone
    obtain ⟨s, hs, -, hstep, -, -⟩ := entry_at h
    have hafter : rt.stateAfter contents ((pre ++ [e]).map Prod.fst) = (rt.step s e.1).2 := by
      rw [hs, List.map_append, ClusterRuntime.stateAfter, after_append]
      rfl
    rw [hafter, ← hs]
    obtain ⟨i, found⟩ := e
    simp only at hstep hserved ⊢
    subst hstep
    cases i with
    | renewal port raw => rfl
    | request request outside =>
        obtain ⟨hentry, hstore, -⟩ := @step_request κ rt s request outside
        rw [hentry] at hserved
        cases hserved
        rw [hstore, step_of_no_operation hnone]

/-- **Audiences keep the ports apart.**  Suppose that the API server confirms an
audience only for tokens bound to it, and that no token is bound to the audiences of
both ports.  Then in every run no token is both the subject token of a request that
got to the generator and the bearer token of one that performed an operation. -/
theorem audiences_separate (bound : String → String → Prop)
    (hbound : ConfirmsOnlyBound bound inputs)
    (hapart : ∀ token, ¬ (bound token rt.server.tokenService.clientAudience ∧
      bound token rt.server.managementClientAudience))
    (e e' : ClusterEntry κ) (he : e ∈ rt.historyOf contents inputs)
    (he' : e' ∈ rt.historyOf contents inputs) (ev ev' : ServerEvent κ) (answer answer' : ServerAnswer κ)
    (hserved : e.2.served = some (ev, answer)) (hserved' : e'.2.served = some (ev', answer'))
    (form : TokenExchangeForm) (hform : ev.tokenForm = some form) (hissued : answer.calls ≠ [])
    (request : Request) (hrequest : ev'.request = .management request)
    (hoperation : (ev'.operation rt.server).isSome) :
    extractBearerToken request.authorization ≠ some form.subjectToken := by
  have hsubject := bound_of_issued hbound he hserved hform hissued
  obtain ⟨token, htoken, hbearer⟩ := bound_of_operation hbound he' hserved' hrequest hoperation
  intro hsame
  rw [hsame] at htoken
  cases htoken
  exact hapart _ ⟨hsubject, hbearer⟩

/-- **What is sent to the API server.** In every run of the server in its cluster, a
request has at most two reviews handed to the HTTP client, each addressed to the
TokenReview URL, each for the token and the audience that the request presents, and each
authenticated by a token that was read from the token file for the verifier of its port.
What is taken for its answer is what the client returns for it; nothing is said of the
requests that the client makes on its own when it is redirected. -/
theorem reviews_sent (h : rt.historyOf contents inputs = pre ++ e :: post) :
    e.2.reviews.length ≤ 2 ∧
    ∀ n exchange, e.2.reviews[n]? = some exchange → ∃ request outside audience token,
      e.1 = .request request outside ∧
      request.presented rt.server = some (audience, token) ∧
      exchange.1 = rt.verifier.tokenReview exchange.1.bearer audience token ∧
      exchange.2 = outside.apiServer n exchange.1 ∧
      WasRead contents (pre ++ [e]) request.port exchange.1.bearer := by
  exact reviews_of_entry h

end Identity

/-- The sample server in a cluster, where the administrator is a service account. -/
def sampleCluster : ClusterRuntime Unit where
  server := { sampleRuntime with
    serviceAccountAuthorizer := .fromAccounts
      [{ clientId := "system:serviceaccount:ops:admin"
         roles := Std.ExtTreeSet.ofList [roleMappingsWrite, roleScopesWrite] compare }] }
  verifier := sampleVerifier

/-- A request while the file holds the new token, which the API server knows, and the old
one is still cached at first. -/
def clusterRequest (request : ServerRequest) : ClusterInput Unit :=
  .request request
    { env := sampleEnvironment, generator := fun _ _ => .ok "token", jwkSet := ()
      file := .ok "pod-token\n", apiServer := fun _ => sampleApiServer }

/-- The tokens at the start, which the API server no longer knows. -/
def sampleContents : Port → String := fun _ => "old-token\n"

/-- The administrator creates a scope and a mapping of the client, and the client asks for
a token. -/
def scopeInput : ClusterInput Unit := clusterRequest createScopeEvent.request

def mappingInput : ClusterInput Unit :=
  clusterRequest (adminEvent .post "/api/v1/mappings" (.object
    [("clientIdentifier", .string "system:serviceaccount:apps:client"),
      ("participantContext", .string "ctx"), ("scopes", .array [.string "read"])])).request

def exchangeInput : ClusterInput Unit := clusterRequest exchangeEvent.request

/-- The entry of an input after others, as the history of the run has it. -/
def sampleEntry (past : List (ClusterInput Unit)) (input : ClusterInput Unit) : ClusterEntry Unit :=
  (input, (sampleCluster.step (sampleCluster.stateAfter sampleContents past) input).1)

/-- What the sample run serves at its end: a token request that gets to the generator. -/
theorem served_exchange :
    ∃ ev answer form, (sampleEntry [scopeInput, mappingInput] exchangeInput).2.served =
      some (ev, answer) ∧ answer.calls ≠ [] ∧ ev.tokenForm = some form ∧
      form.subjectToken = "sa-token" := by
  have hserved : ((sampleEntry [scopeInput, mappingInput] exchangeInput).2.served.map fun found =>
      (found.2.calls.length, found.1.tokenForm.map TokenExchangeForm.subjectToken)) =
        some (1, some "sa-token") := by
    decide +kernel
  obtain ⟨⟨ev, answer⟩, hfound, hvalue⟩ := Option.map_eq_some_iff.mp hserved
  obtain ⟨hcalls, htoken⟩ := Prod.mk.inj hvalue
  obtain ⟨form, hform, hsubject⟩ := Option.map_eq_some_iff.mp htoken
  refine ⟨ev, answer, form, hfound, ?_, hform, hsubject⟩
  intro hnil
  rw [hnil] at hcalls
  cases hcalls

/-- What it serves at its beginning: the creation of the scope by the administrator. -/
theorem served_scope :
    ∃ ev answer, (sampleEntry [] scopeInput).2.served = some (ev, answer) ∧
      ev.request = createScopeEvent.request ∧
      ev.operation sampleCluster.server = some ("system:serviceaccount:ops:admin",
        .saveScopeMappings [{ scope := "read"
                              claims := Std.ExtTreeMap.ofList [("role", .string "reader")] compare }])
      := by
  refine ⟨_, _, (step_request _ _ _).1, rfl, ?_⟩
  decide +kernel

/-- The scope of the sample is created for the administrator that was reviewed, and nobody
else. -/
theorem operation_for_reviewed_user_sample :
    ∃ token user, ReviewedAs sampleCluster.verifier (sampleEntry [] scopeInput)
        "jwtlet-management" token user ∧ user.username = "system:serviceaccount:ops:admin" := by
  obtain ⟨ev, answer, hserved, -, hop⟩ := served_scope
  obtain ⟨hoperation, -⟩ := operation_for_reviewed_user sampleCluster sampleContents [scopeInput]
    [] [] (sampleEntry [] scopeInput) rfl ev answer hserved
  obtain ⟨request, token, user, -, -, huser, hname, -⟩ := hoperation _ _ hop
  exact ⟨token, user, huser, hname⟩

/-- The reviews of the exchange: the cached token was refused, and the one in the file was
not. -/
theorem reviews_sent_sample :
    (sampleEntry [scopeInput, mappingInput] exchangeInput).2.reviews.length ≤ 2 :=
  (reviews_sent sampleCluster sampleContents [scopeInput, mappingInput, exchangeInput]
    (sampleCluster.historyOf sampleContents [scopeInput, mappingInput]) []
    (sampleEntry [scopeInput, mappingInput] exchangeInput) rfl).1

/-- Every request of the sample meets the same API server, which answers by the review
alone. -/
theorem apiServer_of_sample {request : ServerRequest} {outside : ClusterSurroundings Unit}
    (h : ClusterInput.request request outside ∈ [scopeInput, mappingInput, exchangeInput]) :
    outside.apiServer = fun _ => sampleApiServer := by
  simp only [List.mem_cons, List.not_mem_nil, or_false] at h
  rcases h with h | h | h <;> cases h <;> rfl

/-- The audience that each token of the sample is bound to, which is one for each of the
two. -/
def sampleBound : List (String × String) :=
  [("sa-token", "jwtlet-exchange"), ("admin-token", "jwtlet-management")]

/-- The subject token of the sample is not the token of the administrator, as the
audiences alone show. -/
theorem audiences_separate_sample :
    ∃ ev answer form, (sampleEntry [scopeInput, mappingInput] exchangeInput).2.served =
        some (ev, answer) ∧ ev.tokenForm = some form ∧
      extractBearerToken (some (utf8Bytes "Bearer admin-token")) ≠ some form.subjectToken := by
  obtain ⟨ev, answer, form, hserved, hcalls, hform, -⟩ := served_exchange
  obtain ⟨ev', answer', hserved', hrequest, hop⟩ := served_scope
  have hbound : ConfirmsOnlyBound (fun token a => (token, a) ∈ sampleBound)
      [scopeInput, mappingInput, exchangeInput] := by
    intro request outside hmem n sent review hreview
    rw [apiServer_of_sample hmem] at hreview
    exact audiences_sampleApiServer hreview
  have hapart : ∀ token, ¬ ((token, "jwtlet-exchange") ∈ sampleBound ∧
      (token, "jwtlet-management") ∈ sampleBound) := by
    intro token h
    have hboth : token = "sa-token" ∧ token = "admin-token" := by simpa [sampleBound] using h
    exact absurd (hboth.1.symm.trans hboth.2) (by decide)
  refine ⟨ev, answer, form, hserved, hform, ?_⟩
  exact audiences_separate sampleCluster sampleContents [scopeInput, mappingInput, exchangeInput]
    (fun token a => (token, a) ∈ sampleBound) hbound hapart
    (sampleEntry [scopeInput, mappingInput] exchangeInput) (sampleEntry [] scopeInput)
    (@List.mem_of_getElem? _ _ 2 _ rfl) (@List.mem_of_getElem? _ _ 0 _ rfl) ev ev' answer answer'
    hserved hserved' form hform hcalls _ hrequest (by rw [hop]; rfl)

end Jwtlet
