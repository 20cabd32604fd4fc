import Jwtlet.Assembly

/-!
# A started server

The runs of a server that `run_jwtlet` has started over the memory store.  What they
may do is read off the configuration: who is named as issuer and for how long, which
accounts may act, where reviews are addressed (`started_server`), and, if startup had nothing to
warn about, that the ports and the cluster do not share tokens (`quiet_startup`).
-/

namespace Jwtlet

open Rust Machine

namespace Assembly

variable {V κ : Type} {out : Outside V κ} {cfg : JwtletConfig} {tuning : PoolTuning}
  {rt : Runtime κ} {store : InnerStore}

/-- The machine of the cluster that the server runs as.  The two verifiers are set up
alike, so that the one of the exchange may stand for both. -/
def Runtime.cluster (rt : Runtime κ) : ClusterRuntime κ where
  server := rt.server
  verifier := rt.verifier .exchange

/-- A run over the memory store, from the tokens that the verifiers had cached when they
were initialized. -/
def Runtime.historyOf (rt : Runtime κ) (store : InnerStore) (inputs : List (ClusterInput κ)) :
    List (ClusterEntry κ) :=
  history rt.cluster.step { store, cached := rt.cached } inputs

/-- The two verifiers are set up alike, from one and the same section of the
configuration. -/
theorem Configured.verifier_eq (h : Configured out cfg rt) (port : Port) :
    rt.verifier port = rt.cluster.verifier := by
  obtain ⟨token, -, hv⟩ := h.verifier port
  obtain ⟨token', -, hv'⟩ := h.verifier .exchange
  have hurl : (rt.verifier port).apiServerUrl = (rt.verifier .exchange).apiServerUrl :=
    Option.some.inj (hv.apiServerUrl.symm.trans hv'.apiServerUrl)
  have hissuer : (rt.verifier port).clusterIssuer = (rt.verifier .exchange).clusterIssuer :=
    Option.some.inj (hv.clusterIssuer.symm.trans hv'.clusterIssuer)
  have hfile := hv.tokenFile.trans hv'.tokenFile.symm
  have hrequired := hv.requireServiceAccount.trans hv'.requireServiceAccount.symm
  have hdisplay := hv.displayStatus.trans hv'.displayStatus.symm
  unfold Runtime.cluster
  cases hleft : rt.verifier port
  cases hright : rt.verifier .exchange
  rw [hleft, hright] at hurl hissuer hfile hrequired hdisplay
  simp only at hurl hissuer hfile hrequired hdisplay
  rw [hurl, hissuer, hfile, hrequired, hdisplay]

/-- A run of the started server is one from what the verifiers have read, which need not
be the same for the two of them. -/
theorem exists_contents (hrun : run out cfg tuning = .ok (rt, .memory store)) :
    ∃ contents, (∀ port, (out.setup port).readToString cfg.k8s.tokenFile = .ok (contents port)) ∧
      ∀ inputs, rt.historyOf store inputs = rt.cluster.historyOf contents inputs := by
  have hvalid := valid_of_run hrun
  obtain ⟨hconfigured, hstored⟩ := (ends_run hvalid tuning).of_ok hrun
  have hread : ∀ port, ∃ raw, (out.setup port).readToString cfg.k8s.tokenFile = .ok raw ∧
      rt.cached port = some (trim raw) := by
    intro port
    obtain ⟨token, hcached, hv⟩ := hconfigured.verifier port
    obtain ⟨raw, hraw, rfl⟩ := hv.cached
    exact ⟨raw, hraw, hcached⟩
  choose contents hcontents using hread
  refine ⟨contents, fun port => (hcontents port).1, ?_⟩
  intro inputs
  have hcached : rt.cached = fun port => some (trim (contents port)) :=
    funext fun port => (hcontents port).2
  rw [Runtime.historyOf, storeOf_run hrun, hcached]
  rfl

/-- What the exchange gives the generator besides the claims of the client: context,
issuer and the two times. -/
theorem shape_of_call {σ : Type} [ResourceStore σ] {svc : TokenExchangeService} {s : σ}
    {env : Environment} {form : TokenExchangeForm} {call : GeneratorCall}
    (h : call ∈ (tokenExchange svc s env form).2) :
    call.context.id = svc.jwtletParticipantContext ∧ call.claims.iss = svc.issuer ∧
      call.claims.iat = env.now.secs ∧ call.claims.exp = env.now.secs + svc.tokenTtlSecs := by
  have hcall := mem_tokenExchange_calls h
  obtain ⟨c, r, aud, -, -, -, -, hclaims⟩ := exchangeToken_call hcall
  have hcontext : call.context.id = svc.jwtletParticipantContext := by
    unfold exchangeToken at hcall
    split at hcall
    · cases hcall
    · cases List.mem_singleton.mp hcall
      rfl
  rw [hclaims]
  exact ⟨hcontext, rfl, rfl, rfl⟩

/-- The lifetime of a valid configuration, counted without overflow: at least a second and
at most a day, at any time of the clock. -/
theorem lifetime_of_valid (hvalid : cfg.Valid out.toWorld) (now : UtcTimestamp) :
    (now.secs + cfg.token.tokenTtlSecs).toInt - now.secs.toInt = cfg.token.tokenTtlSecs.toInt ∧
      0 < cfg.token.tokenTtlSecs.toInt ∧ cfg.token.tokenTtlSecs.toInt ≤ 86400 := by
  obtain ⟨hpos, hmax⟩ := ttl_bounds_of_validate (validate_eq_ok_iff.mpr hvalid)
  have hexp := toInt_now_add now hpos hmax
  exact ⟨by omega, hpos, hmax⟩

/-- A user that a review confirms is a service account of the cluster, since the verifier
accepts nobody else. -/
theorem Configured.isServiceAccount (h : Configured out cfg rt)
    {e : ClusterEntry κ} {audience token : String} {user : UserInfo}
    (huser : ReviewedAs rt.cluster.verifier e audience token user) :
    user.isServiceAccount = true := by
  obtain ⟨cached, -, hv⟩ := h.verifier .exchange
  obtain ⟨_, _, _, _, _, _, _, _, _, hconfirms⟩ := huser
  exact K8sTokenReviewVerifier.isServiceAccount_iff.mpr
    (hconfirms.serviceAccount hv.requireServiceAccount)

/-- Only the route of the document answers with it, and it never changes. -/
theorem metadata_of_step {σ : Type} [ResourceStore σ] {server : JwtletRuntime κ} {s : σ}
    {ev : ServerEvent κ} {document : AuthorizationServerMetadata}
    (h : (server.step s ev).1.response = .metadata document) : document = server.metadata := by
  obtain ⟨request, outside⟩ := ev
  have hforMethod : ∀ {r : ServerResponse κ} {method : Method},
      r.forMethod method = .metadata document → r = .metadata document := by
    intro r method hr
    unfold ServerResponse.forMethod at hr
    split at hr
    · cases hr
    · exact hr
  cases request with
  | management request =>
      simp only [JwtletRuntime.step, handleManagement] at h
      split at h
      · split at h
        · cases hforMethod h
        · cases h
      · split at h <;> cases h
  | exchange request =>
      simp only [JwtletRuntime.step, handleExchange] at h
      split at h
      · cases h
      · cases hforMethod h
      · cases hforMethod h
      · cases hforMethod h
        rfl
      · split at h
        · cases h
        · split at h <;> cases h

/-- What no warning means: secrets come from files, the API server is verified by the CA
of the cluster, someone holds each role for writing, and neither audience is the other or
that of the API server. -/
structure Quiet (out : Outside V κ) (cfg : JwtletConfig) (rt : Runtime κ) : Prop where
  vault : cfg.vault.tokenFile.isSome
  clusterCa : ∀ port, (out.setup port).clusterCa.isSome
  roles : ∀ role ∈ expectedRoles, ∃ account,
    rt.server.serviceAccountAuthorizer.holdsRole account role = true
  audiences : rt.server.managementClientAudience ≠ rt.server.tokenService.clientAudience
  apiServer : ∀ a, cfg.k8s.clusterIssuer = some a ∨ cfg.k8s.apiServerUrl = some a →
    trimEndSlashes a ≠ trimEndSlashes rt.server.tokenService.clientAudience ∧
      trimEndSlashes a ≠ trimEndSlashes rt.server.managementClientAudience

/-- Where there is a token for Vault, no warning means that it is in a file. -/
theorem vaultWarnings_eq_nil_iff {vault : VaultConfig}
    (h : vault.token.isSome ∨ vault.tokenFile.isSome) :
    vaultWarnings vault = [] ↔ vault.tokenFile.isSome := by
  unfold vaultWarnings
  rw [errorIf_eq_nil_iff]
  cases hfile : vault.tokenFile with
  | some path => simp
  | none =>
      rw [hfile] at h
      simpa [Option.isSome_iff_ne_none] using h

/-- No warning about roles means that each of the expected ones is held by some account.
-/
theorem roleWarnings_eq_nil_iff {accounts : HashMap String (List String)} :
    roleWarnings accounts = [] ↔ ∀ role ∈ expectedRoles, ∃ account,
      (buildServiceAccountAuthorizer accounts).holdsRole account role = true := by
  unfold roleWarnings
  rw [List.flatMap_eq_nil_iff]
  refine forall₂_congr fun role _ => ?_
  simp only [errorIf_eq_nil_iff, List.all_eq_false, holdsRole_buildServiceAccountAuthorizer]
  constructor
  · intro h
    obtain ⟨⟨account, roles⟩, haccount, hroles⟩ := h
    exact ⟨account, roles, mem_toList_iff.mp haccount, by simpa using hroles⟩
  · intro h
    obtain ⟨account, roles, haccount, hroles⟩ := h
    exact ⟨(account, roles), mem_toList_iff.mpr haccount, by simpa using hroles⟩

/-- No warning about an audience means that it is neither the issuer of the cluster nor
the address of the API server, slashes at the end aside. -/
theorem apiServerAudienceWarnings_eq_nil_iff {setting audience : String} :
    apiServerAudienceWarnings cfg setting audience = [] ↔
      ∀ a, cfg.k8s.clusterIssuer = some a ∨ cfg.k8s.apiServerUrl = some a →
        trimEndSlashes a ≠ trimEndSlashes audience := by
  unfold apiServerAudienceWarnings
  rw [errorIf_eq_nil_iff]
  cases cfg.k8s.clusterIssuer <;> cases cfg.k8s.apiServerUrl <;> simp [or_imp, forall_and]

/-- Nothing is warned about exactly at a quiet start.  The warnings are a list of five
kinds, and it is empty when each of them is. -/
theorem Configured.warnings_eq_nil_iff (h : Configured out cfg rt) (hvalid : cfg.Valid out.toWorld) :
    rt.warnings = [] ↔ Quiet out cfg rt := by
  rw [h.warnings]
  simp only [List.append_eq_nil_iff, vaultWarnings_eq_nil_iff hvalid.vaultToken,
    roleWarnings_eq_nil_iff, ← h.accounts, apiServerAudienceWarnings_eq_nil_iff,
    clusterCaWarnings, sharedAudienceWarnings, errorIf_eq_nil_iff, Option.isNone_eq_false_iff,
    beq_eq_false_iff_ne]
  constructor
  · intro hquiet
    obtain ⟨⟨⟨⟨⟨⟨hvault, hexchange⟩, hroles⟩, hmanagement⟩, haudiences⟩, hclient⟩, hserver⟩ := hquiet
    refine ⟨hvault, ?_, hroles, haudiences, fun a ha => ⟨hclient a ha, hserver a ha⟩⟩
    intro port
    cases port with
    | exchange => exact hexchange
    | management => exact hmanagement
  · intro hquiet
    exact ⟨⟨⟨⟨⟨⟨hquiet.vault, hquiet.clusterCa .exchange⟩, hquiet.roles⟩,
      hquiet.clusterCa .management⟩, hquiet.audiences⟩, fun a ha => (hquiet.apiServer a ha).1⟩,
      fun a ha => (hquiet.apiServer a ha).2⟩

section Runs

variable (out : Outside V κ) (cfg : JwtletConfig) (tuning : PoolTuning) (rt : Runtime κ)
  (store : InnerStore)

/-- **A started server does what its configuration says.** In every run of a server that
was started over the memory store, a token is issued under the configured issuer, for the
configured lifetime of at most a day, in the participant context of the key that signs,
and only to a service account that the API server has just confirmed for the configured
audience.  An operation is performed only for such an account that the configuration lists
with the role.  Reviews are handed to the HTTP client addressed to the configured API
server, over https, with a token that was read from the configured file, and the document
that clients discover names the same issuer.  What the client does on a redirect is not
part of this, and the answer that it then returns is the API server's here. -/
theorem started_server (hrun : run out cfg tuning = .ok (rt, .memory store))
    (inputs : List (ClusterInput κ)) (pre post : List (ClusterEntry κ)) (e : ClusterEntry κ)
    (h : rt.historyOf store inputs = pre ++ e :: post) (ev : ServerEvent κ)
    (answer : ServerAnswer κ) (hserved : e.2.served = some (ev, answer)) :
    (∀ call ∈ answer.calls, cfg.issuer = some call.claims.iss ∧
      signingKeyName cfg = defaultSigningKeyPrefix ++ "-" ++ call.context.id ∧
      call.claims.exp.toInt - call.claims.iat.toInt = cfg.token.tokenTtlSecs.toInt ∧
      0 < call.claims.exp.toInt - call.claims.iat.toInt ∧
      call.claims.exp.toInt - call.claims.iat.toInt ≤ 86400 ∧
      ∃ audience form user act, cfg.token.clientAudience = some audience ∧
        ev.tokenForm = some form ∧
        ReviewedAs (rt.verifier .exchange) e audience form.subjectToken user ∧
        user.isServiceAccount = true ∧
        call.claims.custom["act"]? = some (.ofMap act) ∧ ActsFor (rt.verifier .exchange) user act) ∧
    (∀ actor op, ev.operation rt.server = some (actor, op) →
      (∃ roles, cfg.serviceAccounts[actor]? = some roles ∧ op.role ∈ roles) ∧
      ∃ request audience token user, ev.request = .management request ∧
        extractBearerToken request.authorization = some token ∧
        cfg.management.clientAudience.or cfg.token.clientAudience = some audience ∧
        ReviewedAs (rt.verifier .management) e audience token user ∧
        user.isServiceAccount = true ∧ user.username = actor) ∧
    (∀ n exchange, e.2.reviews[n]? = some exchange →
      ∃ request outside apiServerUrl parsed port contents,
      e.1 = .request request outside ∧ exchange.2 = outside.apiServer n exchange.1 ∧
      cfg.k8s.apiServerUrl = some apiServerUrl ∧ out.parseUrl apiServerUrl = some parsed ∧
      parsed.scheme = "https" ∧ exchange.1.url = apiServerUrl ++ tokenReviewApi ∧
      (∀ port, (out.setup port).readToString cfg.k8s.tokenFile = .ok (contents port)) ∧
      WasRead contents (pre ++ [e]) port exchange.1.bearer) ∧
    ∀ document, answer.response = .metadata document → cfg.issuer = some document.issuer := by
  have hvalid := valid_of_run hrun
  obtain ⟨hconfigured, -⟩ := (ends_run hvalid tuning).of_ok hrun
  obtain ⟨contents, hcontents, hhistory⟩ := exists_contents hrun
  rw [hhistory] at h
  refine ⟨?_, ?_, ?_, ?_⟩
  · intro call hcall
    obtain ⟨form, user, m, hform, huser, hpermitted, hissued⟩ := reviewed_of_call h hserved hcall
    obtain ⟨act, hact, hactor⟩ := hissued.act
    obtain ⟨hanswer, -, -⟩ := served_at h hserved
    rw [hanswer, step_of_tokenForm hform] at hcall
    obtain ⟨hcontext, hiss, hiat, hexp⟩ := shape_of_call hcall
    obtain ⟨hlifetime, hpos, hmax⟩ := lifetime_of_valid hvalid ev.outside.env.now
    have httl : call.claims.exp.toInt - call.claims.iat.toInt = cfg.token.tokenTtlSecs.toInt := by
      rw [hexp, hiat, ← hlifetime, ← hconfigured.tokenTtlSecs]
      rfl
    refine ⟨?_, ?_, httl, by omega, by omega, _, form, user, act, hconfigured.clientAudience, hform,
      huser, hconfigured.isServiceAccount huser, hact, actsFor_of_isActor hactor⟩
    · rw [hiss]
      exact hconfigured.issuer
    · rw [hcontext, signingKeyName, ← hconfigured.participantContext]
      rfl
  · intro actor op hop
    obtain ⟨request, token, user, hrequest, htoken, huser, hname, hrole⟩ :=
      reviewed_of_operation h hserved hop
    have hlisted : (buildServiceAccountAuthorizer cfg.serviceAccounts).holdsRole actor op.role =
        true := by
      rw [← hconfigured.accounts, ← hname]
      exact hrole
    have haccount := hconfigured.isServiceAccount huser
    have hsame : rt.cluster.verifier = rt.verifier .management := (hconfigured.verifier_eq _).symm
    rw [hsame] at huser
    refine ⟨(holdsRole_buildServiceAccountAuthorizer _ _ _).mp hlisted, request, _, token, user,
      hrequest, htoken, ?_, huser, haccount, hname⟩
    have haudience := hconfigured.managementClientAudience
    rw [hconfigured.clientAudience]
    cases hmanagement : cfg.management.clientAudience with
    | none =>
        rw [hmanagement] at haudience
        exact congrArg some haudience.symm
    | some audience =>
        rw [hmanagement] at haudience
        exact congrArg some haudience.symm
  · intro n exchange hexchange
    obtain ⟨-, hsent⟩ := reviews_of_entry h
    obtain ⟨request, outside, audience, token, hinput, -, hreview, hanswer, hread⟩ :=
      hsent n exchange hexchange
    obtain ⟨apiServerUrl, parsed, hurl, hparsed, hscheme⟩ := hvalid.apiServerUrl
    obtain ⟨cached, -, hv⟩ := hconfigured.verifier .exchange
    have hsame : apiServerUrl = (rt.verifier .exchange).apiServerUrl :=
      Option.some.inj (hurl.symm.trans hv.apiServerUrl)
    refine ⟨request, outside, apiServerUrl, parsed, request.port, contents, hinput, hanswer, hurl,
      hparsed, hscheme, ?_, hcontents, hread⟩
    rw [hreview, hsame]
    rfl
  · intro document hdocument
    obtain ⟨hanswer, -, -⟩ := served_at h hserved
    rw [hanswer] at hdocument
    rw [metadata_of_step hdocument]
    have hmetadata : rt.cluster.server.metadata.issuer = rt.server.tokenService.issuer := by
      exact congrArg AuthorizationServerMetadata.issuer hconfigured.metadata
    rw [hmetadata]
    exact hconfigured.issuer

/-- **A quiet start keeps tokens apart.** Nothing is warned about exactly if the
configuration is quiet.  Suppose that then each token is bound to one audience, and that
the API server confirms only that one, in any answer that the HTTP client returns for a
review.  In every run, no token that is exchanged or that administers the server is one
for the API server, and none does both. -/
theorem quiet_startup (hrun : run out cfg tuning = .ok (rt, .memory store)) :
    (rt.warnings = [] ↔ Quiet out cfg rt) ∧
    ∀ (inputs : List (ClusterInput κ)) (audienceOf : String → String),
      ConfirmsOnlyBound (fun token a => audienceOf token = a) inputs →
      rt.warnings = [] → ∀ e ∈ rt.historyOf store inputs, ∀ ev answer,
        e.2.served = some (ev, answer) →
        (∀ form, ev.tokenForm = some form → answer.calls ≠ [] →
          (∀ a, cfg.k8s.clusterIssuer = some a ∨ cfg.k8s.apiServerUrl = some a →
            trimEndSlashes a ≠ trimEndSlashes (audienceOf form.subjectToken)) ∧
          ∀ e' ∈ rt.historyOf store inputs, ∀ ev' answer' request,
            e'.2.served = some (ev', answer') → ev'.request = .management request →
            (ev'.operation rt.server).isSome →
            extractBearerToken request.authorization ≠ some form.subjectToken) ∧
        ∀ request, ev.request = .management request → (ev.operation rt.server).isSome →
          ∃ token, extractBearerToken request.authorization = some token ∧
            ∀ a, cfg.k8s.clusterIssuer = some a ∨ cfg.k8s.apiServerUrl = some a →
              trimEndSlashes a ≠ trimEndSlashes (audienceOf token) := by
  have hvalid := valid_of_run hrun
  obtain ⟨hconfigured, -⟩ := (ends_run hvalid tuning).of_ok hrun
  have hiff := hconfigured.warnings_eq_nil_iff hvalid
  obtain ⟨contents, -, hhistory⟩ := exists_contents hrun
  refine ⟨hiff, ?_⟩
  intro inputs audienceOf hbound hwarnings e he ev answer hserved
  have hquiet := hiff.mp hwarnings
  rw [hhistory] at he
  simp only [hhistory]
  constructor
  · intro form hform hissued
    have hsubject : audienceOf form.subjectToken = rt.server.tokenService.clientAudience :=
      bound_of_issued hbound he hserved hform hissued
    constructor
    · intro a ha
      rw [hsubject]
      exact (hquiet.apiServer a ha).1
    · intro e' he' ev' answer' request hserved' hrequest hoperation hsame
      obtain ⟨token, htoken, hbearer⟩ := bound_of_operation hbound he' hserved' hrequest hoperation
      have hmanagement : audienceOf token = rt.server.managementClientAudience := hbearer
      rw [hsame] at htoken
      cases htoken
      exact hquiet.audiences (hmanagement.symm.trans hsubject)
  · intro request hrequest hoperation
    obtain ⟨token, htoken, hbearer⟩ := bound_of_operation hbound he hserved hrequest hoperation
    have hmanagement : audienceOf token = rt.server.managementClientAudience := hbearer
    refine ⟨token, htoken, ?_⟩
    intro a ha
    rw [hmanagement]
    exact (hquiet.apiServer a ha).2

end Runs

/-- Nothing fails outside, and the file holds the token of the sample run, which is the
old one. -/
def sampleStartup : Outside Unit Unit where
  parseUrl := fun _ => some { scheme := "https" }
  pathExists := fun _ => true
  parsePgUrl := fun url => .ok
    { url, applicationName := none, sslMode := .prefer, sslRootCert := none
      statementCacheCapacity := 100 }
  pgPoolDefaults :=
    { maxConnections := 10, minConnections := 0, acquireTimeout := { secs := 30, nanos := 0 }
      idleTimeout := some { secs := 600, nanos := 0 }
      maxLifetime := some { secs := 1800, nanos := 0 }, testBeforeAcquire := true }
  connectWith := fun _ _ => .ok PostgresResourceStore.initialized
  createTables := .ok ()
  tempPath := fun name => "/tmp/" ++ name
  createNew := fun _ _ _ => .ok ()
  newVaultClient := fun _ => .ok ()
  initializeVaultClient := fun _ => .ok ()
  initializeKeyResolver := fun _ _ => .ok ()
  vaultJwtGenerator := fun _ _ _ _ => .ok "token"
  setup := fun _ =>
    { clusterCa := some (.ok []), parseCertificate := fun _ => .ok ()
      buildClient := fun _ _ _ => .ok (), readToString := fun _ => .ok "old-token\n"
      recommendedWatcher := .ok (), watch := fun _ => .ok () }
  verifier := fun _ _ => .error .invalidSignature
  displayStatus := fun _ => ""

/-- Both audiences are their own, and the administrator holds both roles, so that there is
nothing to warn about. -/
def sampleConfig : JwtletConfig where
  issuer := some "https://jwtlet"
  k8s := { apiServerUrl := some "https://kubernetes.default.svc"
           clusterIssuer := some "https://cluster" }
  token := { clientAudience := some "jwtlet-exchange", audience := some "https://api" }
  vault := { url := some "https://vault", tokenFile := some "/var/run/secrets/vault/token" }
  serviceAccounts := Std.ExtTreeMap.ofList
    [("system:serviceaccount:ops:admin", [roleMappingsWrite, roleScopesWrite])] compare
  management := { clientAudience := some "jwtlet-management" }

/-- The server of the sample run, as it was started: what the configuration says, put in
its place. -/
def sampleStarted : Runtime Unit where
  server :=
    { tokenService := { clientAudience := "jwtlet-exchange", audience := "https://api"
                        issuer := "https://jwtlet", verifier := fun _ _ => .error .invalidSignature
                        generator := fun _ _ => .ok "token" }
      keyResolver := ()
      serviceAccountAuthorizer := buildServiceAccountAuthorizer sampleConfig.serviceAccounts
      managementVerifier := fun _ _ => .error .invalidSignature
      managementClientAudience := "jwtlet-management"
      metadata := .new "https://jwtlet" }
  verifier := fun
    | .exchange => sampleCluster.verifier
    | .management => sampleCluster.verifier
  cached := fun
    | .exchange => some (trim "old-token\n")
    | .management => some (trim "old-token\n")
  warnings := []

/-- The sample configuration starts, without a warning. -/
theorem run_sample :
    run sampleStartup sampleConfig {} = .ok (sampleStarted, .memory MemoryResourceStore.new) := by
  have hchecked : sampleConfig.validate sampleStartup.toWorld = .ok () := by
    have hnone : (sampleConfig.errors sampleStartup.toWorld).isEmpty = true := by decide +kernel
    rw [JwtletConfig.validate, if_pos hnone]
  have hwarnings : vaultWarnings sampleConfig.vault ++
      clusterCaWarnings (sampleStartup.setup .exchange) ++
      roleWarnings sampleConfig.serviceAccounts ++
      clusterCaWarnings (sampleStartup.setup .management) ++
      sharedAudienceWarnings "jwtlet-management" "jwtlet-exchange" ++
      apiServerAudienceWarnings sampleConfig "token.client_audience" "jwtlet-exchange" ++
      apiServerAudienceWarnings sampleConfig "management.client_audience" "jwtlet-management" =
        [] := by
    decide +kernel
  have hrun : run sampleStartup sampleConfig {} = .ok ({ sampleStarted with
      warnings := vaultWarnings sampleConfig.vault ++
      clusterCaWarnings (sampleStartup.setup .exchange) ++
      roleWarnings sampleConfig.serviceAccounts ++
      clusterCaWarnings (sampleStartup.setup .management) ++
      sharedAudienceWarnings "jwtlet-management" "jwtlet-exchange" ++
      apiServerAudienceWarnings sampleConfig "token.client_audience" "jwtlet-exchange" ++
      apiServerAudienceWarnings sampleConfig "management.client_audience" "jwtlet-management" },
        .memory MemoryResourceStore.new) := by
    rw [run, hchecked]
    rfl
  rw [hrun, hwarnings]
  rfl

/-- The requests of the sample run, to the started server, with no renewal among them. -/
def startedInputs : List (ClusterInput Unit) := [scopeInput, mappingInput, exchangeInput]

/-- The entry of the token request, after the two that set the policy up. -/
def startedEntry : ClusterEntry Unit :=
  (exchangeInput, (sampleStarted.cluster.step
    (after sampleStarted.cluster.step
      { store := MemoryResourceStore.new, cached := sampleStarted.cached }
      [scopeInput, mappingInput]) exchangeInput).1)

/-- The token request of the sample gets a token, for the subject token that was reviewed.
-/
theorem served_startedEntry :
    ∃ ev answer form, startedEntry.2.served = some (ev, answer) ∧ answer.calls ≠ [] ∧
      ev.tokenForm = some form ∧ form.subjectToken = "sa-token" := by
  have hserved : (startedEntry.2.served.map fun found =>
      (found.2.calls.length, found.1.tokenForm.map TokenExchangeForm.subjectToken)) =
        some (1, some "sa-token") := by
    decide +kernel
  obtain ⟨⟨ev, answer⟩, hfound, hvalue⟩ := Option.map_eq_some_iff.mp hserved
  obtain ⟨hcalls, htoken⟩ := Prod.mk.inj hvalue
  obtain ⟨form, hform, hsubject⟩ := Option.map_eq_some_iff.mp htoken
  refine ⟨ev, answer, form, hfound, ?_, hform, hsubject⟩
  intro hnil
  rw [hnil] at hcalls
  cases hcalls

/-- The token has the configured issuer and lives for an hour, which is the configured
lifetime. -/
theorem started_server_sample :
    ∃ ev answer call, startedEntry.2.served = some (ev, answer) ∧ call ∈ answer.calls ∧
      call.claims.iss = "https://jwtlet" ∧
      call.claims.exp.toInt - call.claims.iat.toInt = (3600 : Int64).toInt := by
  obtain ⟨ev, answer, form, hserved, hcalls, -, -⟩ := served_startedEntry
  obtain ⟨call, hcall⟩ := List.exists_mem_of_ne_nil _ hcalls
  obtain ⟨hissued, -⟩ := started_server sampleStartup sampleConfig {} sampleStarted
    MemoryResourceStore.new run_sample startedInputs
    (sampleStarted.historyOf MemoryResourceStore.new [scopeInput, mappingInput]) [] startedEntry rfl
    ev answer hserved
  obtain ⟨hiss, -, hlifetime, -⟩ := hissued call hcall
  exact ⟨ev, answer, call, hserved, hcall, (Option.some.inj hiss).symm, hlifetime⟩

/-- The audience that each token of the sample is bound to: that of the exchange for the
subject token, and that of the management API for any other. -/
def startedAudienceOf (token : String) : String :=
  if token = "sa-token" then "jwtlet-exchange" else "jwtlet-management"

/-- The subject token of the sample is none for the API server. -/
theorem quiet_startup_sample :
    ∃ form : TokenExchangeForm, form.subjectToken = "sa-token" ∧
      trimEndSlashes "https://cluster" ≠ trimEndSlashes (startedAudienceOf form.subjectToken) := by
  obtain ⟨ev, answer, form, hserved, hcalls, hform, hsubject⟩ := served_startedEntry
  have hbound : ConfirmsOnlyBound (fun token a => startedAudienceOf token = a) startedInputs := by
    intro request outside hmem n sent review hreview a ha
    rw [apiServer_of_sample hmem] at hreview
    have hpair := audiences_sampleApiServer hreview a ha
    simp only [List.mem_cons, Prod.mk.injEq, List.not_mem_nil, or_false] at hpair
    rcases hpair with ⟨htoken, rfl⟩ | ⟨htoken, rfl⟩
    · rw [htoken]
      rfl
    · rw [htoken]
      rfl
  obtain ⟨-, hapart⟩ := quiet_startup sampleStartup sampleConfig {} sampleStarted
    MemoryResourceStore.new run_sample
  obtain ⟨hissued, -⟩ := hapart startedInputs startedAudienceOf hbound rfl startedEntry
    (@List.mem_of_getElem? _ _ 2 _ rfl) ev answer hserved
  exact ⟨form, hsubject, (hissued form hform hcalls).1 _ (Or.inl rfl)⟩

end Assembly

end Jwtlet
