import Jwtlet.ClusterServer
import Jwtlet.FallibleSteps

/-!
# Assembly

`jwtlet-server/src/assembly/mod.rs` and `run_jwtlet` of `main.rs`: how a configuration
becomes a server.  What startup asks of the outside - files, Vault, the database and
the libraries that are set up - is a parameter.  The order of the steps, the checks
between them with their messages, the warnings, and what goes where are the code's.

A configuration that validation accepts passes every check of the assembly, so that
startup then fails only for a reason outside (`startup_outcomes`).
-/

namespace Jwtlet

open Rust Fallible

/-- Prefix of the Vault transit key that signs issued tokens, which the participant
context of the configuration completes. -/
def defaultSigningKeyPrefix : String := "signing"

/-- `K8S_CONNECT_TIMEOUT`, of the client that sends the reviews. -/
def k8sConnectTimeout : Duration := { secs := 5, nanos := 0 }

/-- `K8S_REQUEST_TIMEOUT`, for a review from the connection to the end of the answer. -/
def k8sRequestTimeout : Duration := { secs := 10, nanos := 0 }

/-- `sqlx::postgres::PgSslMode`: the six modes of the driver, of which validation accepts
only those that `parseSslMode` knows. -/
inductive PgSslMode where
  | disable
  | allow
  | prefer
  | require
  | verifyCa
  | verifyFull
  deriving DecidableEq

/-- `PgConnectOptions`: what was read from the URL, with the options that are set after
it, each of which takes the place of what the URL says. -/
structure PgConnectOptions where
  url : String
  applicationName : Option String
  sslMode : PgSslMode
  sslRootCert : Option String
  statementCacheCapacity : Nat

/-- `PgPoolOptions`, with the defaults of the driver where the configuration is silent. -/
structure PgPoolOptions where
  maxConnections : UInt32
  minConnections : UInt32
  acquireTimeout : Duration
  idleTimeout : Option Duration
  maxLifetime : Option Duration
  testBeforeAcquire : Bool

/-- `HashicorpVaultConfig`; the client logs in with the token of the file, so a literal
token has to be put in one first. -/
structure HashicorpVaultConfig where
  vaultUrl : String
  tokenFilePath : String
  signingKeyName : String

/-- What setting up one verifier meets outside: the certificate of the cluster, the HTTP
client, the token file and the watcher on it. -/
structure VerifierSetup where
  /-- What reading the cluster CA file gives, if there is one. -/
  clusterCa : Option (Except String (List UInt8))
  parseCertificate : List UInt8 → Except String Unit
  buildClient : Duration → Duration → Option (List UInt8) → Except String Unit
  readToString : String → Except String String
  recommendedWatcher : Except String Unit
  watch : String → Except String Unit

/-- What startup asks of the outside; `V` is a Vault client and `κ` a key set.  The two
verifiers meet it separately, and need not find it the same. -/
structure Outside (V κ : Type) extends World where
  parsePgUrl : String → Except String PgConnectOptions
  pgPoolDefaults : PgPoolOptions
  connectWith : PgPoolOptions → PgConnectOptions → Except String Database
  createTables : Except String Unit
  /-- A new path in the temp directory. -/
  tempPath : String → String
  /-- Create a file that was not there, with this mode and content. -/
  createNew : String → Nat → String → Except String Unit
  newVaultClient : HashicorpVaultConfig → Except String V
  initializeVaultClient : V → Except String Unit
  initializeKeyResolver : V → ParticipantContext → Except JwtVerificationError κ
  vaultJwtGenerator : V → String → JwtGenerator
  setup : Port → VerifierSetup
  /-- How the verifiers answer when they were just set up. -/
  verifier : JwtVerifier
  displayStatus : StatusCode → String

/-- The settings of the pool that validation does not read, and that a configuration may
leave out. -/
structure PoolTuning where
  idleTimeout : Option Duration := none
  maxLifetime : Option Duration := none
  testBeforeAcquire : Option Bool := none
  applicationName : Option String := none
  statementCacheCapacity : Option Nat := none
  runMigrationsOnStartup : Option Bool := none

namespace Assembly

/-- The errors that the assembly ends with, each with the message of what has failed. -/
inductive JwtletError where
  | configuration (msg : String)
  | database (msg : String)
  | vault (msg : String)
  | verifier (e : JwtVerificationError)
  | io (msg : String)
  deriving DecidableEq

/-- The errors of `assembleTokenService` among those of the assembly.  It only ever
complains of the configuration. -/
def ofTokenService : Jwtlet.JwtletError → JwtletError
  | .configuration msg => .configuration msg

/-- What stops `run_jwtlet` before the server runs: a configuration that is not valid, or
an assembly that fails. -/
inductive StartupError where
  | invalid (e : ValidationError)
  | assembly (e : JwtletError)

/-- The store that the runtime works on, which the configuration chooses and nothing
changes later. -/
inductive Storage where
  | memory (store : InnerStore)
  | postgres (database : Database)

/-- `JwtletRuntime`, with the verifiers that were created for it, the token that each has
cached, and the warnings that were logged on the way, in their order. -/
structure Runtime (κ : Type) where
  server : JwtletRuntime κ
  verifier : Port → K8sTokenReviewVerifier
  cached : Port → Option String
  warnings : List String

section Components

variable {V κ : Type} (out : Outside V κ)

/-- `parse_ssl_mode`: the modes by their names in the configuration, and an error that
quotes any other. -/
def parseSslMode (mode : String) : Except JwtletError PgSslMode :=
  if mode = "disable" then .ok .disable
  else if mode = "prefer" then .ok .prefer
  else if mode = "require" then .ok .require
  else if mode = "verify-ca" then .ok .verifyCa
  else if mode = "verify-full" then .ok .verifyFull
  else .error (.configuration ("Invalid storage_backend.pool.sslmode '" ++ mode ++ "'"))

/-- `build_connect_options`: the URL, and then the options that the configuration sets
beside it. -/
def buildConnectOptions (url : String) (pool : PostgresPoolConfig) (tuning : PoolTuning) :
    Except JwtletError PgConnectOptions := do
  let opts ← (out.parsePgUrl url).mapError fun e =>
    .configuration ("Invalid storage_backend.url: " ++ e)
  let sslMode ← pool.sslmode.elim (.ok opts.sslMode) parseSslMode
  return { opts with
    applicationName := tuning.applicationName.or opts.applicationName
    sslMode
    sslRootCert := pool.sslRootCert.or opts.sslRootCert
    statementCacheCapacity := tuning.statementCacheCapacity.getD opts.statementCacheCapacity }

/-- `build_pool_options`: each setting that the configuration has in the place of the
default. -/
def buildPoolOptions (pool : PostgresPoolConfig) (tuning : PoolTuning) : PgPoolOptions :=
  let opts := out.pgPoolDefaults
  { maxConnections := pool.maxConnections.getD opts.maxConnections
    minConnections := pool.minConnections.getD opts.minConnections
    acquireTimeout := pool.acquireTimeout.getD opts.acquireTimeout
    idleTimeout := tuning.idleTimeout.or opts.idleTimeout
    maxLifetime := tuning.maxLifetime.or opts.maxLifetime
    testBeforeAcquire := tuning.testBeforeAcquire.getD opts.testBeforeAcquire }

/-- `connect_postgres`, with `PostgresResourceStore::initialize` unless migrations are
switched off; its error is a `ResourceError`, and becomes a database error of the
assembly. -/
def connectPostgres (url : String) (pool : PostgresPoolConfig) (tuning : PoolTuning) :
    Except JwtletError Database := do
  let connectOptions ← buildConnectOptions out url pool tuning
  let database ← (out.connectWith (buildPoolOptions out pool tuning) connectOptions).mapError
    fun e => .database ("Failed to connect to Postgres: " ++ e)
  if tuning.runMigrationsOnStartup.getD true then
    out.createTables.mapError fun e => .database ("Failed to initialize Postgres store: " ++ e)
  return database

/-- `write_private_temp_file`: the file is created anew, and only the current user can
read it. -/
def writePrivateTempFile (namePrefix contents : String) : Except JwtletError String :=
  let path := out.tempPath namePrefix
  ((out.createNew path 0o600 contents).map fun _ => path).mapError .io

/-- The file with the token for Vault: the one that the configuration names, or a private
one with the token that it holds. -/
def vaultTokenFile (cfg : VaultConfig) : Except JwtletError String :=
  match cfg.tokenFile, cfg.token with
  | some path, _ => .ok path
  | none, some token => writePrivateTempFile out "jwtlet_vault_token" token
  | none, none => .error (.configuration "Either vault.token or vault.token_file is required")

/-- `create_vault_client`: the client is created with the signing key's name, and
initialized before anything else may use it. -/
def createVaultClient (cfg : VaultConfig) (signingKeyName : String) : Except JwtletError V := do
  let vaultUrl ← cfg.url.elim (.error (.configuration "vault.url is required")) .ok
  let tokenFilePath ← vaultTokenFile out cfg
  let client ← (out.newVaultClient { vaultUrl, tokenFilePath, signingKeyName }).mapError .vault
  (out.initializeVaultClient client).mapError .vault
  return client

/-- `create_key_resolver`: the resolver of the published keys, through the same Vault
client that signs. -/
def createKeyResolver (vaultClient : V) : Except JwtletError κ :=
  (out.initializeKeyResolver vaultClient { id := "jwtlet" }).mapError .verifier

/-- `FileBasedRenewalTrigger::new`: the watcher is created, and set on the token file. -/
def newRenewalTrigger (setup : VerifierSetup) (tokenFile : String) :
    Except JwtVerificationError Unit := do
  setup.recommendedWatcher.mapError fun e =>
    .verificationFailed ("Failed to create file watcher: " ++ e)
  (setup.watch tokenFile).mapError fun e =>
    .verificationFailed ("Failed to watch token file " ++ tokenFile ++ ": " ++ e)

/-- `initialize` of a verifier that has no token yet: the token it caches is what the file
holds, trimmed, and the file is watched from then on. -/
def initializeVerifier (setup : VerifierSetup) (v : K8sTokenReviewVerifier) :
    Except JwtVerificationError String := do
  let raw ← (setup.readToString v.tokenFile).mapError fun e =>
    .verificationFailed ("Failed to read SA token file " ++ v.tokenFile ++ ": " ++ e)
  newRenewalTrigger setup v.tokenFile
  return trim raw

/-- The certificate of the cluster, if there is one.  A file that is there must be
readable and hold a certificate. -/
def clusterCertificate (setup : VerifierSetup) : Except JwtletError (Option (List UInt8)) :=
  match setup.clusterCa with
  | none => .ok none
  | some file => do
      let certPem ← file.mapError .io
      (setup.parseCertificate certPem).mapError fun e =>
        .configuration ("Invalid cluster CA cert: " ++ e)
      return some certPem

/-- The HTTP client of `create_k8s_verifier`: the two timeouts, and the certificate as a
further root if there is one.  There is no redirect policy, so the client keeps its
default and follows redirects. -/
def buildHttpClient (setup : VerifierSetup) : Except JwtletError Unit := do
  let cert ← clusterCertificate setup
  (setup.buildClient k8sConnectTimeout k8sRequestTimeout cert).mapError fun e =>
    .configuration ("Failed to build HTTP client: " ++ e)

/-- `create_k8s_verifier`: a verifier, and the token it has cached.  The settings are
checked first, although validation has done so before. -/
def createK8sVerifier (port : Port) (cfg : K8sConfig) :
    Except JwtletError (K8sTokenReviewVerifier × String) := do
  let apiServerUrl ← cfg.apiServerUrl.elim
    (.error (.configuration "k8s.api_server_url is required")) .ok
  let clusterIssuer ← cfg.clusterIssuer.elim
    (.error (.configuration "k8s.cluster_issuer is required")) .ok
  buildHttpClient (out.setup port)
  let verifier : K8sTokenReviewVerifier :=
    { apiServerUrl, clusterIssuer, tokenFile := cfg.tokenFile, displayStatus := out.displayStatus }
  let token ← (initializeVerifier (out.setup port) verifier).mapError .verifier
  return (verifier, token)

end Components

/-- `str::trim_end_matches('/')`: the text without the slashes at its end, however many
there are. -/
def trimEndSlashes (s : String) : String := String.ofList (s.toList.rdropWhile (· == '/'))

/-- The warning about a token for Vault that stands in the configuration itself. -/
def vaultWarnings (cfg : VaultConfig) : List String :=
  errorIf (cfg.tokenFile.isNone && cfg.token.isSome)
    "Using literal vault token from config — do not use in production"

/-- The warning about a cluster without a certificate of its own. -/
def clusterCaWarnings (setup : VerifierSetup) : List String :=
  errorIf setup.clusterCa.isNone ("Cluster CA not found at " ++
    "/var/run/secrets/kubernetes.io/serviceaccount/ca.crt" ++
    "; verifying the API server against system roots")

/-- The roles that `build_service_account_authorizer` wants held by someone.  The role for
reading is not among them. -/
def expectedRoles : List String :=
  ["jwtlet:management:mappings:write", "jwtlet:management:scope:write"]

/-- The warnings about roles that nobody holds, one for each of the expected roles. -/
def roleWarnings (accounts : HashMap String (List String)) : List String :=
  expectedRoles.flatMap fun role =>
    errorIf (accounts.toList.all fun account => !account.2.contains role)
      ("No service account with '" ++ role ++ "' role is configured — " ++
        "those management API routes will return 403 Forbidden")

/-- The warning about an audience that the two ports share, which makes a token for one of
them good for the other. -/
def sharedAudienceWarnings (managementClientAudience clientAudience : String) : List String :=
  errorIf (managementClientAudience == clientAudience)
    ("management.client_audience is not set or equals token.client_audience — " ++
      "exchange callers and management callers share the same token audience. " ++
      "Consider setting management.client_audience to a distinct value.")

/-- `warn_if_api_server_audience`: an audience that is also the API server's own, up to
slashes at the end, is one that tokens of every pod are for. -/
def apiServerAudienceWarnings (cfg : JwtletConfig) (setting audience : String) : List String :=
  errorIf ([cfg.k8s.clusterIssuer, cfg.k8s.apiServerUrl].any fun a =>
      a.any fun a => trimEndSlashes a == trimEndSlashes audience)
    (setting ++ " '" ++ audience ++ "' is the Kubernetes API server audience — tokens " ++
      "presented to jwtlet are also valid Kubernetes API credentials and could be replayed " ++
      "against the cluster. Prefer a dedicated audience with projected service account tokens.")

section Runtime

variable {V κ : Type} (out : Outside V κ)

/-- The key in Vault that signs for the participant context of the configuration, under
the name that the transit engine knows it by. -/
def signingKeyName (cfg : JwtletConfig) : String :=
  defaultSigningKeyPrefix ++ "-" ++ cfg.token.participantContextClaim

/-- `assemble`: first what needs Vault, then the two verifiers, the one of the exchange
before the other, and in the end the runtime with everything in its place. -/
def assemble (cfg : JwtletConfig) : Except JwtletError (Runtime κ) := do
  let vaultClient ← createVaultClient out cfg.vault (signingKeyName cfg)
  let keyResolver ← createKeyResolver out vaultClient
  let jwtGenerator := out.vaultJwtGenerator vaultClient defaultSigningKeyPrefix
  let tokenService ← (assembleTokenService cfg out.verifier jwtGenerator).mapError ofTokenService
  let (exchangeVerifier, exchangeToken) ← createK8sVerifier out .exchange cfg.k8s
  let (managementVerifier, managementToken) ← createK8sVerifier out .management cfg.k8s
  let managementClientAudience := cfg.management.clientAudience.getD tokenService.clientAudience
  return {
    server :=
      { tokenService, keyResolver
        serviceAccountAuthorizer := buildServiceAccountAuthorizer cfg.serviceAccounts
        managementVerifier := out.verifier
        managementClientAudience
        metadata := .new tokenService.issuer }
    verifier := fun
      | .exchange => exchangeVerifier
      | .management => managementVerifier
    cached := fun
      | .exchange => some exchangeToken
      | .management => some managementToken
    warnings := vaultWarnings cfg.vault ++ clusterCaWarnings (out.setup .exchange) ++
      roleWarnings cfg.serviceAccounts ++ clusterCaWarnings (out.setup .management) ++
      sharedAudienceWarnings managementClientAudience tokenService.clientAudience ++
      apiServerAudienceWarnings cfg "token.client_audience" tokenService.clientAudience ++
      apiServerAudienceWarnings cfg "management.client_audience" managementClientAudience }

/-- `assemble_memory`: the runtime over a new store, which is empty. -/
def assembleMemory (cfg : JwtletConfig) : Except JwtletError (Runtime κ × Storage) := do
  let runtime ← assemble out cfg
  return (runtime, .memory MemoryResourceStore.new)

/-- `assemble_postgres`: the database is connected before the rest is assembled, and a
configuration for memory is refused. -/
def assemblePostgres (cfg : JwtletConfig) (tuning : PoolTuning) :
    Except JwtletError (Runtime κ × Storage) :=
  match cfg.storageBackend with
  | .memory => .error (.configuration "assemble_postgres called with non-postgres backend")
  | .postgres url pool => do
      if url = "" then
        throw (.configuration "storage_backend.url is required for postgres backend")
      let database ← connectPostgres out url pool tuning
      let runtime ← assemble out cfg
      return (runtime, .postgres database)

/-- `run_jwtlet`, from the loaded configuration to the start of the server.  Validation
comes first, and decides which errors can still occur. -/
def run (cfg : JwtletConfig) (tuning : PoolTuning) : Except StartupError (Runtime κ × Storage) := do
  (cfg.validate out.toWorld).mapError .invalid
  match cfg.storageBackend with
  | .memory => (assembleMemory out cfg).mapError .assembly
  | .postgres _ _ => (assemblePostgres out cfg tuning).mapError .assembly

end Runtime

section Failures

variable {V κ : Type} (out : Outside V κ)

/-- An error that carries what an operation outside has failed with.  There is one case
for each place where the assembly passes such an error on. -/
inductive OutsideFailure : JwtletError → Prop
  | pgUrl {url msg : String} (h : out.parsePgUrl url = .error msg) :
      OutsideFailure (.configuration ("Invalid storage_backend.url: " ++ msg))
  | connect {opts : PgConnectOptions} {pool : PgPoolOptions} {msg : String}
      (h : out.connectWith pool opts = .error msg) :
      OutsideFailure (.database ("Failed to connect to Postgres: " ++ msg))
  | createTables {msg : String} (h : out.createTables = .error msg) :
      OutsideFailure (.database ("Failed to initialize Postgres store: " ++ msg))
  | tempFile {path contents msg : String} (h : out.createNew path 0o600 contents = .error msg) :
      OutsideFailure (.io msg)
  | newVaultClient {cfg : HashicorpVaultConfig} {msg : String}
      (h : out.newVaultClient cfg = .error msg) : OutsideFailure (.vault msg)
  | initializeVaultClient {client : V} {msg : String}
      (h : out.initializeVaultClient client = .error msg) : OutsideFailure (.vault msg)
  | keyResolver {client : V} {context : ParticipantContext} {e : JwtVerificationError}
      (h : out.initializeKeyResolver client context = .error e) : OutsideFailure (.verifier e)
  | clusterCa {port : Port} {msg : String} (h : (out.setup port).clusterCa = some (.error msg)) :
      OutsideFailure (.io msg)
  | certificate {port : Port} {certPem : List UInt8} {msg : String}
      (h : (out.setup port).parseCertificate certPem = .error msg) :
      OutsideFailure (.configuration ("Invalid cluster CA cert: " ++ msg))
  | httpClient {port : Port} {cert : Option (List UInt8)} {msg : String}
      (h : (out.setup port).buildClient k8sConnectTimeout k8sRequestTimeout cert = .error msg) :
      OutsideFailure (.configuration ("Failed to build HTTP client: " ++ msg))
  | tokenFile {port : Port} {path msg : String} (h : (out.setup port).readToString path = .error msg) :
      OutsideFailure (.verifier (.verificationFailed
        ("Failed to read SA token file " ++ path ++ ": " ++ msg)))
  | watcher {port : Port} {msg : String} (h : (out.setup port).recommendedWatcher = .error msg) :
      OutsideFailure (.verifier (.verificationFailed ("Failed to create file watcher: " ++ msg)))
  | watch {port : Port} {path msg : String} (h : (out.setup port).watch path = .error msg) :
      OutsideFailure (.verifier (.verificationFailed
        ("Failed to watch token file " ++ path ++ ": " ++ msg)))

variable {out}

/-- Each accepted mode is known to the driver, so parsing it cannot fail. -/
theorem ends_parseSslMode {mode : String} {Q : JwtletError → Prop} (h : mode ∈ validSslModes) :
    Ends (fun _ => True) Q (parseSslMode mode) := by
  simp only [validSslModes, List.mem_cons, List.not_mem_nil, or_false] at h
  rcases h with rfl | rfl | rfl | rfl | rfl <;> exact trivial

/-- The options are built unless the URL cannot be parsed. -/
theorem ends_buildConnectOptions {url : String} {pool : PostgresPoolConfig} (tuning : PoolTuning)
    (h : ∀ mode, pool.sslmode = some mode → mode ∈ validSslModes) :
    Ends (fun opts => buildConnectOptions out url pool tuning = .ok opts) (OutsideFailure out)
      (buildConnectOptions out url pool tuning) := by
  have hends : Ends (fun _ => True) (OutsideFailure out)
      (buildConnectOptions out url pool tuning) := by
    refine (ends_mapError fun e he => .pgUrl he).bind fun opts _ => ?_
    have hmode : Ends (fun _ => True) (OutsideFailure out)
        (pool.sslmode.elim (.ok opts.sslMode) parseSslMode) := by
      cases hsome : pool.sslmode with
      | none => exact trivial
      | some mode => exact ends_parseSslMode (h mode hsome)
    exact hmode.bind fun _ _ => trivial
  cases hopts : buildConnectOptions out url pool tuning with
  | ok opts => rfl
  | error e => exact hends.of_error hopts

/-- Connecting ends with the database that the options reach, or with a failure of the
driver. -/
theorem ends_connectPostgres {url : String} {pool : PostgresPoolConfig} (tuning : PoolTuning)
    (h : ∀ mode, pool.sslmode = some mode → mode ∈ validSslModes) :
    Ends (fun database => ∃ opts, buildConnectOptions out url pool tuning = .ok opts ∧
        out.connectWith (buildPoolOptions out pool tuning) opts = .ok database)
      (OutsideFailure out) (connectPostgres out url pool tuning) := by
  refine (ends_buildConnectOptions tuning h).bind fun opts hopts => ?_
  refine (ends_mapError fun e he => .connect he).bind fun database hdatabase => ?_
  have hdone : ∃ opts, buildConnectOptions out url pool tuning = .ok opts ∧
      out.connectWith (buildPoolOptions out pool tuning) opts = .ok database :=
    ⟨opts, hopts, hdatabase⟩
  by_cases hmigrate : tuning.runMigrationsOnStartup.getD true = true
  · simp only [hmigrate, if_true]
    exact (ends_mapError fun e he => .createTables he).bind fun _ _ => hdone
  · simp only [hmigrate]
    exact hdone

/-- The secret goes into a file, if it is not in one; only writing it can fail. -/
theorem ends_vaultTokenFile {cfg : VaultConfig} (h : cfg.token.isSome ∨ cfg.tokenFile.isSome) :
    Ends (fun _ => True) (OutsideFailure out) (vaultTokenFile out cfg) := by
  unfold vaultTokenFile
  split
  · trivial
  · next token _ _ =>
    have hfile := ends_self (out.createNew (out.tempPath "jwtlet_vault_token") 0o600 token)
    exact (hfile.map fun _ _ => trivial).mapError fun e he => .tempFile he
  · next hfile htoken =>
    rw [hfile, htoken] at h
    rcases h with h | h <;> cases h

/-- A client is created for the address of the configuration and the given key, unless the
token file or the library fails. -/
theorem ends_createVaultClient {cfg : VaultConfig} (name : String) (hurl : cfg.url.isSome)
    (htoken : cfg.token.isSome ∨ cfg.tokenFile.isSome) :
    Ends (fun client => ∃ vault : HashicorpVaultConfig, out.newVaultClient vault = .ok client ∧
        cfg.url = some vault.vaultUrl ∧ vault.signingKeyName = name)
      (OutsideFailure out) (createVaultClient out cfg name) := by
  refine (ends_elim hurl).bind fun vaultUrl hvaultUrl => ?_
  refine (ends_vaultTokenFile htoken).bind fun tokenFilePath _ => ?_
  refine (ends_mapError fun e he => .newVaultClient he).bind fun client hclient => ?_
  refine (ends_mapError fun e he => .initializeVaultClient he).bind fun _ _ => ?_
  exact ⟨_, hclient, hvaultUrl, rfl⟩

/-- Reading and parsing the certificate are all that can fail about it. -/
theorem ends_clusterCertificate (port : Port) :
    Ends (fun _ => True) (OutsideFailure out) (clusterCertificate (out.setup port)) := by
  unfold clusterCertificate
  split
  · trivial
  · next file hca =>
    refine Ends.bind (ends_mapError fun e he => .clusterCa (by rw [hca, he])) fun certPem _ => ?_
    exact Ends.bind (ends_mapError fun e he => .certificate he) fun _ _ => trivial

/-- Building the HTTP client fails with the certificate, or with the library. -/
theorem ends_buildHttpClient (port : Port) :
    Ends (fun _ => True) (OutsideFailure out) (buildHttpClient (out.setup port)) := by
  refine (ends_clusterCertificate port).bind fun cert _ => ?_
  exact Ends.imp (ends_mapError fun e he => .httpClient he) fun _ _ => trivial

/-- The token of the file is cached, or reading the file or watching it has failed. -/
theorem ends_initializeVerifier (port : Port) (v : K8sTokenReviewVerifier) :
    Ends (fun token => ∃ raw, (out.setup port).readToString v.tokenFile = .ok raw ∧ token = trim raw)
      (OutsideFailure out) ((initializeVerifier (out.setup port) v).mapError .verifier) := by
  have hread : Ends (fun token => ∃ raw, (out.setup port).readToString v.tokenFile = .ok raw ∧
      token = trim raw) (fun e => OutsideFailure out (.verifier e))
        (initializeVerifier (out.setup port) v) := by
    refine Ends.bind (ends_mapError fun e he => .tokenFile he) fun raw hraw => ?_
    have htrigger : Ends (fun _ => True) (fun e => OutsideFailure out (.verifier e))
        (newRenewalTrigger (out.setup port) v.tokenFile) := by
      refine Ends.bind (ends_mapError fun e he => .watcher he) fun _ _ => ?_
      exact Ends.imp (ends_mapError fun e he => .watch he) fun _ _ => trivial
    exact htrigger.bind fun _ _ => ⟨raw, hraw, rfl⟩
  exact hread.mapError fun e he => he

/-- What `create_k8s_verifier` makes of the configuration: the address and the issuer are
those given, and the rest is fixed. -/
structure VerifierOf (out : Outside V κ) (cfg : K8sConfig) (port : Port)
    (v : K8sTokenReviewVerifier) (token : String) : Prop where
  apiServerUrl : cfg.apiServerUrl = some v.apiServerUrl
  clusterIssuer : cfg.clusterIssuer = some v.clusterIssuer
  tokenFile : v.tokenFile = cfg.tokenFile
  requireServiceAccount : v.requireServiceAccount = true
  displayStatus : v.displayStatus = out.displayStatus
  cached : ∃ raw, (out.setup port).readToString cfg.tokenFile = .ok raw ∧ token = trim raw

/-- Where address and issuer are given, a verifier is created unless something outside
fails. -/
theorem ends_createK8sVerifier (port : Port) {cfg : K8sConfig} (hurl : cfg.apiServerUrl.isSome)
    (hissuer : cfg.clusterIssuer.isSome) :
    Ends (fun created => VerifierOf out cfg port created.1 created.2) (OutsideFailure out)
      (createK8sVerifier out port cfg) := by
  refine (ends_elim hurl).bind fun apiServerUrl hapi => ?_
  refine (ends_elim hissuer).bind fun clusterIssuer hcluster => ?_
  refine (ends_buildHttpClient port).bind fun _ _ => ?_
  refine (ends_initializeVerifier port _).bind fun token htoken => ?_
  exact ⟨hapi, hcluster, rfl, rfl, rfl, htoken⟩

end Failures

section Outcome

variable {V κ : Type} (out : Outside V κ)

/-- Everything in the runtime comes from the configuration: the settings of the exchange,
the accounts, the verifiers and the document with the issuer.  Tokens are signed, and
their keys published, through one Vault client. -/
structure Configured (cfg : JwtletConfig) (rt : Runtime κ) : Prop where
  clientAudience : cfg.token.clientAudience = some rt.server.tokenService.clientAudience
  audience : cfg.token.audience = some rt.server.tokenService.audience
  issuer : cfg.issuer = some rt.server.tokenService.issuer
  participantContext :
    rt.server.tokenService.jwtletParticipantContext = cfg.token.participantContextClaim
  tokenTtlSecs : rt.server.tokenService.tokenTtlSecs = cfg.token.tokenTtlSecs
  accounts : rt.server.serviceAccountAuthorizer = buildServiceAccountAuthorizer cfg.serviceAccounts
  managementClientAudience : rt.server.managementClientAudience =
    cfg.management.clientAudience.getD rt.server.tokenService.clientAudience
  metadata : rt.server.metadata = .new rt.server.tokenService.issuer
  verifier : ∀ port, ∃ token, rt.cached port = some token ∧
    VerifierOf out cfg.k8s port (rt.verifier port) token
  vault : ∃ vault client, out.newVaultClient vault = .ok client ∧
    cfg.vault.url = some vault.vaultUrl ∧ vault.signingKeyName = signingKeyName cfg ∧
    rt.server.tokenService.generator = out.vaultJwtGenerator client defaultSigningKeyPrefix ∧
    out.initializeKeyResolver client { id := "jwtlet" } = .ok rt.server.keyResolver
  warnings : rt.warnings = vaultWarnings cfg.vault ++ clusterCaWarnings (out.setup .exchange) ++
    roleWarnings cfg.serviceAccounts ++ clusterCaWarnings (out.setup .management) ++
    sharedAudienceWarnings rt.server.managementClientAudience
      rt.server.tokenService.clientAudience ++
    apiServerAudienceWarnings cfg "token.client_audience" rt.server.tokenService.clientAudience ++
    apiServerAudienceWarnings cfg "management.client_audience" rt.server.managementClientAudience

/-- The store that the configuration asks for: a new one in memory, or the database that
its options have connected. -/
def Stored (cfg : JwtletConfig) (tuning : PoolTuning) (storage : Storage) : Prop :=
  match cfg.storageBackend with
  | .memory => storage = .memory MemoryResourceStore.new
  | .postgres url pool => ∃ opts database, buildConnectOptions out url pool tuning = .ok opts ∧
      out.connectWith (buildPoolOptions out pool tuning) opts = .ok database ∧
      storage = .postgres database

variable {out} {cfg : JwtletConfig}

/-- The service of a valid configuration has its settings, and assembling it cannot fail.
-/
theorem ends_assembleTokenService {world : World} {Q : JwtletError → Prop} (hvalid : cfg.Valid world)
    (verifier : JwtVerifier) (generator : JwtGenerator) :
    Ends (fun svc => cfg.token.clientAudience = some svc.clientAudience ∧
        cfg.token.audience = some svc.audience ∧ cfg.issuer = some svc.issuer ∧
        svc.jwtletParticipantContext = cfg.token.participantContextClaim ∧
        svc.tokenTtlSecs = cfg.token.tokenTtlSecs ∧ svc.generator = generator)
      Q ((assembleTokenService cfg verifier generator).mapError ofTokenService) := by
  obtain ⟨clientAudience, hclient⟩ := Option.isSome_iff_exists.mp hvalid.clientAudience
  obtain ⟨audience, haudience⟩ := Option.isSome_iff_exists.mp hvalid.audience
  obtain ⟨issuer, hissuer, -⟩ := hvalid.issuer
  rw [assembleTokenService, hclient, haudience, hissuer]
  exact ⟨rfl, rfl, rfl, rfl, rfl, rfl⟩

/-- A valid configuration passes every check of the assembly, and what comes out is
configured by it. -/
theorem ends_assemble (hvalid : cfg.Valid out.toWorld) :
    Ends (Configured out cfg) (OutsideFailure out) (assemble out cfg) := by
  obtain ⟨vaultUrl, hvaultUrl, -⟩ := hvalid.vaultUrl
  obtain ⟨apiUrl, parsed, hapiUrl, -, -⟩ := hvalid.apiServerUrl
  have hurl : cfg.vault.url.isSome := by rw [hvaultUrl]; rfl
  have hapi : cfg.k8s.apiServerUrl.isSome := by rw [hapiUrl]; rfl
  refine (ends_createVaultClient _ hurl hvalid.vaultToken).bind fun client hclient => ?_
  obtain ⟨vault, hnew, hvault, hname⟩ := hclient
  refine Ends.bind (ends_mapError fun e he => .keyResolver he) fun keyResolver hkeys => ?_
  refine (ends_assembleTokenService hvalid _ _).bind fun svc hsvc => ?_
  obtain ⟨hclientAudience, haudience, hissuer, hcontext, httl, hgenerator⟩ := hsvc
  refine (ends_createK8sVerifier .exchange hapi hvalid.clusterIssuer).bind fun exchange hexchange => ?_
  refine (ends_createK8sVerifier .management hapi hvalid.clusterIssuer).bind
    fun management hmanagement => ?_
  exact
    { clientAudience := hclientAudience
      audience := haudience
      issuer := hissuer
      participantContext := hcontext
      tokenTtlSecs := httl
      accounts := rfl
      managementClientAudience := rfl
      metadata := rfl
      verifier := fun
        | .exchange => ⟨_, rfl, hexchange⟩
        | .management => ⟨_, rfl, hmanagement⟩
      vault := ⟨vault, client, hnew, hvault, hname, hgenerator, hkeys⟩
      warnings := rfl }

/-- Startup with a valid configuration ends with the configured runtime over its store, or
with a failure outside. -/
theorem ends_run (hvalid : cfg.Valid out.toWorld) (tuning : PoolTuning) :
    Ends (fun started => Configured out cfg started.1 ∧ Stored out cfg tuning started.2)
      (fun e => ∃ failure, e = .assembly failure ∧ OutsideFailure out failure)
      (run out cfg tuning) := by
  have hchecked : cfg.validate out.toWorld = .ok () := validate_eq_ok_iff.mpr hvalid
  unfold run
  rw [hchecked]
  unfold Stored
  cases hbackend : cfg.storageBackend with
  | memory =>
      refine Ends.mapError (Q := OutsideFailure out) ?_ fun e he => ⟨e, rfl, he⟩
      exact (ends_assemble hvalid).bind fun rt hrt => ⟨hrt, rfl⟩
  | postgres url pool =>
      obtain ⟨hurl, hpool⟩ := hvalid.storage url pool hbackend
      refine Ends.mapError (Q := OutsideFailure out) ?_ fun e he => ⟨e, rfl, he⟩
      rw [assemblePostgres, hbackend]
      simp only [hurl, if_false]
      refine (ends_connectPostgres tuning hpool.sslmode).bind fun database hdatabase => ?_
      obtain ⟨opts, hopts, hconnect⟩ := hdatabase
      exact (ends_assemble hvalid).bind fun rt hrt => ⟨hrt, opts, database, hopts, hconnect, rfl⟩

/-- Only a valid configuration starts, so whatever runs was validated. -/
theorem valid_of_run {tuning : PoolTuning} {started : Runtime κ × Storage}
    (h : run out cfg tuning = .ok started) : cfg.Valid out.toWorld := by
  apply validate_eq_ok_iff.mp
  unfold run at h
  cases hchecked : cfg.validate out.toWorld with
  | ok u => rfl
  | error e =>
      rw [hchecked] at h
      cases h

/-- The memory store is empty at the start, as the runs of the server assume. -/
theorem storeOf_run {tuning : PoolTuning} {rt : Runtime κ} {store : InnerStore}
    (h : run out cfg tuning = .ok (rt, .memory store)) : store = MemoryResourceStore.new := by
  have hstored := ((ends_run (valid_of_run h) tuning).of_ok h).2
  unfold Stored at hstored
  split at hstored
  · exact Storage.memory.inj hstored
  · obtain ⟨opts, database, -, -, hpostgres⟩ := hstored
    cases hpostgres

end Outcome

/-- **What startup ends with.**  An invalid configuration is refused with all its
errors before anything else is done.  A valid one passes every check of the assembly:
either the runtime is what the configuration says, over the store that it asks for, or
startup fails with the error of an operation outside. -/
theorem startup_outcomes {V κ : Type} (out : Outside V κ) (cfg : JwtletConfig)
    (tuning : PoolTuning) :
    (¬ cfg.Valid out.toWorld →
      run out cfg tuning = .error (.invalid (.multiple (cfg.errors out.toWorld)))) ∧
    (cfg.Valid out.toWorld →
      (∃ rt storage, run out cfg tuning = .ok (rt, storage) ∧ Configured out cfg rt ∧
        Stored out cfg tuning storage) ∨
      ∃ failure, run out cfg tuning = .error (.assembly failure) ∧ OutsideFailure out failure) := by
  constructor
  · intro hinvalid
    have hrefused : cfg.validate out.toWorld ≠ .ok () :=
      fun hchecked => hinvalid (validate_eq_ok_iff.mp hchecked)
    have herror : cfg.validate out.toWorld = .error (.multiple (cfg.errors out.toWorld)) := by
      unfold JwtletConfig.validate at hrefused ⊢
      split
      · next hempty => exact absurd (if_pos hempty) hrefused
      · rfl
    rw [run, herror]
    rfl
  · intro hvalid
    have hends := ends_run hvalid tuning
    cases hrun : run out cfg tuning with
    | ok started =>
        obtain ⟨hconfigured, hstored⟩ := hends.of_ok hrun
        exact Or.inl ⟨started.1, started.2, rfl, hconfigured, hstored⟩
    | error e =>
        obtain ⟨failure, rfl, hfailure⟩ := hends.of_error hrun
        exact Or.inr ⟨failure, rfl, hfailure⟩

end Assembly

end Jwtlet
