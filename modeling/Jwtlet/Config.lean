import Jwtlet.TokenExchange

/-!
# Configuration

`JwtletConfig` of `jwtlet-server/src/config/mod.rs`: the fields that validation
or the assembly of the exchange service read, the checks with their messages,
and the part of `assemble` that builds the exchange service.

`validate` collects all errors.  `validate_eq_ok_iff` says what an accepted
configuration satisfies.
-/

namespace Jwtlet

open Rust

/-- `reqwest::Url`, as far as the checks read it.  What counts as a URL is up to the
parser. -/
structure Url where
  scheme : String
  deriving DecidableEq

/-- What validation asks of the outside: whether a text is a URL, and whether a path is
there. -/
structure World where
  parseUrl : String → Option Url
  pathExists : String → Bool

/-- `std::time::Duration`. -/
structure Duration where
  secs : UInt64
  nanos : UInt32
  deriving DecidableEq

/-- `Duration::is_zero`: neither seconds nor nanoseconds. -/
def Duration.isZero (d : Duration) : Bool := d.secs == 0 && d.nanos == 0

def defaultTokenExchangePort : UInt16 := 8080

def defaultManagementPort : UInt16 := 8081

def defaultSaTokenFile : String := "/var/run/secrets/kubernetes.io/serviceaccount/token"

def defaultParticipantContextClaim : String := "jwtlet_pc"

def defaultTokenTtlSecs : Int64 := 3600

/-- The modes of TLS that a connection to the database can be configured with. -/
def validSslModes : List String := ["disable", "prefer", "require", "verify-ca", "verify-full"]

/-- `PostgresPoolConfig`: all fields may be left out, and the defaults of the pool apply
then. -/
structure PostgresPoolConfig where
  maxConnections : Option UInt32 := none
  minConnections : Option UInt32 := none
  acquireTimeout : Option Duration := none
  sslmode : Option String := none
  sslRootCert : Option String := none

/-- `StorageBackend`: the store in memory, which is the default, or the one in a database.
-/
inductive StorageBackend where
  | memory
  | postgres (url : String) (pool : PostgresPoolConfig)

/-- `VaultConfig`.  A token can be given as it is, or in a file that something else keeps
up to date. -/
structure VaultConfig where
  url : Option String := none
  token : Option String := none
  tokenFile : Option String := none

/-- `K8sConfig`: the API server that reviews tokens, the issuer that its accounts get, and
the file with the bearer token. -/
structure K8sConfig where
  apiServerUrl : Option String := none
  clusterIssuer : Option String := none
  tokenFile : String := defaultSaTokenFile

/-- `TokenConfig`: for whom tokens are verified and issued, and for how long. -/
structure TokenConfig where
  clientAudience : Option String := none
  audience : Option String := none
  participantContextClaim : String := defaultParticipantContextClaim
  tokenTtlSecs : Int64 := defaultTokenTtlSecs

/-- `ManagementConfig`.  Without an audience of its own the management API takes that of
the exchange. -/
structure ManagementConfig where
  clientAudience : Option String := none

/-- `JwtletConfig`, with the defaults of its fields.  What is read from a file or the
environment is this record. -/
structure JwtletConfig where
  tokenExchangePort : UInt16 := defaultTokenExchangePort
  managementPort : UInt16 := defaultManagementPort
  issuer : Option String := none
  storageBackend : StorageBackend := .memory
  k8s : K8sConfig := {}
  token : TokenConfig := {}
  vault : VaultConfig := {}
  serviceAccounts : HashMap String (List String) := ∅
  management : ManagementConfig := {}

/-- `ValidationError`: one error, or all that were found. -/
inductive ValidationError where
  | single (msg : String)
  | multiple (errors : List String)
  deriving DecidableEq

/-- Push an error when a check fails.  Each check adds to the list without looking at
those before it. -/
def errorIf (failed : Bool) (msg : String) : List String := if failed then [msg] else []

@[simp] theorem errorIf_eq_nil_iff {failed : Bool} {msg : String} :
    errorIf failed msg = [] ↔ failed = false := by
  cases failed <;> simp [errorIf]

/-- The checks of a required field that holds a URL: it must be there, and it must be one.
-/
def urlErrors (world : World) (field : String) : Option String → List String
  | none => [field ++ " is required"]
  | some url =>
      errorIf (world.parseUrl url).isNone (field ++ " is not a valid URL: '" ++ url ++ "'")

/-- The API server gets a bearer credential, so its URL must also use https. -/
def apiServerUrlErrors (world : World) : Option String → List String
  | none => ["k8s.api_server_url is required"]
  | some url =>
      match world.parseUrl url with
      | none => ["k8s.api_server_url is not a valid URL: '" ++ url ++ "'"]
      | some parsed =>
          errorIf (parsed.scheme != "https")
            ("k8s.api_server_url must use https: '" ++ url ++ "'")

/-- The checks of the lifetime: positive, and no longer than a day. -/
def ttlErrors (ttl : Int64) : List String :=
  if ttl ≤ 0 then
    ["token.token_ttl_secs must be positive, got " ++ toString ttl]
  else if maxTokenTtlSecs < ttl then
    ["token.token_ttl_secs must not exceed " ++ toString maxTokenTtlSecs ++ ", got " ++
      toString ttl]
  else
    []

/-- The check of the two bounds of the pool, which is made only if both are there. -/
def connectionBoundErrors (pool : PostgresPoolConfig) : List String :=
  match pool.minConnections, pool.maxConnections with
  | some min, some max =>
      errorIf (max < min) ("storage_backend.pool.min_connections (" ++ toString min ++
        ") cannot exceed max_connections (" ++ toString max ++ ")")
  | _, _ => []

/-- The list of modes as `{:?}` prints it, which the message about a mode quotes. -/
def debugSslModes : String :=
  "[\"disable\", \"prefer\", \"require\", \"verify-ca\", \"verify-full\"]"

/-- The checks of the storage backend.  The store in memory has nothing to check. -/
def storageErrors (world : World) : StorageBackend → List String
  | .memory => []
  | .postgres url pool =>
      errorIf (url == "") "storage_backend.url is required for Postgres backend" ++
      errorIf (pool.maxConnections == some 0)
        "storage_backend.pool.max_connections must be > 0" ++
      connectionBoundErrors pool ++
      errorIf (pool.acquireTimeout.any Duration.isZero)
        "storage_backend.pool.acquire_timeout must be > 0" ++
      (pool.sslmode.elim [] fun mode => errorIf (!validSslModes.contains mode)
        ("storage_backend.pool.sslmode '" ++ mode ++ "' is invalid; expected one of " ++
          debugSslModes)) ++
      (pool.sslRootCert.elim [] fun path => errorIf (!world.pathExists path)
        ("storage_backend.pool.ssl_root_cert path does not exist: " ++ path))

namespace JwtletConfig

/-- All errors, in the order of the checks.  The checks are independent, so none of them
hides another. -/
def errors (world : World) (cfg : JwtletConfig) : List String :=
  urlErrors world "issuer" cfg.issuer ++
  urlErrors world "vault.url" cfg.vault.url ++
  errorIf (cfg.vault.token.isNone && cfg.vault.tokenFile.isNone)
    "Either vault.token or vault.token_file is required" ++
  apiServerUrlErrors world cfg.k8s.apiServerUrl ++
  errorIf cfg.k8s.clusterIssuer.isNone "k8s.cluster_issuer is required" ++
  errorIf (cfg.k8s.tokenFile == "") "k8s.token_file cannot be empty" ++
  errorIf cfg.token.clientAudience.isNone "token.client_audience is required" ++
  errorIf cfg.token.audience.isNone "token.audience is required" ++
  errorIf (cfg.token.participantContextClaim == "")
    "token.participant_context_claim cannot be empty" ++
  ttlErrors cfg.token.tokenTtlSecs ++
  storageErrors world cfg.storageBackend ++
  errorIf (cfg.tokenExchangePort == 0) "token_exchange_port cannot be 0" ++
  errorIf (cfg.managementPort == 0) "management_port cannot be 0" ++
  errorIf (cfg.tokenExchangePort == cfg.managementPort)
    ("token_exchange_port and management_port cannot be the same (both are " ++
      toString cfg.tokenExchangePort ++ ")")

/-- `validate`: all errors together, or nothing if there are none. -/
def validate (world : World) (cfg : JwtletConfig) : Except ValidationError Unit :=
  if (cfg.errors world).isEmpty then .ok () else .error (.multiple (cfg.errors world))

end JwtletConfig

/-- What validation asks of a connection pool: fields that are there must make sense,
alone and with each other. -/
structure PostgresPoolConfig.Valid (world : World) (pool : PostgresPoolConfig) : Prop where
  maxConnections : pool.maxConnections ≠ some 0
  bounds : ∀ min max, pool.minConnections = some min → pool.maxConnections = some max → min ≤ max
  acquireTimeout : ∀ d, pool.acquireTimeout = some d → d.isZero = false
  sslmode : ∀ mode, pool.sslmode = some mode → mode ∈ validSslModes
  sslRootCert : ∀ path, pool.sslRootCert = some path → world.pathExists path = true

/-- What validation asks of a configuration.  Whatever the assembly needs later is among
it. -/
structure JwtletConfig.Valid (world : World) (cfg : JwtletConfig) : Prop where
  issuer : ∃ url, cfg.issuer = some url ∧ (world.parseUrl url).isSome
  vaultUrl : ∃ url, cfg.vault.url = some url ∧ (world.parseUrl url).isSome
  vaultToken : cfg.vault.token.isSome ∨ cfg.vault.tokenFile.isSome
  apiServerUrl : ∃ url parsed, cfg.k8s.apiServerUrl = some url ∧
    world.parseUrl url = some parsed ∧ parsed.scheme = "https"
  clusterIssuer : cfg.k8s.clusterIssuer.isSome
  tokenFile : cfg.k8s.tokenFile ≠ ""
  clientAudience : cfg.token.clientAudience.isSome
  audience : cfg.token.audience.isSome
  participantContextClaim : cfg.token.participantContextClaim ≠ ""
  ttl : 0 < cfg.token.tokenTtlSecs ∧ cfg.token.tokenTtlSecs ≤ maxTokenTtlSecs
  storage : ∀ url pool, cfg.storageBackend = .postgres url pool → url ≠ "" ∧ pool.Valid world
  tokenExchangePort : cfg.tokenExchangePort ≠ 0
  managementPort : cfg.managementPort ≠ 0
  ports : cfg.tokenExchangePort ≠ cfg.managementPort

/-- A required URL has no errors exactly when it is there and is one. -/
theorem urlErrors_eq_nil_iff {world : World} {field : String} {url : Option String} :
    urlErrors world field url = [] ↔ ∃ u, url = some u ∧ (world.parseUrl u).isSome := by
  cases url with
  | none => simp [urlErrors]
  | some u => cases h : world.parseUrl u <;> simp [urlErrors, h]

/-- The address of the API server has no errors exactly when it is a URL with https. -/
theorem apiServerUrlErrors_eq_nil_iff {world : World} {url : Option String} :
    apiServerUrlErrors world url = [] ↔ ∃ u parsed, url = some u ∧
      world.parseUrl u = some parsed ∧ parsed.scheme = "https" := by
  cases url with
  | none => simp [apiServerUrlErrors]
  | some u => cases h : world.parseUrl u <;> simp [apiServerUrlErrors, h]

/-- A lifetime has no errors exactly when it is between its bounds. -/
theorem ttlErrors_eq_nil_iff {ttl : Int64} :
    ttlErrors ttl = [] ↔ 0 < ttl ∧ ttl ≤ maxTokenTtlSecs := by
  rw [ttlErrors]
  by_cases hpos : ttl ≤ 0
  · simp [hpos, Int64.not_lt.mpr hpos]
  · by_cases hmax : maxTokenTtlSecs < ttl
    · simp [hpos, hmax, Int64.not_le.mpr hmax]
    · simp [hpos, hmax, Int64.not_le.mp hpos, Int64.not_lt.mp hmax]

/-- The bounds of a pool have no errors exactly when they are not both there and the wrong
way round. -/
theorem connectionBoundErrors_eq_nil_iff {pool : PostgresPoolConfig} :
    connectionBoundErrors pool = [] ↔ ∀ min max, pool.minConnections = some min →
      pool.maxConnections = some max → min ≤ max := by
  rw [connectionBoundErrors]
  cases pool.minConnections <;> cases pool.maxConnections <;> simp

/-- A storage backend has no errors exactly when it is the one in memory or has an address
and a valid pool. -/
theorem storageErrors_eq_nil_iff {world : World} {backend : StorageBackend} :
    storageErrors world backend = [] ↔
      ∀ url pool, backend = .postgres url pool → url ≠ "" ∧ pool.Valid world := by
  cases backend with
  | memory => simp [storageErrors]
  | postgres url pool =>
      have htimeout : pool.acquireTimeout.any Duration.isZero = false ↔
          ∀ d, pool.acquireTimeout = some d → d.isZero = false := by
        cases pool.acquireTimeout <;> simp
      have hmode : (pool.sslmode.elim [] fun mode => errorIf (!validSslModes.contains mode)
          ("storage_backend.pool.sslmode '" ++ mode ++ "' is invalid; expected one of " ++
            debugSslModes)) = [] ↔ ∀ mode, pool.sslmode = some mode → mode ∈ validSslModes := by
        cases pool.sslmode <;> simp
      have hcert : (pool.sslRootCert.elim [] fun path => errorIf (!world.pathExists path)
          ("storage_backend.pool.ssl_root_cert path does not exist: " ++ path)) = [] ↔
            ∀ path, pool.sslRootCert = some path → world.pathExists path = true := by
        cases pool.sslRootCert <;> simp
      simp only [storageErrors, List.append_eq_nil_iff, errorIf_eq_nil_iff, htimeout, hmode,
        hcert, connectionBoundErrors_eq_nil_iff, beq_eq_false_iff_ne]
      constructor
      · intro hvalid url' pool' heq
        obtain ⟨⟨⟨⟨⟨hurl, hmax⟩, hbounds⟩, htimeout⟩, hmode⟩, hcert⟩ := hvalid
        cases heq
        exact ⟨hurl, hmax, hbounds, htimeout, hmode, hcert⟩
      · intro h
        obtain ⟨hurl, hmax, hbounds, htimeout, hmode, hcert⟩ := h url pool rfl
        exact ⟨⟨⟨⟨⟨hurl, hmax⟩, hbounds⟩, htimeout⟩, hmode⟩, hcert⟩

/-- **Validation is exact.** It accepts exactly the valid configurations: a list of errors
is empty when each check adds none to it. -/
theorem validate_eq_ok_iff {world : World} {cfg : JwtletConfig} :
    cfg.validate world = .ok () ↔ cfg.Valid world := by
  have hempty : cfg.validate world = .ok () ↔ cfg.errors world = [] := by
    rw [JwtletConfig.validate]
    cases cfg.errors world <;> simp
  rw [hempty]
  simp only [JwtletConfig.errors, List.append_eq_nil_iff, errorIf_eq_nil_iff,
    urlErrors_eq_nil_iff, apiServerUrlErrors_eq_nil_iff, ttlErrors_eq_nil_iff,
    storageErrors_eq_nil_iff, beq_eq_false_iff_ne, Bool.and_eq_false_iff,
    Option.isNone_eq_false_iff, and_assoc]
  constructor
  · intro hvalid
    obtain ⟨hissuer, hvault, hvtoken, hapi, hcluster, hfile, hclient, haud, hclaim, hpos, hmax,
      hstorage, hexchange, hmanagement, hports⟩ := hvalid
    exact ⟨hissuer, hvault, hvtoken, hapi, hcluster, hfile, hclient, haud, hclaim, ⟨hpos, hmax⟩,
      hstorage, hexchange, hmanagement, hports⟩
  · intro h
    exact ⟨h.issuer, h.vaultUrl, h.vaultToken, h.apiServerUrl, h.clusterIssuer, h.tokenFile,
      h.clientAudience, h.audience, h.participantContextClaim, h.ttl.1, h.ttl.2, h.storage,
      h.tokenExchangePort, h.managementPort, h.ports⟩

/-- The lifetime of an accepted configuration, as an integer.  The tokens that are issued
are valid for that long. -/
theorem ttl_bounds_of_validate {world : World} {cfg : JwtletConfig}
    (h : cfg.validate world = .ok ()) :
    0 < cfg.token.tokenTtlSecs.toInt ∧ cfg.token.tokenTtlSecs.toInt ≤ 86400 := by
  obtain ⟨hpos, hmax⟩ := (validate_eq_ok_iff.mp h).ttl
  rw [Int64.lt_iff_toInt_lt] at hpos
  rw [Int64.le_iff_toInt_le] at hmax
  exact ⟨hpos, hmax⟩

/-- The errors of the part of `assemble` below: a field that validation would have asked
for is not there. -/
inductive JwtletError where
  | configuration (msg : String)
  deriving DecidableEq

/-- The part of `assemble` that builds the exchange service, with the verifier
and the generator that were created for it. -/
def assembleTokenService (cfg : JwtletConfig) (verifier : JwtVerifier)
    (generator : JwtGenerator) : Except JwtletError TokenExchangeService :=
  match cfg.token.clientAudience with
  | none => .error (.configuration "token.client_audience is required")
  | some clientAudience =>
      match cfg.token.audience with
      | none => .error (.configuration "token.audience is required")
      | some audience =>
          match cfg.issuer with
          | none => .error (.configuration "issuer is required")
          | some issuer =>
              .ok { clientAudience, audience, issuer
                    jwtletParticipantContext := cfg.token.participantContextClaim
                    tokenTtlSecs := cfg.token.tokenTtlSecs
                    verifier, generator }

end Jwtlet
