import Jwtlet.Http
import Jwtlet.ManagementCodec
import Jwtlet.TokenExchange

/-!
# Verification by TokenReview

`K8sTokenReviewVerifier` of `jwtlet-core/src/k8s/mod.rs`.  A token is sent to the
API server for review, with the cached service-account token as bearer; if that
is answered 401 the bearer is read anew from its file and the review is sent once
more.  Five checks on the review decide.

The API server and the token file are what one verification meets outside: the
file is read at most once, and the server answers the reviews it is sent.

A review is sent by one call of `send` of the HTTP client, which `create_k8s_verifier`
builds without a redirect policy.  So the client follows up to ten redirects by itself,
some of which have it send the body once more to another address, and the answer that
it returns is the last one.  That answer is what `server` stands for here, and the
code believes it whoever gave it.
-/

namespace Jwtlet

open Rust

/-- The path of the TokenReview API, which is put after the configured address of the API
server. -/
def tokenReviewApi : String := "/apis/authentication.k8s.io/v1/tokenreviews"

/-- How the usernames of service accounts begin.  What follows is the namespace and the
name of the account. -/
def serviceAccountUsernamePrefix : String := "system:serviceaccount:"

/-- The group that all service accounts of a cluster are in. -/
def serviceAccountsGroup : String := "system:serviceaccounts"

/-- `TokenReviewSpec`: the token to review, and the audiences it is meant to be for. -/
structure TokenReviewSpec where
  token : String
  audiences : List String
  deriving DecidableEq

/-- `TokenReviewRequest`, the body of a review as it is posted. -/
structure TokenReviewRequest where
  apiVersion : String
  kind : String
  spec : TokenReviewSpec
  deriving DecidableEq

/-- A review as it is handed to the HTTP client: the address it is for, the bearer token
that authenticates it, and its body. -/
structure SentReview where
  url : String
  bearer : String
  request : TokenReviewRequest
  deriving DecidableEq

/-- `UserInfo`: whom a reviewed token belongs to, as the API server says. -/
structure UserInfo where
  username : String
  uid : Option String
  groups : List String
  deriving DecidableEq

/-- `TokenReviewStatus`: what the API server says of a token.  The audiences are those of
the request that the token is really for. -/
structure TokenReviewStatus where
  authenticated : Bool
  user : Option UserInfo
  error : Option String
  audiences : List String
  deriving DecidableEq

/-- `TokenReviewResponse`, of which only the status is read. -/
structure TokenReviewResponse where
  status : TokenReviewStatus
  deriving DecidableEq

/-- `is_service_account`: the username begins as those of service accounts do, and the
user is in their group. -/
def UserInfo.isServiceAccount (user : UserInfo) : Bool :=
  serviceAccountUsernamePrefix.toList.isPrefixOf user.username.toList &&
    user.groups.any fun g => g == serviceAccountsGroup

/-- A `bool`, from the two values of JSON that are one. -/
def decodeBool : Json → Option Bool
  | .bool b => some b
  | _ => none

/-- An `Option<T>`, of which `null` is `None` and any other value must be a `T`. -/
def decodeOption {A : Type} (decode : Json → Option A) : Json → Option (Option A)
  | .null => some none
  | j => (decode j).map some

/-- A `Vec<String>`, from an array of strings. -/
def decodeStrings : Json → Option (List String)
  | .array items => items.mapM decodeString
  | _ => none

/-- An element of a sequence that may be left out.  If it is there it has to be right, as
the last one of those that are. -/
def defaultedElement {A : Type} (decode : Json → Option A) (default : A) : Option Json → Option A
  | none => some default
  | some j => decode j

/-- The derived `Deserialize` of `UserInfo`: from an object, or from a sequence of the
fields in order, of which those with a default may be left out at the end. -/
def UserInfo.deserialize : Json → Option UserInfo
  | .object fields => do
      let username ← requiredField fields "username" decodeString
      let uid ← defaultedField fields "uid" (decodeOption decodeString) none
      let groups ← defaultedField fields "groups" decodeStrings []
      some { username, uid, groups }
  | .array (username :: rest) => do
      if 2 < rest.length then none
      let username ← decodeString username
      let uid ← defaultedElement (decodeOption decodeString) none rest[0]?
      let groups ← defaultedElement decodeStrings [] rest[1]?
      some { username, uid, groups }
  | _ => none

/-- The derived `Deserialize` of `TokenReviewStatus`, from an object or from a sequence of
the fields in order. -/
def TokenReviewStatus.deserialize : Json → Option TokenReviewStatus
  | .object fields => do
      let authenticated ← requiredField fields "authenticated" decodeBool
      let user ← defaultedField fields "user" (decodeOption UserInfo.deserialize) none
      let error ← defaultedField fields "error" (decodeOption decodeString) none
      let audiences ← defaultedField fields "audiences" decodeStrings []
      some { authenticated, user, error, audiences }
  | .array (authenticated :: rest) => do
      if 3 < rest.length then none
      let authenticated ← decodeBool authenticated
      let user ← defaultedElement (decodeOption UserInfo.deserialize) none rest[0]?
      let error ← defaultedElement (decodeOption decodeString) none rest[1]?
      let audiences ← defaultedElement decodeStrings [] rest[2]?
      some { authenticated, user, error, audiences }
  | _ => none

/-- The derived `Deserialize` of `TokenReviewResponse`, from an object or from a sequence
with the status as its one element. -/
def TokenReviewResponse.deserialize : Json → Option TokenReviewResponse
  | .object fields => do
      let status ← requiredField fields "status" TokenReviewStatus.deserialize
      some { status }
  | .array [status] => do
      let status ← TokenReviewStatus.deserialize status
      some { status }
  | _ => none

/-- What the HTTP client returns for a review, after any redirects that it has followed: a
response, or an error. -/
inductive ReviewAnswer where
  /-- Sending failed; the error may know of a status. -/
  | transportError (status : Option StatusCode) (msg : String)
  /-- A response; its body is `none` if it is unreadable or no JSON, and `msg` is
  what is said about a body that does not hold a review. -/
  | response (status : StatusCode) (body : Option Json) (msg : String)

/-- The status of an answer, 500 if there is none.  It decides whether the bearer is read
anew. -/
def ReviewAnswer.status : ReviewAnswer → StatusCode
  | .transportError status _ => status.getD .internalServerError
  | .response status _ _ => status

/-- The review in an answer with a status of success, if the body of the answer holds one.
-/
def ReviewAnswer.reviewed : ReviewAnswer → Option TokenReviewResponse
  | .transportError _ _ => none
  | .response status body _ =>
      if status.isSuccess then body.bind TokenReviewResponse.deserialize else none

/-- `K8sTokenReviewVerifier` with its defaults.  The cached token, which is behind a lock
in the code, is passed to each operation. -/
structure K8sTokenReviewVerifier where
  apiServerUrl : String
  clusterIssuer : String
  tokenFile : String := "/var/run/secrets/kubernetes.io/serviceaccount/token"
  requireServiceAccount : Bool := true
  /-- `Display` of `StatusCode`: the code and its standard text. -/
  displayStatus : StatusCode → String

/-- What a verification returns, the reviews it sent with their answers, and the
cached service-account token after it. -/
structure Verification where
  result : Except JwtVerificationError TokenClaims
  exchanges : List (SentReview × ReviewAnswer)
  state : Option String

namespace K8sTokenReviewVerifier

/-- `ensure_initialized`: the cached token.  There is none before `initialize`, and then
no review is sent. -/
def ensureInitialized (state : Option String) : Except JwtVerificationError String :=
  match state with
  | some token => .ok token
  | none => .error (.verificationFailed
      "K8sTokenReviewVerifier not initialized; call initialize() first")

variable (v : K8sTokenReviewVerifier)

/-- `refresh_sa_token`, with the content of the token file or the text of the error
that reading it gives. -/
def refreshSaToken (state : Option String) (file : Except String String) :
    Except JwtVerificationError String × Option String :=
  match file with
  | .error e =>
      (.error (.verificationFailed
        ("Failed to re-read SA token file " ++ v.tokenFile ++ ": " ++ e)), state)
  | .ok raw =>
      let token := trim raw
      match ensureInitialized state with
      | .error e => (.error e, state)
      | .ok _ => (.ok token, some token)

/-- The review that `call_token_review` sends: the token to review, for the one audience
that is asked for. -/
def tokenReview (saToken audience subjectToken : String) : SentReview where
  url := v.apiServerUrl ++ tokenReviewApi
  bearer := saToken
  request :=
    { apiVersion := "authentication.k8s.io/v1"
      kind := "TokenReview"
      spec := { token := subjectToken, audiences := [audience] } }

/-- What `call_token_review` makes of the answer. -/
def readAnswer : ReviewAnswer → Except (StatusCode × JwtVerificationError) TokenReviewResponse
  | .transportError status msg =>
      .error (status.getD .internalServerError, .verificationFailed msg)
  | .response status body msg =>
      if !status.isSuccess then
        .error (status, .verificationFailed
          ("TokenReview API returned status " ++ v.displayStatus status))
      else
        match body.bind TokenReviewResponse.deserialize with
        | some review => .ok review
        | none => .error (.internalServerError, .verificationFailed msg)

/-- The claims that stand for a reviewed user. -/
def userClaims (audience : String) (user : UserInfo) : TokenClaims where
  sub := user.username
  iss := v.clusterIssuer
  aud := audience
  iat := 0
  exp := 0
  nbf := none
  custom :=
    match user.uid.filter fun uid => !uid.isEmpty with
    | some uid => Std.ExtTreeMap.insert ∅ k8sUidClaim (.string uid)
    | none => ∅

/-- The checks of `verify_token` on a review. -/
def checkReview (audience : String) (review : TokenReviewResponse) :
    Except JwtVerificationError TokenClaims :=
  if !review.status.authenticated then
    .error (.verificationFailed (review.status.error.getD "token not authenticated"))
  else if !(review.status.audiences.any fun a => a == audience) then
    .error (.verificationFailed
      ("TokenReview did not confirm the requested audience '" ++ audience ++ "'"))
  else
    match review.status.user with
    | none => .error (.verificationFailed
        "TokenReview returned authenticated=true but no user info")
    | some user =>
        if v.requireServiceAccount && !user.isServiceAccount then
          .error (.verificationFailed
            ("identity '" ++ user.username ++ "' is not a Kubernetes service account"))
        else .ok (v.userClaims audience user)

/-- `verify_token`.  The server answers the `n`-th review of this call, of which there are
two at most. -/
def verifyToken (state : Option String) (file : Except String String)
    (server : Nat → SentReview → ReviewAnswer) (audience token : String) : Verification :=
  match ensureInitialized state with
  | .error e => { result := .error e, exchanges := [], state }
  | .ok saToken =>
      let first := v.tokenReview saToken audience token
      let answer := server 0 first
      match v.readAnswer answer with
      | .ok review =>
          { result := v.checkReview audience review, exchanges := [(first, answer)], state }
      | .error (status, e) =>
          if status == .unauthorized then
            -- The cached token was rotated: read the file again and retry once.
            match v.refreshSaToken state file with
            | (.error e', state') =>
                { result := .error e', exchanges := [(first, answer)], state := state' }
            | (.ok refreshed, state') =>
                let second := v.tokenReview refreshed audience token
                let answer' := server 1 second
                { result := ((v.readAnswer answer').mapError Prod.snd).bind (v.checkReview audience)
                  exchanges := [(first, answer), (second, answer')]
                  state := state' }
          else
            { result := .error e, exchanges := [(first, answer)], state }

/-- The check of the user says what its name says: both the prefix of the username and the
group are asked for. -/
theorem isServiceAccount_iff {user : UserInfo} :
    user.isServiceAccount = true ↔
      (∃ rest, user.username = serviceAccountUsernamePrefix ++ rest) ∧
        serviceAccountsGroup ∈ user.groups := by
  rw [UserInfo.isServiceAccount, Bool.and_eq_true, List.isPrefixOf_iff_prefix, List.any_eq_true]
  refine and_congr ?_ (by simp)
  constructor
  · intro h
    obtain ⟨rest, hrest⟩ := h
    refine ⟨String.ofList rest, ?_⟩
    rw [← String.toList_inj, String.toList_append, String.toList_ofList, hrest]
  · intro h
    obtain ⟨rest, hrest⟩ := h
    exact ⟨rest.toList, by rw [hrest, String.toList_append]⟩

/-- The review confirms a user for the audience.  The last condition is there only if the
verifier is configured to accept no one but service accounts. -/
structure Confirms (audience : String) (review : TokenReviewResponse) (user : UserInfo) :
    Prop where
  authenticated : review.status.authenticated = true
  audienceConfirmed : audience ∈ review.status.audiences
  identity : review.status.user = some user
  serviceAccount : v.requireServiceAccount = true →
    (∃ rest, user.username = serviceAccountUsernamePrefix ++ rest) ∧
      serviceAccountsGroup ∈ user.groups

variable {v}

/-- The checks pass exactly when the review confirms a user, and the claims are those made
of that user. -/
theorem checkReview_eq_ok_iff {audience : String} {review : TokenReviewResponse}
    {claims : TokenClaims} :
    v.checkReview audience review = .ok claims ↔
      ∃ user, v.Confirms audience review user ∧ claims = v.userClaims audience user := by
  rw [checkReview]
  constructor
  · intro h
    split at h
    · cases h
    · next hauth =>
      split at h
      · cases h
      · next haud =>
        split at h
        · cases h
        · next user huser =>
          split at h
          · cases h
          · next haccount =>
            cases h
            refine ⟨user, ⟨by simpa using hauth, by simpa using haud, huser, ?_⟩, rfl⟩
            intro hrequire
            simpa [hrequire, isServiceAccount_iff] using haccount
  · intro h
    obtain ⟨user, hconfirms, rfl⟩ := h
    have haud : (review.status.audiences.any fun a => a == audience) = true := by
      simpa using hconfirms.audienceConfirmed
    have haccount : (v.requireServiceAccount && !user.isServiceAccount) = false := by
      cases hrequire : v.requireServiceAccount with
      | false => rfl
      | true => simp [isServiceAccount_iff.mpr (hconfirms.serviceAccount hrequire)]
    simp [hconfirms.authenticated, haud, hconfirms.identity, haccount]

/-- A review is read from an answer exactly when the answer has one. -/
theorem readAnswer_eq_ok_iff {answer : ReviewAnswer} {review : TokenReviewResponse} :
    v.readAnswer answer = .ok review ↔ answer.reviewed = some review := by
  cases answer with
  | transportError status msg => simp [readAnswer, ReviewAnswer.reviewed]
  | response status body msg =>
      rw [readAnswer, ReviewAnswer.reviewed]
      cases status.isSuccess with
      | false => simp
      | true => cases body.bind TokenReviewResponse.deserialize <;> simp

/-- What `verify_token` makes of the last answer: the claims of the user that it confirms,
or an error. -/
def settle (v : K8sTokenReviewVerifier) (audience : String) (answer : ReviewAnswer) :
    Except JwtVerificationError TokenClaims :=
  ((v.readAnswer answer).mapError Prod.snd).bind (v.checkReview audience)

/-- The last answer gives claims exactly when it has a review that confirms a user. -/
theorem settle_eq_ok_iff {audience : String} {answer : ReviewAnswer} {claims : TokenClaims} :
    v.settle audience answer = .ok claims ↔ ∃ review user, answer.reviewed = some review ∧
      v.Confirms audience review user ∧ claims = v.userClaims audience user := by
  rw [settle]
  cases hread : v.readAnswer answer with
  | error e =>
      have hnone : ∀ review, answer.reviewed ≠ some review := by
        intro review hreview
        rw [readAnswer_eq_ok_iff.mpr hreview] at hread
        cases hread
      simp [Except.mapError, Except.bind, hnone]
  | ok review =>
      rw [readAnswer_eq_ok_iff] at hread
      simp only [Except.mapError, Except.bind, checkReview_eq_ok_iff, hread, Option.some.injEq]
      constructor
      · intro h
        obtain ⟨user, huser⟩ := h
        exact ⟨review, user, rfl, huser⟩
      · intro h
        obtain ⟨_, user, rfl, huser⟩ := h
        exact ⟨user, huser⟩

/-- An answer with a review is not of status 401, since a body is read only under a status
of success. -/
theorem status_of_reviewed {answer : ReviewAnswer} {review : TokenReviewResponse}
    (h : answer.reviewed = some review) : answer.status ≠ .unauthorized := by
  cases answer with
  | transportError status msg => cases h
  | response status body msg =>
      intro heq
      change status = .unauthorized at heq
      rw [ReviewAnswer.reviewed, heq] at h
      cases h

/-- Only an answer of status 401 is read as such, so nothing else makes the verifier read
its bearer anew. -/
theorem readAnswer_error_unauthorized {answer : ReviewAnswer} {status : StatusCode}
    {e : JwtVerificationError} (h : v.readAnswer answer = .error (status, e)) :
    status = .unauthorized ↔ answer.status = .unauthorized := by
  cases answer with
  | transportError status' msg =>
      cases h
      rfl
  | response status' body msg =>
      rw [readAnswer] at h
      split at h
      · cases h
        rfl
      · next hsuccess =>
        have hne : status' ≠ .unauthorized := by
          intro heq
          rw [heq] at hsuccess
          exact hsuccess rfl
        split at h
        · cases h
        · cases h
          exact iff_of_false (by decide) hne

section Runs

variable {cached : String} {file : Except String String}
  {server : Nat → SentReview → ReviewAnswer} {audience token : String}

/-- An answer other than 401 to the first review settles the matter.  The token file is
not read then. -/
theorem verifyToken_of_answered
    (h : (server 0 (v.tokenReview cached audience token)).status ≠ .unauthorized) :
    v.verifyToken (some cached) file server audience token =
      { result := v.settle audience (server 0 (v.tokenReview cached audience token))
        exchanges := [(v.tokenReview cached audience token,
          server 0 (v.tokenReview cached audience token))]
        state := some cached } := by
  simp only [verifyToken, ensureInitialized, settle]
  cases hread : v.readAnswer (server 0 (v.tokenReview cached audience token)) with
  | ok review => simp [Except.mapError, Except.bind]
  | error e =>
      obtain ⟨status, e⟩ := e
      have hne : status ≠ .unauthorized := by
        rw [Ne, readAnswer_error_unauthorized hread]
        exact h
      simp [hne, Except.mapError, Except.bind]

/-- An answer of 401 is followed by a second review if the file can be read, and by an
error otherwise.  The answer to the second review settles the matter, whatever its status.
-/
theorem verifyToken_of_unauthorized
    (h : (server 0 (v.tokenReview cached audience token)).status = .unauthorized) :
    v.verifyToken (some cached) file server audience token =
      match file with
      | .error e =>
          { result := .error (.verificationFailed
              ("Failed to re-read SA token file " ++ v.tokenFile ++ ": " ++ e))
            exchanges := [(v.tokenReview cached audience token,
              server 0 (v.tokenReview cached audience token))]
            state := some cached }
      | .ok raw =>
          { result := v.settle audience (server 1 (v.tokenReview (trim raw) audience token))
            exchanges := [(v.tokenReview cached audience token,
                server 0 (v.tokenReview cached audience token)),
              (v.tokenReview (trim raw) audience token,
                server 1 (v.tokenReview (trim raw) audience token))]
            state := some (trim raw) } := by
  simp only [verifyToken, ensureInitialized, settle]
  cases hread : v.readAnswer (server 0 (v.tokenReview cached audience token)) with
  | ok review =>
      rw [readAnswer_eq_ok_iff] at hread
      exact absurd h (status_of_reviewed hread)
  | error e =>
      obtain ⟨status, e⟩ := e
      have heq : status = .unauthorized := (readAnswer_error_unauthorized hread).mpr h
      cases file with
      | error e' => simp [heq, refreshSaToken]
      | ok raw => simp [heq, refreshSaToken, ensureInitialized]

/-- The three ways a verification can go: settled by the first answer, ended by an
unreadable file, or settled by the answer to a second review. -/
theorem verifyToken_cases (v : K8sTokenReviewVerifier) (cached : String)
    (file : Except String String) (server : Nat → SentReview → ReviewAnswer)
    (audience token : String) :
    (∃ answer, (v.verifyToken (some cached) file server audience token).exchanges =
        [(v.tokenReview cached audience token, answer)] ∧
      (v.verifyToken (some cached) file server audience token).result =
        v.settle audience answer) ∨
    (∃ answer e, (v.verifyToken (some cached) file server audience token).exchanges =
        [(v.tokenReview cached audience token, answer)] ∧ answer.status = .unauthorized ∧
      (v.verifyToken (some cached) file server audience token).result = .error e) ∨
    ∃ raw answer answer', file = .ok raw ∧
      (v.verifyToken (some cached) file server audience token).exchanges =
        [(v.tokenReview cached audience token, answer),
          (v.tokenReview (trim raw) audience token, answer')] ∧
      answer.status = .unauthorized ∧
      (v.verifyToken (some cached) file server audience token).result =
        v.settle audience answer' := by
  by_cases h : (server 0 (v.tokenReview cached audience token)).status = .unauthorized
  · rw [verifyToken_of_unauthorized h]
    cases file with
    | error e => exact Or.inr (Or.inl ⟨_, _, rfl, h, rfl⟩)
    | ok raw => exact Or.inr (Or.inr ⟨raw, _, _, rfl, rfl, h, rfl⟩)
  · rw [verifyToken_of_answered h]
    exact Or.inl ⟨_, rfl, rfl⟩

/-- A server that answers by the review alone settles a verification with the
token of the file, if it refuses the cached one or answers it alike. -/
theorem verifyToken_of_function {answer : SentReview → ReviewAnswer} {raw : String}
    (hserver : ∀ n review, server n review = answer review) (hfile : file = .ok raw)
    (hcached : (answer (v.tokenReview cached audience token)).status = .unauthorized ∨
      answer (v.tokenReview cached audience token) =
        answer (v.tokenReview (trim raw) audience token)) :
    (v.verifyToken (some cached) file server audience token).result =
      v.settle audience (answer (v.tokenReview (trim raw) audience token)) := by
  by_cases h : (server 0 (v.tokenReview cached audience token)).status = .unauthorized
  · rw [verifyToken_of_unauthorized h, hfile]
    simp only [hserver]
  · rw [verifyToken_of_answered h, hserver]
    rw [hserver] at h
    rw [hcached.resolve_left h]

end Runs

/-- The claims name the user; `k8s_uid` is there exactly when the user has a uid that is
not empty. -/
theorem uid_userClaims (v : K8sTokenReviewVerifier) (audience : String) (user : UserInfo)
    (j : Json) :
    (v.userClaims audience user).custom[k8sUidClaim]? = some j ↔
      ∃ uid, user.uid = some uid ∧ uid ≠ "" ∧ j = .string uid := by
  rw [userClaims]
  cases user.uid with
  | none => simp
  | some uid =>
      by_cases huid : uid = ""
      · simp [huid, Option.filter]
      · simp [huid, Option.filter, @eq_comm _ j]

/-- A verification succeeds exactly when its last review confirms a user, and its claims
are that user's. -/
theorem verifyToken_eq_ok_iff (v : K8sTokenReviewVerifier) (cached : String)
    (file : Except String String) (server : Nat → SentReview → ReviewAnswer)
    (audience token : String) (claims : TokenClaims) :
    (v.verifyToken (some cached) file server audience token).result = .ok claims ↔
      ∃ last review user,
        (v.verifyToken (some cached) file server audience token).exchanges.getLast? =
          some last ∧ last.2.reviewed = some review ∧
        v.Confirms audience review user ∧ claims = v.userClaims audience user := by
  rcases verifyToken_cases v cached file server audience token with
    ⟨answer, hsent, hresult⟩ | ⟨answer, e, hsent, hstatus, hresult⟩ |
    ⟨raw, answer, answer', -, hsent, -, hresult⟩
  · rw [hresult, hsent, settle_eq_ok_iff]
    simp
  · rw [hresult, hsent]
    simp only [reduceCtorEq, List.getLast?_singleton, Option.some.injEq, false_iff]
    intro h
    obtain ⟨_, review, user, rfl, hreview, -⟩ := h
    exact status_of_reviewed hreview hstatus
  · rw [hresult, hsent, settle_eq_ok_iff]
    simp

/-- What a verification hands to the HTTP client: one review, or a second one after a 401,
with the bearer of the file. -/
theorem exchanges_verifyToken (v : K8sTokenReviewVerifier) (cached : String)
    (file : Except String String) (server : Nat → SentReview → ReviewAnswer)
    (audience token : String) :
    (v.verifyToken (some cached) file server audience token).exchanges.map Prod.fst =
        [v.tokenReview cached audience token] ∨
      ∃ raw, file = .ok raw ∧
        (v.verifyToken (some cached) file server audience token).exchanges.map Prod.fst =
          [v.tokenReview cached audience token, v.tokenReview (trim raw) audience token] ∧
        ∀ first ∈ (v.verifyToken (some cached) file server audience token).exchanges.head?,
          first.2.status = .unauthorized := by
  rcases verifyToken_cases v cached file server audience token with
    ⟨answer, hsent, -⟩ | ⟨answer, e, hsent, -, -⟩ | ⟨raw, answer, answer', hfile, hsent, hstatus, -⟩
  · exact Or.inl (by rw [hsent]; rfl)
  · exact Or.inl (by rw [hsent]; rfl)
  · refine Or.inr ⟨raw, hfile, by rw [hsent]; rfl, ?_⟩
    rw [hsent]
    simpa using hstatus

/-- The answers that a verification goes by are those of the server, in turn.  None of
them is made up, and none is used twice. -/
theorem answer_of_exchange {v : K8sTokenReviewVerifier} {cached : String}
    {file : Except String String} {server : Nat → SentReview → ReviewAnswer}
    {audience token : String} {n : Nat} {exchange : SentReview × ReviewAnswer}
    (h : (v.verifyToken (some cached) file server audience token).exchanges[n]? =
      some exchange) : exchange.2 = server n exchange.1 := by
  by_cases hstatus : (server 0 (v.tokenReview cached audience token)).status = .unauthorized
  · rw [verifyToken_of_unauthorized hstatus] at h
    cases file with
    | error e =>
        have hn : n = 0 := by
          have hlt := (List.getElem?_eq_some_iff.mp h).1
          simpa using hlt
        subst hn
        cases h
        rfl
    | ok raw =>
        have hn : n = 0 ∨ n = 1 := by
          have hlt := (List.getElem?_eq_some_iff.mp h).1
          simp only [List.length_cons, List.length_nil] at hlt
          omega
        rcases hn with rfl | rfl
        · cases h
          rfl
        · cases h
          rfl
  · rw [verifyToken_of_answered hstatus] at h
    have hn : n = 0 := by
      have hlt := (List.getElem?_eq_some_iff.mp h).1
      simpa using hlt
    subst hn
    cases h
    rfl

end K8sTokenReviewVerifier

open K8sTokenReviewVerifier

/-- **TokenReview verification is exact.**  A verification hands the token to the
HTTP client for review once with the cached bearer, and once more with the bearer
read from the file and trimmed only if that was answered 401; what it goes by are the
answers of the server to these reviews, in turn.  It succeeds exactly when the last
review was answered with success and confirms a user for the audience, and the
claims are that user's.  A token whose reviews never confirm the audience is never
accepted for it.  Over a server that answers by the review alone, a cached bearer
that it refuses, or answers like that of the file, makes no difference. -/
theorem token_review_exact (v : K8sTokenReviewVerifier) (cached : String)
    (file : Except String String) (server : Nat → SentReview → ReviewAnswer)
    (audience token : String) :
    let run := v.verifyToken (some cached) file server audience token
    (run.exchanges.map Prod.fst = [v.tokenReview cached audience token] ∨
      ∃ raw, file = .ok raw ∧
        run.exchanges.map Prod.fst =
          [v.tokenReview cached audience token, v.tokenReview (trim raw) audience token] ∧
        (∀ first ∈ run.exchanges.head?, first.2.status = .unauthorized)) ∧
    (∀ e ∈ run.exchanges, e.1.request.spec = { token, audiences := [audience] }) ∧
    (∀ n e, run.exchanges[n]? = some e → e.2 = server n e.1) ∧
    (∀ claims, run.result = .ok claims ↔ ∃ last review user,
      run.exchanges.getLast? = some last ∧ last.2.reviewed = some review ∧
      v.Confirms audience review user ∧ claims = v.userClaims audience user) ∧
    (∀ user, (v.userClaims audience user).sub = user.username ∧
      (v.userClaims audience user).iss = v.clusterIssuer ∧
      ∀ j, (v.userClaims audience user).custom[k8sUidClaim]? = some j ↔
        ∃ uid, user.uid = some uid ∧ uid ≠ "" ∧ j = .string uid) ∧
    ((∀ e ∈ run.exchanges, ∀ review, e.2.reviewed = some review →
      audience ∉ review.status.audiences) → ∀ claims, run.result ≠ .ok claims) ∧
    ∀ (answer : SentReview → ReviewAnswer) (raw : String),
      (∀ n review, server n review = answer review) → file = .ok raw →
      (answer (v.tokenReview cached audience token)).status = .unauthorized ∨
        answer (v.tokenReview cached audience token) =
          answer (v.tokenReview (trim raw) audience token) →
      run.result = (v.verifyToken (some (trim raw)) file server audience token).result := by
  intro run
  have hexact := verifyToken_eq_ok_iff v cached file server audience token
  have hsent := exchanges_verifyToken v cached file server audience token
  refine ⟨hsent, ?_, fun n e he => answer_of_exchange he, hexact, ?_, ?_, ?_⟩
  · -- Every review sent carries the token and the audience.
    intro e he
    have hmem : e.1 ∈ run.exchanges.map Prod.fst := List.mem_map_of_mem he
    rcases hsent with hone | ⟨raw, -, htwo, -⟩
    · rw [hone, List.mem_singleton] at hmem
      rw [hmem]
      rfl
    · rw [htwo] at hmem
      simp only [List.mem_cons, List.not_mem_nil, or_false] at hmem
      rcases hmem with hmem | hmem
      · rw [hmem]
        rfl
      · rw [hmem]
        rfl
  · intro user
    exact ⟨rfl, rfl, uid_userClaims v audience user⟩
  · intro hnever claims hok
    obtain ⟨last, review, user, hlast, hreview, hconfirms, -⟩ := (hexact claims).mp hok
    exact hnever last (List.mem_of_getLast? hlast) review hreview hconfirms.audienceConfirmed
  · intro answer raw hserver hfile hcached
    rw [verifyToken_of_function hserver hfile (Or.inr rfl)]
    exact verifyToken_of_function hserver hfile hcached

/-- The answer to a review of a token of the service account `username`. -/
def sampleReview (username audience : String) : ReviewAnswer :=
  .response .ok (some (.object [("status", .object
    [("authenticated", .bool true), ("audiences", .array [.string audience]),
      ("user", .object [("username", .string username), ("uid", .string "42"),
        ("groups", .array [.string serviceAccountsGroup])])])])) ""

/-- The API server refuses the token that was cached at the start, and knows one client
and one administrator, each for its own audience. -/
def sampleApiServer (sent : SentReview) : ReviewAnswer :=
  if sent.bearer ≠ "pod-token" then .response .unauthorized none ""
  else if sent.request.spec = { token := "sa-token", audiences := ["jwtlet-exchange"] } then
    sampleReview "system:serviceaccount:apps:client" "jwtlet-exchange"
  else if sent.request.spec = { token := "admin-token", audiences := ["jwtlet-management"] } then
    sampleReview "system:serviceaccount:ops:admin" "jwtlet-management"
  else .response .ok (some (.object [("status", .object [("authenticated", .bool false)])])) ""

/-- It confirms to each of the two the audience that its token is for, and no other
audience to anyone. -/
theorem audiences_sampleApiServer {sent : SentReview} {review : TokenReviewResponse}
    (h : (sampleApiServer sent).reviewed = some review) :
    ∀ a ∈ review.status.audiences, (sent.request.spec.token, a) ∈
      [("sa-token", "jwtlet-exchange"), ("admin-token", "jwtlet-management")] := by
  have hclient : ((sampleReview "system:serviceaccount:apps:client" "jwtlet-exchange").reviewed.map
      fun review => review.status.audiences) = some ["jwtlet-exchange"] := by decide +kernel
  have hadmin : ((sampleReview "system:serviceaccount:ops:admin" "jwtlet-management").reviewed.map
      fun review => review.status.audiences) = some ["jwtlet-management"] := by decide +kernel
  have hunknown : ((ReviewAnswer.response .ok (some (.object [("status", .object
      [("authenticated", .bool false)])])) "").reviewed.map
        fun review => review.status.audiences) = some [] := by decide +kernel
  unfold sampleApiServer at h
  split at h
  · cases h
  · split at h
    · next hspec =>
      rw [h, Option.map_some, Option.some.injEq] at hclient
      rw [hspec, hclient]
      simp
    · split at h
      · next hspec =>
        rw [h, Option.map_some, Option.some.injEq] at hadmin
        rw [hspec, hadmin]
        simp
      · rw [h, Option.map_some, Option.some.injEq] at hunknown
        rw [hunknown]
        simp

/-- A verifier for the sample server, with the defaults of the code. -/
def sampleVerifier : K8sTokenReviewVerifier where
  apiServerUrl := "https://kubernetes.default.svc"
  clusterIssuer := "https://cluster"
  displayStatus := fun _ => ""

/-- A cached token that has been rotated away makes no difference to the client, since the
server refuses it and knows the one in the file. -/
theorem token_review_exact_rotated :
    (sampleVerifier.verifyToken (some "old-token") (.ok "pod-token\n") (fun _ => sampleApiServer)
        "jwtlet-exchange" "sa-token").result =
      (sampleVerifier.verifyToken (some (trim "pod-token\n")) (.ok "pod-token\n")
        (fun _ => sampleApiServer) "jwtlet-exchange" "sa-token").result ∧
    ((sampleVerifier.verifyToken (some "old-token") (.ok "pod-token\n") (fun _ => sampleApiServer)
        "jwtlet-exchange" "sa-token").result.toOption.map TokenClaims.sub) =
      some "system:serviceaccount:apps:client" := by
  obtain ⟨-, -, -, -, -, -, hrotated⟩ := token_review_exact sampleVerifier "old-token"
    (.ok "pod-token\n") (fun _ => sampleApiServer) "jwtlet-exchange" "sa-token"
  have hrefused : (sampleApiServer (sampleVerifier.tokenReview "old-token" "jwtlet-exchange"
      "sa-token")).status = .unauthorized := by
    decide +kernel
  exact ⟨hrotated sampleApiServer "pod-token\n" (fun _ _ => rfl) rfl (Or.inl hrefused),
    by decide +kernel⟩

end Jwtlet
