import Jwtlet.ClusterServer

/-!
# Rotation of the service-account token

The tokens that the verifiers cache are kept up to date by the renewal loops, which
may be late, miss an event or stop after an error, and by the second review after a
401.  The plain server has no cache: it reads the token file for every token that it
verifies and sends one review.

Where an old token is either refused or as good as the one in the file, a client
cannot tell the two servers apart (`renewal_unobservable`).  So it makes no difference
to the answers when the loops renew the tokens, or whether they do.
-/

namespace Jwtlet

open Rust Machine

variable {κ : Type}

/-- Verification without a cache: the token of the file, and one review handed to the
client.  It is what the cache and the second review are there to save the trouble of. -/
def K8sTokenReviewVerifier.verifyUncached (v : K8sTokenReviewVerifier)
    (file : Except String String) (server : Nat → SentReview → ReviewAnswer)
    (audience token : String) : Except JwtVerificationError TokenClaims :=
  match file with
  | .error e => .error (.verificationFailed
      ("Failed to re-read SA token file " ++ v.tokenFile ++ ": " ++ e))
  | .ok raw => v.settle audience (server 0 (v.tokenReview (trim raw) audience token))

/-- What remains of an input when nothing is cached: a request verifies by the file, and a
renewal is nothing. -/
def ClusterInput.uncached (v : K8sTokenReviewVerifier) : ClusterInput κ → Option (ServerEvent κ)
  | .renewal _ _ => none
  | .request r outside => some
      { request := r
        outside :=
          { env := outside.env
            generator := outside.generator
            jwkSet := outside.jwkSet
            verifier := v.verifyUncached outside.file outside.apiServer } }

/-- The token of the file makes `bearer` unnecessary for a verification: the API server
answers by the review alone, and it refuses `bearer` or answers it as it answers the
token of the file. -/
def Supersedes (v : K8sTokenReviewVerifier) (outside : ClusterSurroundings κ)
    (bearer audience token : String) : Prop :=
  ∃ (raw : String) (answer : SentReview → ReviewAnswer), outside.file = .ok raw ∧
    (∀ n review, outside.apiServer n review = answer review) ∧
    ((answer (v.tokenReview bearer audience token)).status = .unauthorized ∨
      answer (v.tokenReview bearer audience token) =
        answer (v.tokenReview (trim raw) audience token))

/-- When a request presents a token, every bearer that its verifier may have cached is
superseded, whichever of the tokens read so far that is. -/
def RotationSafe (rt : ClusterRuntime κ) (contents : Port → String)
    (inputs : List (ClusterInput κ)) : Prop :=
  ∀ pre request outside post, inputs = pre ++ .request request outside :: post →
    ∀ audience token, request.presented rt.server = some (audience, token) →
      ∀ bearer, WasRead contents (rt.historyOf contents pre) request.port bearer →
        Supersedes rt.verifier outside bearer audience token

section Masking

variable {rt : ClusterRuntime κ} {contents : Port → String}

theorem RotationSafe.of_append {inputs later : List (ClusterInput κ)}
    (h : RotationSafe rt contents (inputs ++ later)) : RotationSafe rt contents inputs := by
  intro pre request outside post hsplit
  apply h pre request outside (post ++ later)
  rw [hsplit, List.append_assoc, List.cons_append]

/-- A verification with a superseded bearer ends as one without a cache: the first review
settles it as the token of the file would, or the second one is with that token. -/
theorem verifyToken_of_supersedes {v : K8sTokenReviewVerifier} {outside : ClusterSurroundings κ}
    {cached audience token : String} (h : Supersedes v outside cached audience token) :
    (v.verifyToken (some cached) outside.file outside.apiServer audience token).result =
      v.verifyUncached outside.file outside.apiServer audience token := by
  obtain ⟨raw, answer, hfile, hserver, hcached⟩ := h
  have hsettled := K8sTokenReviewVerifier.verifyToken_of_function hserver hfile hcached
  rw [hsettled]
  simp only [K8sTokenReviewVerifier.verifyUncached, hfile, hserver]

/-- The last request of a safe run is handled as by the plain server, over any store. -/
theorem step_uncached {inputs : List (ClusterInput κ)} {request : ServerRequest}
    {outside : ClusterSurroundings κ}
    (hsafe : RotationSafe rt contents (inputs ++ [.request request outside])) {ev : ServerEvent κ}
    (hev : (ClusterInput.request request outside).uncached rt.verifier = some ev)
    (store : InnerStore) :
    rt.server.step store (rt.event (rt.stateAfter contents inputs) request outside) =
      rt.server.step store ev := by
  obtain ⟨cached, hcached, hread⟩ := @cachesRead_after κ rt contents inputs request.port
  cases hev
  apply step_of_presented rt.server store
    { env := outside.env
      generator := outside.generator
      jwkSet := outside.jwkSet
      verifier := rt.verifier.verifyUncached outside.file outside.apiServer }
  intro audience token hpresented
  have hsuperseded := hsafe inputs request outside [] rfl audience token hpresented cached hread
  rw [ClusterRuntime.verification, hcached]
  exact verifyToken_of_supersedes hsuperseded

/-- What a safe run answers, and where it ends, is what the plain server does.  The
induction takes the last input off, and keeps the two stores equal. -/
theorem served_uncached {inputs : List (ClusterInput κ)}
    (hsafe : RotationSafe rt contents inputs) :
    (servedPast (rt.historyOf contents inputs)).map Prod.snd =
        (rt.server.historyOf (inputs.filterMap (ClusterInput.uncached rt.verifier))).map Prod.snd ∧
      (rt.stateAfter contents inputs).store =
        rt.server.storeAfter (inputs.filterMap (ClusterInput.uncached rt.verifier)) := by
  -- Backwards, so that the state before the last input is that of a run.
  induction inputs using List.reverseRecOn with
  | nil => exact ⟨rfl, rfl⟩
  | append_singleton inputs i ih =>
      obtain ⟨hanswers, hstore⟩ := ih hsafe.of_append
      have hhistory : rt.historyOf contents (inputs ++ [i]) = rt.historyOf contents inputs ++
          [(i, (rt.step (rt.stateAfter contents inputs) i).1)] :=
        history_append _ inputs [i]
      have hafter : rt.stateAfter contents (inputs ++ [i]) =
          (rt.step (rt.stateAfter contents inputs) i).2 :=
        after_append _ inputs [i]
      rw [hhistory, hafter, servedPast, List.flatMap_append, List.map_append,
        List.filterMap_append]
      cases i with
      | renewal port raw =>
          simp only [List.filterMap_cons, ClusterInput.uncached, List.filterMap_nil,
            List.append_nil]
          refine ⟨?_, hstore⟩
          rw [← hanswers]
          exact List.append_nil _
      | request request outside =>
          obtain ⟨hserved, hnext, -⟩ :=
            @step_request κ rt (rt.stateAfter contents inputs) request outside
          obtain ⟨ev, hev⟩ : ∃ ev,
              (ClusterInput.request request outside).uncached rt.verifier = some ev := ⟨_, rfl⟩
          have hstep := step_uncached hsafe hev (rt.stateAfter contents inputs).store
          simp only [List.filterMap_cons, hev, List.filterMap_nil, List.flatMap_cons,
            List.flatMap_nil, List.append_nil, hserved, hnext, Option.toList_some, List.map_cons,
            List.map_nil, hstep]
          rw [JwtletRuntime.historyOf, JwtletRuntime.storeAfter, history_append, after_append,
            List.map_append]
          rw [JwtletRuntime.storeAfter] at hstore
          rw [hstore]
          exact ⟨congrArg (· ++ _) hanswers, rfl⟩

end Masking

/-- **Renewal cannot be observed.** In a run where every bearer that may be cached is
superseded when a token is presented, the server gives the answers of the plain server and
ends with the same store.  So two such runs over the same requests give the same answers,
whatever the renewal loops did in either and whatever was cached at the start.  An answer
of the API server is here, as before, what the HTTP client returns for a review. -/
theorem renewal_unobservable (rt : ClusterRuntime κ) (contents : Port → String)
    (inputs : List (ClusterInput κ)) (hsafe : RotationSafe rt contents inputs) :
    let plain := inputs.filterMap (ClusterInput.uncached rt.verifier)
    ((servedPast (rt.historyOf contents inputs)).map Prod.snd =
        (rt.server.historyOf plain).map Prod.snd ∧
      (rt.stateAfter contents inputs).store = rt.server.storeAfter plain) ∧
    ∀ (contents' : Port → String) (inputs' : List (ClusterInput κ)),
      RotationSafe rt contents' inputs' →
      inputs'.filterMap (ClusterInput.uncached rt.verifier) = plain →
      (servedPast (rt.historyOf contents' inputs')).map Prod.snd =
          (servedPast (rt.historyOf contents inputs)).map Prod.snd ∧
        (rt.stateAfter contents' inputs').store = (rt.stateAfter contents inputs).store := by
  intro plain
  obtain ⟨hanswers, hstore⟩ := served_uncached hsafe
  refine ⟨⟨hanswers, hstore⟩, ?_⟩
  intro contents' inputs' hsafe' hsame
  obtain ⟨hanswers', hstore'⟩ := served_uncached hsafe'
  rw [hanswers, hanswers', hstore, hstore', hsame]
  exact ⟨rfl, rfl⟩

/-- The sample API server refuses every token but the one in the file, so every run over
it is safe, with whatever renewals. -/
theorem rotationSafe_sample (contents : Port → String) {inputs : List (ClusterInput Unit)}
    (h : ∀ i ∈ inputs, (∃ request, i = clusterRequest request) ∨ ∃ port raw, i = .renewal port raw) :
    RotationSafe sampleCluster contents inputs := by
  intro pre request outside post hsplit audience token _ bearer _
  have hinput := h (.request request outside) (by rw [hsplit]; simp)
  rcases hinput with ⟨request', hinput⟩ | ⟨port, raw, hinput⟩
  swap
  · cases hinput
  cases hinput
  refine ⟨_, sampleApiServer, rfl, fun _ _ => rfl, ?_⟩
  have htrim : trim "pod-token\n" = "pod-token" := by decide +kernel
  by_cases hbearer : bearer = "pod-token"
  · rw [hbearer, htrim]
    exact Or.inr rfl
  · have hrefused : (sampleCluster.verifier.tokenReview bearer audience token).bearer ≠
        "pod-token" := hbearer
    left
    unfold sampleApiServer
    rw [if_pos hrefused]
    rfl

/-- A renewal between the requests changes no answer, even where it stores a token that is
of no use. -/
theorem renewal_unobservable_sample :
    (servedPast (sampleCluster.historyOf (fun _ => "pod-token")
        [scopeInput, .renewal .exchange "stale-token", mappingInput, exchangeInput])).map Prod.snd =
      (servedPast (sampleCluster.historyOf sampleContents
        [scopeInput, mappingInput, exchangeInput])).map Prod.snd := by
  have hsafe := @rotationSafe_sample sampleContents [scopeInput, mappingInput, exchangeInput] (by
    intro i hi
    left
    simp only [List.mem_cons, List.not_mem_nil, or_false] at hi
    rcases hi with rfl | rfl | rfl <;> exact ⟨_, rfl⟩)
  have hsafe' := @rotationSafe_sample (fun _ => "pod-token")
    [scopeInput, .renewal .exchange "stale-token", mappingInput, exchangeInput] (by
      intro i hi
      simp only [List.mem_cons, List.not_mem_nil, or_false] at hi
      rcases hi with rfl | rfl | rfl | rfl
      · exact Or.inl ⟨_, rfl⟩
      · exact Or.inr ⟨_, _, rfl⟩
      · exact Or.inl ⟨_, rfl⟩
      · exact Or.inl ⟨_, rfl⟩)
  exact ((renewal_unobservable sampleCluster sampleContents _ hsafe).2 _ _ hsafe' rfl).1

end Jwtlet
