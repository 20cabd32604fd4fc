import Jwtlet.Config
import Jwtlet.ExchangeApi
import Jwtlet.ResourceMem

/-!
# The issued payload

What a token says when it reaches the generator, for any store at all: rows
written around the service included.  The payload is the object that results
from flattening the custom claims next to the registered ones, so its keys are
distinct only if no custom claim has a registered name.

`exchangeToken_call` inverts a call of the generator; the payload of the claims
it hands over is then described key by key (`PayloadIntegrity`), and its
lifetime by the configured one (`issued_lifetime`).
-/

namespace Jwtlet

open Rust

/-- The members of the signed object: the fields of the claims, with `custom` flattened
next to them.  `nbf` is left out where there is none. -/
def TokenClaims.payload (t : TokenClaims) : List (String × Json) :=
  [("sub", .string t.sub), ("iss", .string t.iss), ("aud", .string t.aud),
    ("iat", .ofInt64 t.iat), ("exp", .ofInt64 t.exp)] ++
  (t.nbf.elim [] fun nbf => [("nbf", .ofInt64 nbf)]) ++
  t.custom.toList

section Calls

variable {σ : Type} [ResourceStore σ] {svc : TokenExchangeService} {store : σ}
  {env : Environment} {x : String} {scopes : List String} {authToken : String}
  {audience : Option String}

/-- A call of the generator comes from a verified client whose request passed
verification, for the resolved audience. -/
theorem exchangeToken_call {call : GeneratorCall}
    (h : call ∈ (exchangeToken svc store env x scopes authToken audience).2) :
    ∃ c r aud, svc.verifier svc.clientAudience authToken = .ok c ∧
      ResourceService.verify store c.sub x scopes = .ok r ∧ r.verified = true ∧
      resolveAudience audience r.audiences svc.audience = .ok aud ∧
      call.claims = participantClaims svc env x c r.claims aud := by
  rw [exchangeToken] at h
  cases hp : prepareClaims svc store env x scopes authToken audience with
  | error e => rw [hp] at h; cases h
  | ok claims =>
      rw [hp] at h
      cases List.mem_singleton.mp h
      rw [prepareClaims] at hp
      cases hv : svc.verifier svc.clientAudience authToken with
      | error e => rw [hv] at hp; cases hp
      | ok c =>
          rw [hv] at hp
          cases hr : ResourceService.verify store c.sub x scopes with
          | error e => cases e <;> simp [hr] at hp
          | ok r =>
              cases hverified : r.verified with
              | false => simp [hr, hverified] at hp
              | true =>
                  cases haud : resolveAudience audience r.audiences svc.audience with
                  | error e => simp [hr, hverified, haud, Except.map] at hp
                  | ok aud =>
                      simp only [hr, hverified, haud, Except.map, Bool.not_true,
                        Bool.false_eq_true, if_false, Except.ok.injEq] at hp
                      exact ⟨c, r, aud, rfl, hr, hverified, haud, hp.symm⟩

end Calls

/-- The custom claims, key by key: the issuable ones of the merge, `act` and `jti`. -/
theorem getElem?_participantClaims_custom (svc : TokenExchangeService) (env : Environment)
    (x : String) (c : TokenClaims) (claims : HashMap String Json) (aud k : String) :
    (participantClaims svc env x c claims aud).custom[k]? =
      if k = "jti" then some (.string env.uuid)
      else if k = "act" then some (actorClaim c)
      else if isReservedClaim k then none
      else claims[k]? := by
  simp only [participantClaims, Std.ExtTreeMap.getElem?_insert, dropReserved_eq_filter,
    Std.ExtTreeMap.getElem?_filter', compare_eq_iff_eq, eq_comm (b := k)]
  split
  · rfl
  · split
    · rfl
    · cases hk : isReservedClaim k <;> cases claims[k]? <;> simp [Option.filter, issuable, hk]

/-- The keys that the exchange itself writes, whatever the scopes stand for. -/
def ownKeys : List String := ["sub", "iss", "aud", "iat", "exp", "nbf", "act", "jti"]

/-- The keys the exchange writes are the reserved ones, so no merged claim comes to stand
beside one of them. -/
theorem mem_ownKeys_iff (k : String) : k ∈ ownKeys ↔ isReservedClaim k = true := by
  simp only [ownKeys, isReservedClaim, reservedClaims, List.contains_eq_mem, List.mem_cons,
    List.not_mem_nil, or_false, decide_eq_true_eq]
  tauto

/-- The map behind `act` is that of the client `c`: `sub` and `iss`, and the
Kubernetes UID if the verifier supplied one. -/
def IsActor (c : TokenClaims) (act : Map) : Prop :=
  ∀ k : String, act[k]? =
    if k = "sub" then some (.string c.sub)
    else if k = "iss" then some (.string c.iss)
    else if k = k8sUidClaim then c.custom[k8sUidClaim]?
    else none

/-- The actor of the client is a JSON object with such a map. -/
theorem exists_isActor (c : TokenClaims) :
    ∃ act : Map, actorClaim c = .ofMap act ∧ IsActor c act := by
  have hbase : ∀ k : String, (Std.ExtTreeMap.ofList
      [("sub", .string c.sub), ("iss", .string c.iss)] compare : Map)[k]? =
        if k = "sub" then some (.string c.sub)
        else if k = "iss" then some (.string c.iss) else none := by
    intro k
    simp only [Std.ExtTreeMap.ofList_eq_foldl, List.foldl_cons, List.foldl_nil,
      Std.ExtTreeMap.getElem?_insert, compare_eq_iff_eq, Std.ExtTreeMap.getElem?_empty,
      eq_comm (b := k)]
    split
    · next h => subst h; rfl
    · rfl
  rw [actorClaim]
  cases huid : c.custom[k8sUidClaim]? with
  | none =>
      refine ⟨_, rfl, fun k => ?_⟩
      rw [hbase, huid]
      simp
  | some uid =>
      refine ⟨_, rfl, fun k => ?_⟩
      rw [Std.ExtTreeMap.getElem?_insert, hbase, huid]
      simp only [compare_eq_iff_eq, eq_comm (b := k)]
      split
      · next h => subst h; rfl
      · rfl

/-- What the payload says, key by key, when the client `c` gets a token for the context
`x` and the audience `aud` from the merged scope claims `claims`. -/
structure PayloadIntegrity (svc : TokenExchangeService) (env : Environment) (x : String)
    (c : TokenClaims) (claims : HashMap String Json) (aud : String)
    (payload : List (String × Json)) : Prop where
  distinct : (payload.map Prod.fst).Nodup
  sub : ("sub", .string x) ∈ payload
  iss : ("iss", .string svc.issuer) ∈ payload
  aud : ("aud", .string aud) ∈ payload
  act : ∃ act : Map, ("act", .ofMap act) ∈ payload ∧ IsActor c act
  jti : ("jti", .string env.uuid) ∈ payload
  iat : ("iat", .ofInt64 env.now.secs) ∈ payload
  nbf : ("nbf", .ofInt64 env.now.secs) ∈ payload
  exp : ("exp", .ofInt64 (env.now.secs + svc.tokenTtlSecs)) ∈ payload
  remaining : ∀ k v, k ∉ ownKeys →
    ((k, v) ∈ payload ↔ isReservedClaim k = false ∧ claims[k]? = some v)

section Payload

variable (svc : TokenExchangeService) (env : Environment) (x : String) (c : TokenClaims)
  (claims : HashMap String Json) (aud : String)

/-- The members that the exchange writes come first, and the custom claims after them. -/
theorem payload_participantClaims :
    (participantClaims svc env x c claims aud).payload =
      [("sub", .string x), ("iss", .string svc.issuer), ("aud", .string aud),
        ("iat", .ofInt64 env.now.secs), ("exp", .ofInt64 (env.now.secs + svc.tokenTtlSecs)),
        ("nbf", .ofInt64 env.now.secs)] ++
      (participantClaims svc env x c claims aud).custom.toList := rfl

/-- No custom claim has the name of a registered one, since the filter has dropped those
from the merge. -/
theorem custom_key_ne {k : String} {v : Json}
    (h : (k, v) ∈ (participantClaims svc env x c claims aud).custom.toList) :
    k ∉ ["sub", "iss", "aud", "iat", "exp", "nbf"] := by
  rw [mem_toList_iff, getElem?_participantClaims_custom] at h
  intro hk
  simp only [List.mem_cons, List.not_mem_nil, or_false] at hk
  rcases hk with rfl | rfl | rfl | rfl | rfl | rfl <;> cases h

/-- The members of a payload have distinct names, so no reader of the token can take one
for another. -/
theorem payload_distinct :
    ((participantClaims svc env x c claims aud).payload.map Prod.fst).Nodup := by
  rw [payload_participantClaims, List.map_append, List.nodup_append]
  refine ⟨by simp, nodup_keys_toList _, ?_⟩
  intro a ha b hb heq
  subst heq
  obtain ⟨⟨k, v⟩, hmem, rfl⟩ := List.mem_map.mp hb
  exact custom_key_ne svc env x c claims aud hmem ha

/-- The claims that the exchange makes have a payload of this kind, for any merged claims.
-/
theorem payloadIntegrity_participantClaims :
    PayloadIntegrity svc env x c claims aud (participantClaims svc env x c claims aud).payload := by
  have hcustom : ∀ {k v}, (participantClaims svc env x c claims aud).custom[k]? = some v →
      (k, v) ∈ (participantClaims svc env x c claims aud).payload := by
    intro k v h
    exact List.mem_append_right _ (mem_toList_iff.mpr h)
  -- The registered members stand at the head of the payload.
  have hhead : ∀ {kv : String × Json},
      kv ∈ [("sub", .string x), ("iss", .string svc.issuer), ("aud", .string aud),
        ("iat", .ofInt64 env.now.secs), ("exp", .ofInt64 (env.now.secs + svc.tokenTtlSecs)),
        ("nbf", .ofInt64 env.now.secs)] →
      kv ∈ (participantClaims svc env x c claims aud).payload := by
    intro kv h
    rw [payload_participantClaims]
    exact List.mem_append_left _ h
  obtain ⟨act, hact, hactor⟩ := exists_isActor c
  refine
    { distinct := payload_distinct svc env x c claims aud
      sub := hhead (by simp)
      iss := hhead (by simp)
      aud := hhead (by simp)
      iat := hhead (by simp)
      nbf := hhead (by simp)
      exp := hhead (by simp)
      act := ⟨act, hcustom ?_, hactor⟩
      jti := hcustom ?_
      remaining := ?_ }
  · rw [getElem?_participantClaims_custom, ← hact]
    rfl
  · rw [getElem?_participantClaims_custom]
    rfl
  · intro k v hk
    have hreserved : isReservedClaim k = false := by
      rw [mem_ownKeys_iff] at hk
      simpa using hk
    simp only [ownKeys, List.mem_cons, List.not_mem_nil, or_false, not_or] at hk
    rw [payload_participantClaims, List.mem_append, mem_toList_iff,
      getElem?_participantClaims_custom]
    simp [hk, hreserved]

end Payload

/-- Adding an accepted lifetime to a clock value does not overflow.  The clock is between
the bounds of `chrono`, and the lifetime is at most a day. -/
theorem toInt_now_add (now : UtcTimestamp) {ttl : Int64} (hpos : 0 < ttl.toInt)
    (hmax : ttl.toInt ≤ 86400) : (now.secs + ttl).toInt = now.secs.toInt + ttl.toInt := by
  have hmin := now.min_le
  have hle := now.le_max
  rw [Int64.toInt_add]
  exact Int.bmod_eq_of_le (by omega) (by omega)

/-- The lifetime of issued claims: exact, bounded by a day, and the one that the response
announces. -/
structure IssuedLifetime {σ : Type} [ResourceStore σ] (svc : TokenExchangeService) (store : σ)
    (env : Environment) (t : TokenClaims) : Prop where
  no_overflow : t.exp.toInt = t.iat.toInt + svc.tokenTtlSecs.toInt
  positive : 0 < t.exp.toInt - t.iat.toInt
  bounded : t.exp.toInt - t.iat.toInt ≤ 86400
  expiresIn : ∀ form status body, (tokenExchange svc store env form).1 = .token status body →
    body.expiresIn.toInt = t.exp.toInt - t.iat.toInt

section Lifetime

variable {σ : Type} [ResourceStore σ] {svc : TokenExchangeService} {store : σ}
  {env : Environment}

/-- A token response announces the configured lifetime, whatever the request. -/
theorem expiresIn_eq {form : TokenExchangeForm} {status : StatusCode}
    {body : TokenExchangeResponse}
    (h : (tokenExchange svc store env form).1 = .token status body) :
    body.expiresIn = svc.tokenTtlSecs := by
  rw [tokenExchange] at h
  split at h
  · cases h
  split at h
  · cases h
  simp only at h
  split at h
  · next e _ => cases e <;> cases h
  · cases h
    rfl

/-- Under an accepted configuration the claims that the exchange makes have this lifetime.
-/
theorem issued_lifetime {world : World} {cfg : JwtletConfig} (hcfg : cfg.validate world = .ok ())
    (httl : svc.tokenTtlSecs = cfg.token.tokenTtlSecs) (x : String) (c : TokenClaims)
    (claims : HashMap String Json) (aud : String) :
    IssuedLifetime svc store env (participantClaims svc env x c claims aud) := by
  obtain ⟨hpos, hmax⟩ := ttl_bounds_of_validate hcfg
  rw [← httl] at hpos hmax
  have hexp : (env.now.secs + svc.tokenTtlSecs).toInt =
      env.now.secs.toInt + svc.tokenTtlSecs.toInt := toInt_now_add env.now hpos hmax
  refine ⟨hexp, ?_, ?_, ?_⟩
  · simp only [participantClaims, hexp]
    omega
  · simp only [participantClaims, hexp]
    omega
  · intro form status body h
    rw [expiresIn_eq h]
    simp only [participantClaims, hexp]
    omega

/-- **Integrity of the issued payload.**  Whatever the store holds, the claims
that reach the generator flatten to an object with distinct keys: the ones the
exchange writes itself, and the issuable merged claims.  Under an accepted
configuration the lifetime is the configured one, computed without overflow. -/
theorem issued_payload_integrity (svc : TokenExchangeService) (store : σ) (env : Environment)
    (x : String) (scopes : List String) (authToken : String) (audience : Option String)
    (call : GeneratorCall)
    (hcall : call ∈ (exchangeToken svc store env x scopes authToken audience).2) :
    ∃ c r, svc.verifier svc.clientAudience authToken = .ok c ∧
      ResourceService.verify store c.sub x scopes = .ok r ∧ r.verified = true ∧
      resolveAudience audience r.audiences svc.audience = .ok call.claims.aud ∧
      PayloadIntegrity svc env x c r.claims call.claims.aud call.claims.payload ∧
      call.claims.nbf = some call.claims.iat ∧
      ∀ world cfg, JwtletConfig.validate world cfg = .ok () →
        svc.tokenTtlSecs = cfg.token.tokenTtlSecs →
        IssuedLifetime svc store env call.claims := by
  obtain ⟨c, r, aud, hv, hr, hverified, haud, hclaims⟩ := exchangeToken_call hcall
  have haudience : call.claims.aud = aud := by rw [hclaims]; rfl
  refine ⟨c, r, hv, hr, hverified, ?_, ?_, ?_, ?_⟩
  · rw [haudience, haud]
  · rw [haudience, hclaims]
    exact payloadIntegrity_participantClaims svc env x c r.claims aud
  · rw [hclaims]
    rfl
  · intro world cfg hcfg httl
    rw [hclaims]
    exact issued_lifetime hcfg httl x c r.claims aud

end Lifetime

/-- A row written around the service gives `read` an actor and an expiry, besides a role
that may be issued. -/
def injectedStore : InnerStore where
  entries := Std.ExtTreeMap.ofList [(("client", "ctx"),
    { clientIdentifier := "client", participantContext := "ctx"
      scopes := Std.ExtTreeSet.ofList ["read"] compare, audiences := ∅ })] compare
  scopeMappings := Std.ExtTreeMap.ofList [("read",
    { scope := "read"
      claims := Std.ExtTreeMap.ofList [("act", .string "admin"),
        ("exp", .number (.posInt 4102444800)), ("role", .string "reader")] compare })] compare

/-- A world that can parse addresses with `https` and has no files. -/
def sampleWorld : World where
  parseUrl := fun url =>
    if url.toList.take 8 = "https://".toList then some { scheme := "https" } else none
  pathExists := fun _ => false

/-- A configuration that validation accepts, with the default lifetime. -/
def sampleConfig : JwtletConfig where
  issuer := some "https://jwtlet"
  vault := { url := some "https://vault", tokenFile := some "/vault/token" }
  k8s := { apiServerUrl := some "https://kubernetes", clusterIssuer := some "https://cluster" }
  token := { clientAudience := some "jwtlet-exchange", audience := some "https://api" }

/-- The injected row is issued without its reserved claims, and the token has the
configured lifetime. -/
theorem issued_payload_integrity_sample :
    ∃ call ∈ (exchangeToken sampleService injectedStore sampleEnvironment "ctx" ["read"]
        "sa-token" none).2,
      (call.claims.payload.map Prod.fst).Nodup ∧
      IssuedLifetime sampleService injectedStore sampleEnvironment call.claims := by
  have hne : (exchangeToken sampleService injectedStore sampleEnvironment "ctx" ["read"]
      "sa-token" none).2 ≠ [] := by decide +kernel
  obtain ⟨call, hcall⟩ := List.exists_mem_of_ne_nil _ hne
  obtain ⟨c, r, -, -, -, -, hpayload, -, hlifetime⟩ := issued_payload_integrity sampleService
    injectedStore sampleEnvironment "ctx" ["read"] "sa-token" none call hcall
  exact ⟨call, hcall, hpayload.distinct, hlifetime sampleWorld sampleConfig (by decide) rfl⟩

end Jwtlet
