import Jwtlet.RoleNoninterference

/-!
# The audit trail

The audit events of a run, replayed in order, give back which keys are live in
the two tables.  Every request that changes a record logs an event that names its
key, in the name of the verified caller who held the role of the route; and a
request that is answered with an error logs nothing and changes nothing.

A successful write and its events agree (`LiveKeys.Tracks.write`); the run is
then a monitor that stays in step with the store.
-/

namespace Jwtlet

open Rust

/-- The live keys of the two tables, which are what the log can speak of: the events name
records but do not carry them. -/
structure LiveKeys where
  mappings : HashSet (String × String)
  scopes : HashSet String

namespace LiveKeys

/-- No keys, as in an empty store, where the replay of a log begins. -/
def empty : LiveKeys := { mappings := ∅, scopes := ∅ }

/-- Replay one event.  An update leaves the keys as they are, and the deletion of a
client's mappings takes all keys of the client with it. -/
def replayOne (keys : LiveKeys) : AuditEvent → LiveKeys
  | .mappingCreated _ clientId context =>
      { keys with mappings := keys.mappings.insert (clientId, context) }
  | .mappingDeleted _ clientId context =>
      { keys with mappings := keys.mappings.erase (clientId, context) }
  | .allMappingsDeleted _ clientId =>
      { keys with mappings := keys.mappings.filter fun k => k.1 != clientId }
  | .scopeMappingCreated _ scope => { keys with scopes := keys.scopes.insert scope }
  | .scopeMappingDeleted _ scope => { keys with scopes := keys.scopes.erase scope }
  | .mappingUpdated _ _ _ | .scopeMappingUpdated _ _ => keys

/-- Replay the events of a log, in the order in which they were logged. -/
def replay (keys : LiveKeys) (events : List AuditEvent) : LiveKeys := events.foldl replayOne keys

/-- The keys are those of a policy: a key is live exactly when the policy has a record
under it. -/
structure Tracks (keys : LiveKeys) (p : Policy) : Prop where
  mappings : ∀ k, k ∈ keys.mappings ↔ (p.mapping k).isSome = true
  scopes : ∀ s, s ∈ keys.scopes ↔ (p.scope s).isSome = true

end LiveKeys

/-- Who caused the event.  Every event has an actor, since no handler runs without a
verified caller. -/
def AuditEvent.actor : AuditEvent → String
  | .mappingCreated actor _ _ | .mappingUpdated actor _ _ | .mappingDeleted actor _ _
  | .allMappingsDeleted actor _ | .scopeMappingCreated actor _ | .scopeMappingUpdated actor _
  | .scopeMappingDeleted actor _ => actor

/-- The event names the key of a mapping, or its client where the event is the deletion of
all mappings that the client has. -/
def AuditEvent.NamesMapping (k : String × String) : AuditEvent → Prop
  | .mappingCreated _ c x | .mappingUpdated _ c x | .mappingDeleted _ c x => (c, x) = k
  | .allMappingsDeleted _ c => c = k.1
  | .scopeMappingCreated _ _ | .scopeMappingUpdated _ _ | .scopeMappingDeleted _ _ => False

/-- The event names a scope, as created, updated or deleted. -/
def AuditEvent.NamesScope (s : String) : AuditEvent → Prop
  | .scopeMappingCreated _ scope | .scopeMappingUpdated _ scope
  | .scopeMappingDeleted _ scope => scope = s
  | .mappingCreated _ _ _ | .mappingUpdated _ _ _ | .mappingDeleted _ _ _
  | .allMappingsDeleted _ _ => False

section Writes

variable {p : Policy} {actor : String}

/-- The events of a batch add its scopes, each one of them and nothing besides, in
whatever order the batch lists them. -/
theorem replay_created (keys : LiveKeys) (ms : List ScopeMapping) :
    (keys.replay (ms.map fun m => .scopeMappingCreated actor m.scope)).mappings = keys.mappings ∧
    ∀ s, s ∈ (keys.replay (ms.map fun m => .scopeMappingCreated actor m.scope)).scopes ↔
      s ∈ keys.scopes ∨ ∃ m ∈ ms, m.scope = s := by
  induction ms generalizing keys with
  | nil => simp [LiveKeys.replay]
  | cons m ms ih =>
      obtain ⟨hmappings, hscopes⟩ := ih { keys with scopes := keys.scopes.insert m.scope }
      refine ⟨hmappings, fun s => (hscopes s).trans ?_⟩
      rw [Std.ExtTreeSet.mem_insert, List.exists_mem_cons_iff, compare_eq_iff_eq]
      tauto

/-- Replacing a record keeps the keys that are in use, which is why the update events may
be replayed as nothing. -/
private theorem isSome_update_of_isSome {K V : Type} [DecidableEq K] {f : K → Option V} {k₀ : K}
    (h : (f k₀).isSome = true) (v : V) (k : K) :
    (Function.update f k₀ (some v) k).isSome = (f k).isSome := by
  rw [Function.update_apply]
  split
  · next hk => rw [hk, h, Option.isSome_some]
  · rfl

/-- After a successful write, its events have brought the live keys along.  There is one
case for each write, and the hypothesis of success is what the creations and updates need.
-/
theorem LiveKeys.Tracks.write {keys : LiveKeys} (h : keys.Tracks p) {w : StoreWrite}
    (hw : (p.write w).1 = .ok ()) : (keys.replay (w.auditEvents actor)).Tracks (p.write w).2 := by
  cases w with
  | saveMapping m =>
      simp only [Policy.write] at hw ⊢
      split at hw
      · cases hw
      · next hfree =>
        rw [if_neg hfree]
        refine ⟨fun k => ?_, h.scopes⟩
        simp only [replay, StoreWrite.auditEvents, List.foldl_cons, List.foldl_nil, replayOne,
          Std.ExtTreeSet.mem_insert, Function.update_apply, h.mappings k]
        by_cases hk : k = m.key
        · simp [hk, ResourceMapping.key]
        · simp [hk, show (m.clientIdentifier, m.participantContext) ≠ k from Ne.symm hk]
  | updateMapping m =>
      simp only [Policy.write] at hw ⊢
      split at hw
      · next htaken =>
        rw [if_pos htaken]
        refine ⟨fun k => (h.mappings k).trans ?_, h.scopes⟩
        rw [isSome_update_of_isSome htaken]
      · cases hw
  | removeMapping c x =>
      refine ⟨fun k => ?_, h.scopes⟩
      simp only [replay, StoreWrite.auditEvents, List.foldl_cons, List.foldl_nil, replayOne,
        Std.ExtTreeSet.mem_erase, Policy.write, Function.update_apply, h.mappings k]
      by_cases hk : k = (c, x)
      · simp [hk]
      · simp [hk, Ne.symm hk]
  | removeMappingsFor c =>
      refine ⟨fun k => ?_, h.scopes⟩
      simp only [replay, StoreWrite.auditEvents, List.foldl_cons, List.foldl_nil, replayOne,
        Policy.write, mem_filter, h.mappings k]
      by_cases hk : k.1 = c <;> simp [hk]
  | saveScopeMappings ms =>
      simp only [Policy.write] at hw ⊢
      split at hw
      · cases hw
      · next hfree =>
        obtain ⟨hmappings, hscopes⟩ := @replay_created actor keys ms
        refine ⟨fun k => ?_, fun s => ?_⟩
        · rw [StoreWrite.auditEvents, hmappings, h.mappings]
        · rw [StoreWrite.auditEvents, hscopes, Policy.isSome_addScopes, h.scopes]
  | updateScopeMapping m =>
      simp only [Policy.write] at hw ⊢
      split at hw
      · next htaken =>
        rw [if_pos htaken]
        refine ⟨h.mappings, fun s => (h.scopes s).trans ?_⟩
        rw [isSome_update_of_isSome htaken]
      · cases hw
  | removeScopeMapping s' =>
      refine ⟨h.mappings, fun s => ?_⟩
      simp only [replay, StoreWrite.auditEvents, List.foldl_cons, List.foldl_nil, replayOne,
        Std.ExtTreeSet.mem_erase, Policy.write, Function.update_apply, h.scopes s]
      by_cases hs : s = s'
      · simp [hs]
      · simp [hs, Ne.symm hs]

/-- An update changes its own place only, so a place that differs is the one updated. -/
private theorem key_eq_of_update_ne {K V : Type} [DecidableEq K] {f : K → V} {k₀ k : K} {v : V}
    (h : Function.update f k₀ v k ≠ f k) : k₀ = k := by
  by_contra hk
  exact h (Function.update_of_ne (Ne.symm hk) _ _)

/-- A mapping that a write changes is named by its events, whether it is added, replaced,
or removed alone or with its client's others. -/
theorem names_mapping_of_change {w : StoreWrite} {k : String × String}
    (h : (p.write w).2.mapping k ≠ p.mapping k) :
    ∃ ev ∈ w.auditEvents actor, ev.NamesMapping k := by
  cases w with
  | saveMapping m =>
      simp only [Policy.write] at h
      split at h
      · exact absurd rfl h
      · exact ⟨_, List.mem_singleton.mpr rfl, key_eq_of_update_ne h⟩
  | updateMapping m =>
      simp only [Policy.write] at h
      split at h
      · exact ⟨_, List.mem_singleton.mpr rfl, key_eq_of_update_ne h⟩
      · exact absurd rfl h
  | removeMapping c x => exact ⟨_, List.mem_singleton.mpr rfl, key_eq_of_update_ne h⟩
  | removeMappingsFor c =>
      refine ⟨_, List.mem_singleton.mpr rfl, ?_⟩
      by_contra hk
      exact h (if_neg (Ne.symm hk))
  | saveScopeMappings ms => exact absurd (congrFun (Policy.write_mapping rfl p) k) h
  | updateScopeMapping m => exact absurd (congrFun (Policy.write_mapping rfl p) k) h
  | removeScopeMapping s => exact absurd rfl h

/-- A scope that a write changes is named by its events; of a batch, the event of its own
element names it. -/
theorem names_scope_of_change {w : StoreWrite} {s : String}
    (h : (p.write w).2.scope s ≠ p.scope s) :
    ∃ ev ∈ w.auditEvents actor, ev.NamesScope s := by
  cases w with
  | saveScopeMappings ms =>
      simp only [Policy.write] at h
      split at h
      · exact absurd rfl h
      · by_contra hno
        refine h (Policy.addScopes_of_not_mem fun m hm hs => hno ?_)
        exact ⟨.scopeMappingCreated actor m.scope, List.mem_map.mpr ⟨m, hm, rfl⟩, hs⟩
  | updateScopeMapping m =>
      simp only [Policy.write] at h
      split at h
      · exact ⟨_, List.mem_singleton.mpr rfl, key_eq_of_update_ne h⟩
      · exact absurd rfl h
  | removeScopeMapping s' => exact ⟨_, List.mem_singleton.mpr rfl, key_eq_of_update_ne h⟩
  | saveMapping m => exact absurd (congrFun (Policy.write_scope rfl p) s) h
  | updateMapping m => exact absurd (congrFun (Policy.write_scope rfl p) s) h
  | removeMapping c x => exact absurd rfl h
  | removeMappingsFor c => exact absurd rfl h

/-- All events of a write have the actor it was logged for, those of a batch alike. -/
theorem actor_of_mem_auditEvents {w : StoreWrite} {ev : AuditEvent}
    (h : ev ∈ w.auditEvents actor) : ev.actor = actor := by
  cases w with
  | saveScopeMappings ms =>
      obtain ⟨m, -, rfl⟩ := List.mem_map.mp h
      rfl
  | _ => cases List.mem_singleton.mp h; rfl

end Writes

/-- The caller is the verified subject `sub`, who holds the role of the route that the
request hits. -/
def ActsOnRoute (accounts : MemoryServiceAccountStore) (state : ManagementState)
    (request : Request) (sub : String) : Prop :=
  verifiedSubject state request = some sub ∧
    ∃ role, routeRole request = some role ∧ accounts.holdsRole sub role = true

/-- How a request is accounted for: each key it changes is named by an event of its
caller, and an error comes with neither events nor changes. -/
structure Accounted (accounts : MemoryServiceAccountStore) (state : ManagementState)
    (store : InnerStore) (request : Request) : Prop where
  mappings : ∀ k, (state.step store request).2.entries[k]? ≠ store.entries[k]? →
    ∃ ev ∈ (state.step store request).1.2, ev.NamesMapping k ∧
      ActsOnRoute accounts state request ev.actor
  scopes : ∀ s, (state.step store request).2.scopeMappings[s]? ≠ store.scopeMappings[s]? →
    ∃ ev ∈ (state.step store request).1.2, ev.NamesScope s ∧
      ActsOnRoute accounts state request ev.actor
  errors : (state.step store request).1.1.status.isError = true →
    (state.step store request).1.2 = [] ∧ (state.step store request).2 = store

section Requests

variable (accounts : MemoryServiceAccountStore) (verifier : JwtVerifier) (clientAudience : String)
  (percentDecode : String → Option String)

/-- Whoever was admitted to a handler acts on the route of the request. -/
theorem actsOnRoute_of_admitted {request : Request} {role actor : String}
    (h : Admitted (accountState accounts verifier clientAudience percentDecode) request role
      actor) :
    ActsOnRoute accounts (accountState accounts verifier clientAudience percentDecode) request
      actor := by
  obtain ⟨hsub, hrole⟩ := holdsRole_of_admitted h
  obtain ⟨⟨e, params, hd, rfl⟩, -⟩ := h
  exact ⟨hsub, e.requiredRole, by rw [routeRole, hd], hrole⟩

/-- Every request is accounted for in every state.  Its two cases are those of what a
request can do. -/
theorem accounted (store : InnerStore) (request : Request) :
    Accounted accounts (accountState accounts verifier clientAudience percentDecode) store
      request := by
  rcases handleRequest_cases (accountState accounts verifier clientAudience percentDecode) store
    request with ⟨⟨hevents, hstore⟩, -⟩ | ⟨actor, w, hadmitted, hwrote⟩
  · refine ⟨fun k hk => ?_, fun s hs => ?_, fun _ => ⟨hevents, hstore⟩⟩
    · rw [ManagementState.step, hstore] at hk
      exact absurd rfl hk
    · rw [ManagementState.step, hstore] at hs
      exact absurd rfl hs
  · have hacts := actsOnRoute_of_admitted accounts verifier clientAudience percentDecode hadmitted
    have hevents : (ManagementState.step (accountState accounts verifier clientAudience
        percentDecode) store request).1.2 = w.auditEvents actor := hwrote.events
    have hpolicy : PolicyStore.policy (ManagementState.step (accountState accounts verifier
        clientAudience percentDecode) store request).2 =
          ((PolicyStore.policy store).write w).2 := by
      rw [ManagementState.step, hwrote.store, PolicyStore.write_policy]
    refine ⟨fun k hk => ?_, fun s hs => ?_, fun herror => ?_⟩
    · have hchange : ((PolicyStore.policy store).write w).2.mapping k ≠
          (PolicyStore.policy store).mapping k := by
        rw [← hpolicy]
        exact hk
      obtain ⟨ev, hev, hnames⟩ := @names_mapping_of_change _ actor w k hchange
      refine ⟨ev, by rw [hevents]; exact hev, hnames, ?_⟩
      rw [actor_of_mem_auditEvents hev]
      exact hacts
    · have hchange : ((PolicyStore.policy store).write w).2.scope s ≠
          (PolicyStore.policy store).scope s := by
        rw [← hpolicy]
        exact hs
      obtain ⟨ev, hev, hnames⟩ := @names_scope_of_change _ actor w s hchange
      refine ⟨ev, by rw [hevents]; exact hev, hnames, ?_⟩
      rw [actor_of_mem_auditEvents hev]
      exact hacts
    · have hok := hwrote.status
      change (handleRequest _ store request).response.status.isError = true at herror
      rw [herror] at hok
      cases hok

/-- The events of a request bring the live keys along.  A quiet request has none of them
and leaves the store alone; of a writing one `LiveKeys.Tracks.write` speaks. -/
theorem tracks_step (state : ManagementState) (keys : LiveKeys) (store : InnerStore)
    (request : Request) (h : keys.Tracks (PolicyStore.policy store)) :
    (keys.replay (state.step store request).1.2).Tracks
      (PolicyStore.policy (state.step store request).2) := by
  rcases handleRequest_cases state store request with
    ⟨⟨hevents, hstore⟩, -⟩ | ⟨actor, w, -, hwrote⟩
  · rw [ManagementState.step, hevents, hstore]
    exact h
  · rw [ManagementState.step, hwrote.events, hwrote.store, PolicyStore.write_policy]
    apply h.write
    rw [← PolicyStore.write_answer]
    exact hwrote.succeeded

/-- Replaying the log of a run from empty gives the live keys of the final store.  The run
is followed by a monitor that has seen the log so far. -/
theorem tracks_auditLog (state : ManagementState) (requests : List Request) :
    (LiveKeys.empty.replay (auditLog state MemoryResourceStore.new requests)).Tracks
      (PolicyStore.policy (Machine.after state.step MemoryResourceStore.new requests)) := by
  have hempty : LiveKeys.empty.Tracks (PolicyStore.policy MemoryResourceStore.new) := by
    constructor <;> simp [LiveKeys.empty, PolicyStore.policy, MemoryResourceStore.new]
  have hrun := @Machine.monitor InnerStore Request (Response × List AuditEvent) state.step LiveKeys
    (fun keys answer => keys.replay answer.2)
    (fun keys store => keys.Tracks (PolicyStore.policy store))
    (tracks_step state) LiveKeys.empty MemoryResourceStore.new hempty requests
  rwa [auditLog, LiveKeys.replay, List.foldl_flatMap]

end Requests

/-- **The audit trail is exact.**  For every run of requests from an empty store,
replaying the audit log gives exactly the keys of the two tables.  Every request,
in every state, logs an event that names each key it changes, with the verified
holder of the route's role as actor; and a request answered with an error logs
nothing and changes nothing. -/
theorem audit_trail_exact (accounts : MemoryServiceAccountStore) (verifier : JwtVerifier)
    (clientAudience : String) (percentDecode : String → Option String)
    (requests : List Request) :
    let state := accountState accounts verifier clientAudience percentDecode
    let final := Machine.after state.step MemoryResourceStore.new requests
    let keys := LiveKeys.empty.replay (auditLog state MemoryResourceStore.new requests)
    (∀ k, k ∈ keys.mappings ↔ k ∈ final.entries) ∧
    (∀ s, s ∈ keys.scopes ↔ s ∈ final.scopeMappings) ∧
    ∀ (store : InnerStore) (request : Request), Accounted accounts state store request := by
  intro state final keys
  have htracks := tracks_auditLog state requests
  refine ⟨fun k => ?_, fun s => ?_, fun store request =>
    accounted accounts verifier clientAudience percentDecode store request⟩
  · rw [htracks.mappings k]
    exact Std.ExtTreeMap.isSome_getElem?_iff_mem
  · rw [htracks.scopes s]
    exact Std.ExtTreeMap.isSome_getElem?_iff_mem

end Jwtlet
