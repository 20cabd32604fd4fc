import Jwtlet.ExchangeApi
import Jwtlet.PolicyValidity
import Jwtlet.Utf8Order
import Jwtlet.WhitespaceWords

/-!
# The scope parameter

A request names its scopes as the words of one parameter; the response names
them again, each once and in order.  The parameter acts through the set of its
words alone (`tokenExchange_of_same_set`), and joining that set by spaces is a
normal form of it: splitting gives the set back.

On the other side of the API, a scope can be stored exactly when it can be such
a word.
-/

namespace Jwtlet

open Rust

/-- The words of the scope parameter, as the endpoint collects them: each once, in
ascending order. -/
def TokenExchangeForm.scopeSet (form : TokenExchangeForm) : BTreeSet String :=
  Std.ExtTreeSet.ofList form.requestedScopes compare

/-- The scope field of a successful response.  It names what was requested, since a
request is granted all its scopes or refused. -/
def TokenExchangeForm.grantedScope (form : TokenExchangeForm) : Option String :=
  if form.scopeSet.isEmpty then none else some (" ".intercalate form.scopeSet.toList)

/-- `w` is a word of the scope parameter.  A parameter that is left out has the words of
the empty text, which are none. -/
def TokenExchangeForm.HasWord (form : TokenExchangeForm) (w : String) : Prop :=
  IsMaximalRun (form.scope.getD "") w

/-- The set has the words of the parameter as elements. -/
theorem mem_scopeSet {form : TokenExchangeForm} {w : String} :
    w ∈ form.scopeSet ↔ form.HasWord w := by
  rw [TokenExchangeForm.scopeSet, mem_ofList, TokenExchangeForm.requestedScopes,
    mem_splitWhitespace_iff]
  rfl

/-- Two parameters have the same set exactly when they have the same words, whatever their
order, their repetitions and the whitespace between them. -/
theorem scopeSet_eq_iff {form form' : TokenExchangeForm} :
    form.scopeSet = form'.scopeSet ↔ ∀ w, form.HasWord w ↔ form'.HasWord w := by
  simp only [← mem_scopeSet]
  exact ⟨fun h w => by rw [h], fun h => Std.ExtTreeSet.ext_mem h⟩

/-- The elements of the set are words, so they can be joined by spaces and split again. -/
theorem isWord_of_mem_scopeSet {form : TokenExchangeForm} :
    ∀ w ∈ form.scopeSet.toList, IsWord w := by
  intro w hw
  rw [Std.ExtTreeSet.mem_toList, mem_scopeSet] at hw
  exact hw.word

/-- Splitting the joined words gives the words back, in their order. -/
theorem splitWhitespace_join_scopeSet (form : TokenExchangeForm) :
    splitWhitespace (" ".intercalate form.scopeSet.toList) = form.scopeSet.toList :=
  splitWhitespace_intercalate_words isWord_of_mem_scopeSet

/-- There is no scope field exactly when the parameter has no word. -/
theorem grantedScope_eq_none_iff {form : TokenExchangeForm} :
    form.grantedScope = none ↔ ¬ ∃ w, form.HasWord w := by
  rw [TokenExchangeForm.grantedScope]
  simp only [ite_eq_left_iff, reduceCtorEq, imp_false, Bool.not_eq_true, not_exists,
    ← mem_scopeSet]
  rw [Bool.not_eq_false, Std.ExtTreeSet.isEmpty_iff]
  exact ⟨fun h w => by rw [h]; exact Std.ExtTreeSet.not_mem_empty,
    fun h => Std.ExtTreeSet.eq_empty_iff_forall_not_mem.mpr h⟩

/-- The set of words can be read off the scope field, where an absent field stands for no
words. -/
theorem splitWhitespace_grantedScope (form : TokenExchangeForm) :
    splitWhitespace (form.grantedScope.getD "") = form.scopeSet.toList := by
  rw [TokenExchangeForm.grantedScope]
  split
  · next hempty =>
    rw [Std.ExtTreeSet.isEmpty_iff] at hempty
    simp [hempty]
  · exact splitWhitespace_join_scopeSet form

/-- Parameters get the same scope field exactly when they have the same words. -/
theorem grantedScope_eq_iff {form form' : TokenExchangeForm} :
    form.grantedScope = form'.grantedScope ↔ ∀ w, form.HasWord w ↔ form'.HasWord w := by
  rw [← scopeSet_eq_iff]
  constructor
  · intro h
    have hwords := splitWhitespace_grantedScope form
    rw [h, splitWhitespace_grantedScope form'] at hwords
    rw [← setOfList_toList form.scopeSet, ← hwords, setOfList_toList]
  · intro h
    rw [TokenExchangeForm.grantedScope, h]
    rfl

/-- The scope field, taken as a parameter, has the same words, so a client may ask again
for what it was granted. -/
theorem scopeSet_grantedScope (form : TokenExchangeForm) :
    { form with scope := form.grantedScope }.scopeSet = form.scopeSet := by
  rw [TokenExchangeForm.scopeSet, TokenExchangeForm.requestedScopes,
    splitWhitespace_grantedScope, setOfList_toList]

section Exchange

variable {σ : Type} [ResourceStore σ] {svc : TokenExchangeService} {store : σ}
  {env : Environment}

/-- The scope field of a token response is that of its parameter, whatever the store
holds. -/
theorem scope_of_token {form : TokenExchangeForm} {status : StatusCode}
    {body : TokenExchangeResponse}
    (h : (tokenExchange svc store env form).1 = .token status body) :
    body.scope = form.grantedScope := by
  rw [tokenExchange] at h
  split at h
  · cases h
  split at h
  · cases h
  simp only at h
  split at h
  · next e _ => cases e <;> cases h
  · cases h
    rfl

/-- An exchange depends on the scope parameter through the set of its words alone. -/
theorem tokenExchange_of_same_set (form : TokenExchangeForm) (scope : Option String)
    (h : { form with scope }.scopeSet = form.scopeSet) :
    tokenExchange svc store env { form with scope } = tokenExchange svc store env form := by
  unfold TokenExchangeForm.scopeSet at h
  simp only [tokenExchange, h]

/-- **The scope parameter is normalised canonically.**  The scope field of a
successful response is absent if the parameter has no word, and otherwise the
words of the parameter, each once and in ascending byte order, joined by single
spaces; splitting it gives back these words.  Two parameters get the same field
exactly when they have the same words.  Repeating the request with the field as
parameter gives the same response and the same calls of the generator. -/
theorem scope_parameter_canonical (svc : TokenExchangeService) (store : σ) (env : Environment)
    (form : TokenExchangeForm) (status : StatusCode) (body : TokenExchangeResponse)
    (h : (tokenExchange svc store env form).1 = .token status body) :
    (body.scope = none ↔ ¬ ∃ w, form.HasWord w) ∧
    (∀ field, body.scope = some field → ∃ words : List String,
      (∀ w, w ∈ words ↔ form.HasWord w) ∧
      words.Pairwise (fun a b => utf8Bytes a < utf8Bytes b) ∧
      field = " ".intercalate words ∧ splitWhitespace field = words) ∧
    (∀ (svc' : TokenExchangeService) (store' : σ) (env' : Environment)
      (form' : TokenExchangeForm) (status' : StatusCode) (body' : TokenExchangeResponse),
      (tokenExchange svc' store' env' form').1 = .token status' body' →
      (body.scope = body'.scope ↔ ∀ w, form.HasWord w ↔ form'.HasWord w)) ∧
    tokenExchange svc store env { form with scope := body.scope } =
      tokenExchange svc store env form := by
  have hscope := scope_of_token h
  refine ⟨?_, ?_, ?_, ?_⟩
  · rw [hscope]
    exact grantedScope_eq_none_iff
  · intro field hfield
    rw [hscope, TokenExchangeForm.grantedScope] at hfield
    split at hfield
    · cases hfield
    · cases hfield
      refine ⟨form.scopeSet.toList, ?_, ascending_toList _, rfl,
        splitWhitespace_join_scopeSet form⟩
      intro w
      rw [Std.ExtTreeSet.mem_toList, mem_scopeSet]
  · intro svc' store' env' form' status' body' h'
    rw [hscope, scope_of_token h']
    exact grantedScope_eq_iff
  · rw [hscope]
    exact tokenExchange_of_same_set form _ (scopeSet_grantedScope form)

end Exchange

/-- The client may use `read` and `write` for the default audience.  Nobody has defined
the two scopes. -/
def readWriteStore : InnerStore where
  entries := Std.ExtTreeMap.ofList [(("client", "ctx"),
    { clientIdentifier := "client", participantContext := "ctx"
      scopes := Std.ExtTreeSet.ofList ["read", "write"] compare, audiences := ∅ })] compare
  scopeMappings := ∅

/-- A request that repeats a scope, with tabs and runs of spaces between the words. -/
def untidyForm : TokenExchangeForm := { sampleForm with scope := some " write\tread  write" }

/-- The untidy parameter is answered as `read write`, and a request with that is answered
as the untidy one. -/
theorem scope_parameter_canonical_sample :
    untidyForm.grantedScope = some "read write" ∧
    tokenExchange sampleService readWriteStore sampleEnvironment
      { untidyForm with scope := some "read write" } =
    tokenExchange sampleService readWriteStore sampleEnvironment untidyForm := by
  have hgranted : untidyForm.grantedScope = some "read write" := by decide +kernel
  refine ⟨hgranted, ?_⟩
  obtain ⟨status, body, hok⟩ : ∃ status body,
      (tokenExchange sampleService readWriteStore sampleEnvironment untidyForm).1 =
        .token status body := ⟨200, _, rfl⟩
  have hrepeat := (scope_parameter_canonical sampleService readWriteStore sampleEnvironment
    untidyForm status body hok).2.2.2
  rwa [scope_of_token hok, hgranted] at hrepeat

/-- The names of a scope mapping or in the scopes of a resource mapping: wherever a store
may hold the name of a scope. -/
def StoredScope {σ : Type} [PolicyStore σ] (store : σ) (s : String) : Prop :=
  (∃ m, (PolicyStore.policy store).scope s = some m) ∨
    ∃ k m, (PolicyStore.policy store).mapping k = some m ∧ s ∈ m.scopes

/-- Scopes that came through the service are words, since validation has looked at each of
them. -/
theorem isWord_of_stored {σ : Type} [PolicyStore σ] {store : σ}
    (hvalid : (PolicyStore.policy store).Valid) {s : String} (hs : StoredScope store s) :
    IsWord s := by
  rcases hs with ⟨m, hm⟩ | ⟨k, m, hm, hs⟩
  · rw [← hvalid.keyed.scope s m hm]
    exact (hvalid.scope s m hm).scope
  · exact (hvalid.mapping k m hm).scopes s hs

/-- A scope mapping without claims is stored if its name is a word and free, so every name
that can be requested can be defined. -/
theorem save_plain_scope {σ : Type} [PolicyStore σ] {store : σ} {s : String} (hs : IsWord s)
    (hfree : (PolicyStore.policy store).scope s = none) :
    (ResourceService.saveScopeMappings store [{ scope := s, claims := ∅ }]).1 = .ok () ∧
      StoredScope (ResourceService.saveScopeMappings store [{ scope := s, claims := ∅ }]).2 s := by
  have hvalid : validateScopeMapping { scope := s, claims := ∅ } = .ok () :=
    validateScopeMapping_eq_ok_iff.mpr ⟨hs, fun k hk => absurd hk Std.ExtTreeMap.not_mem_empty⟩
  have hwrite : ResourceService.saveScopeMappings store [{ scope := s, claims := ∅ }] =
      ResourceStore.write store (.saveScopeMappings [{ scope := s, claims := ∅ }]) := by
    have hall : [{ scope := s, claims := ∅ }].forM validateScopeMapping = .ok () := by
      rw [forM_eq_ok_iff]
      simpa using hvalid
    rw [ResourceService.saveScopeMappings, hall]
    rfl
  have hpolicy : (PolicyStore.policy store).write
      (.saveScopeMappings [{ scope := s, claims := ∅ }]) =
        (.ok (), { PolicyStore.policy store with
          scope := Policy.addScopes (PolicyStore.policy store).scope
            [{ scope := s, claims := ∅ }] }) := by
    simp [Policy.write, Policy.firstTaken, hfree]
  rw [hwrite, PolicyStore.write_answer, hpolicy]
  refine ⟨rfl, Or.inl ⟨{ scope := s, claims := ∅ }, ?_⟩⟩
  rw [PolicyStore.write_policy, hpolicy]
  exact Function.update_self _ _ _

/-- **The validator accepts exactly the requestable names.**  A name passes
exactly when it is a word of some scope parameter, and exactly when it is the
only word of itself.  So whatever the service has stored can be requested, in
any combination, and every name that can be requested can be stored. -/
theorem scope_names_storable_iff_requestable :
    (∀ s : String, (validateScopeName s = .ok () ↔
        ∃ form : TokenExchangeForm, s ∈ form.requestedScopes) ∧
      (validateScopeName s = .ok () ↔
        ∀ form : TokenExchangeForm, form.scope = some s → form.requestedScopes = [s])) ∧
    (∀ {σ : Type} [PolicyStore σ] (ops : List ServiceOp) (names : List String),
      (∀ s ∈ names,
        StoredScope (Machine.after ServiceOp.perform (PolicyStore.empty : σ) ops) s) →
      ∀ form : TokenExchangeForm, form.scope = some (" ".intercalate names) →
        form.requestedScopes = names) ∧
    ∀ {σ : Type} [PolicyStore σ] (store : σ) (form : TokenExchangeForm),
      ∀ s ∈ form.requestedScopes, (PolicyStore.policy store).scope s = none →
        (ResourceService.saveScopeMappings store [{ scope := s, claims := ∅ }]).1 = .ok () ∧
          StoredScope (ResourceService.saveScopeMappings store
            [{ scope := s, claims := ∅ }]).2 s := by
  have hword : ∀ s, validateScopeName s = .ok () ↔ IsWord s := fun s =>
    validateScopeName_eq_ok_iff
  have hform : ∀ {form : TokenExchangeForm} {p : String}, form.scope = some p →
      form.requestedScopes = splitWhitespace p := by
    intro form p hp
    rw [TokenExchangeForm.requestedScopes, hp]
    rfl
  refine ⟨fun s => ⟨?_, ?_⟩, ?_, ?_⟩
  · rw [hword]
    constructor
    · intro hs
      refine ⟨{ sampleForm with scope := some s }, ?_⟩
      rw [hform rfl, splitWhitespace_of_isWord hs]
      exact List.mem_singleton.mpr rfl
    · intro h
      obtain ⟨form, hs⟩ := h
      exact isWord_of_mem_splitWhitespace hs
  · rw [hword, isWord_iff_splitWhitespace]
    constructor
    · intro hs form hp
      rw [hform hp, hs]
    · intro h
      rw [← @hform { sampleForm with scope := some s } s rfl]
      exact h _ rfl
  · intro σ _ ops names hnames form hp
    rw [hform hp]
    exact splitWhitespace_intercalate_words fun s hs =>
      isWord_of_stored (reachable_valid ops) (hnames s hs)
  · intro σ _ store form s hs hfree
    exact save_plain_scope (isWord_of_mem_splitWhitespace hs) hfree

end Jwtlet
