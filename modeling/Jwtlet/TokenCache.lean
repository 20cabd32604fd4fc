import Jwtlet.MachineRuns
import Jwtlet.RustText

/-!
# The cached service-account token

The token that authenticates TokenReviews is cached; the kubelet rotates the file
it comes from.  `jwtlet-core/src/k8s/renewal.rs` watches the file and renews the
cache, and `refresh_sa_token` of `jwtlet-core/src/k8s/mod.rs` does so on its own
after a 401.  Either writer reads the file in one step and stores the trimmed
content in a later one, and the watcher drops events when its channel is full.

The two can leave an old token in the cache with nothing left to replace it
(`cache_left_stale`).  What keeps the cache from going stale is that some pending
work will still renew it: `CacheState.Covered` is that invariant, and
`SafeCacheStep` says which steps keep it.
-/

namespace Jwtlet

open Rust

/-- `notify::EventKind`, without the details of each kind, which the loop does not look
at. -/
inductive EventKind where
  | any
  | access
  | create
  | modify
  | remove
  | other
  deriving DecidableEq

/-- The kinds of event that `wait_for_trigger` returns for.  It takes the others from the
channel and waits on. -/
def EventKind.triggers : EventKind → Bool
  | .create | .modify | .remove => true
  | .any | .access | .other => false

/-- The slots of the channel from the watcher to the renewal loop.  The watcher does not
wait for a free one. -/
def channelCapacity : Nat := 100

/-- Where the renewal loop is: waiting for an event, about to read the file, or between
its read and its store. -/
inductive RenewalPhase where
  | waiting
  | triggered
  | holding (raw : String)
  deriving DecidableEq

/-- The token file and what the verifier keeps about it.  `announced` is false from a
rotation to the first event that reports it. -/
structure CacheState where
  file : String
  cache : String
  queue : List EventKind
  renewal : RenewalPhase
  refreshes : List String
  announced : Bool
  deriving DecidableEq

/-- What can happen next.  The steps of the kubelet, the watcher, the loop and the
refreshes after a 401 may come in any order. -/
inductive CacheStep where
  /-- The file is replaced. -/
  | rotate (content : String)
  /-- The watcher calls back. -/
  | event (kind : EventKind)
  /-- The renewal loop takes an event from the channel. -/
  | receive
  /-- The renewal loop reads the file. -/
  | renewalRead
  /-- The renewal loop stores what it read. -/
  | renewalStore
  /-- Some `refresh_sa_token` reads the file. -/
  | refreshRead
  /-- The `i`-th refresh between its read and its store stores what it read. -/
  | refreshStore (i : Nat)
  deriving DecidableEq

/-- After `initialize`: the content of the file is cached without the whitespace around
it, and the loop waits. -/
def CacheState.initial (content : String) : CacheState where
  file := content
  cache := trim content
  queue := []
  renewal := .waiting
  refreshes := []
  announced := true

/-- One step; a step whose turn it is not does nothing.  An event that finds the channel
full is dropped. -/
def CacheState.step (s : CacheState) : CacheStep → Unit × CacheState
  | .rotate content => ((), { s with file := content, announced := false })
  | .event kind => ((), { s with
      queue := if s.queue.length < channelCapacity then s.queue ++ [kind] else s.queue
      announced := s.announced || kind.triggers })
  | .receive =>
      match s.renewal, s.queue with
      | .waiting, kind :: queue =>
          ((), { s with queue, renewal := if kind.triggers then .triggered else .waiting })
      | _, _ => ((), s)
  | .renewalRead =>
      match s.renewal with
      | .triggered => ((), { s with renewal := .holding s.file })
      | _ => ((), s)
  | .renewalStore =>
      match s.renewal with
      | .holding raw => ((), { s with cache := trim raw, renewal := .waiting })
      | _ => ((), s)
  | .refreshRead => ((), { s with refreshes := s.refreshes ++ [s.file] })
  | .refreshStore i =>
      match s.refreshes[i]? with
      | some raw => ((), { s with cache := trim raw, refreshes := s.refreshes.eraseIdx i })
      | none => ((), s)

/-- Every rotation was reported, the channel is empty, the loop waits, and no refresh is
between its read and its store.  So nothing is left that would change the cache. -/
structure CacheState.AtRest (s : CacheState) : Prop where
  announced : s.announced = true
  queue : s.queue = []
  renewal : s.renewal = .waiting
  refreshes : s.refreshes = []

/-- The content is what the file holds, up to the whitespace around it, which no writer of
the cache keeps. -/
def CacheState.IsCurrent (s : CacheState) (raw : String) : Prop := trim raw = trim s.file

/-- The cache holds the token of the file, so reviews are sent with the bearer that is
valid. -/
def CacheState.Fresh (s : CacheState) : Prop := s.cache = trim s.file

/-- The loop will read the file: a report of a rotation is to come, is queued or
was received. -/
def CacheState.Renewing (s : CacheState) : Prop :=
  s.announced = false ∨ (∃ kind ∈ s.queue, kind.triggers = true) ∨ s.renewal = .triggered

/-- The loop is about to store current content, which it has read already. -/
def CacheState.RenewalHolds (s : CacheState) : Prop :=
  ∃ raw, s.renewal = .holding raw ∧ s.IsCurrent raw

/-- Some pending work will bring the token of the file into the cache, or it is there.
This is the invariant of safe runs. -/
def CacheState.Covered (s : CacheState) : Prop :=
  s.Renewing ∨ s.RenewalHolds ∨ (∃ raw ∈ s.refreshes, s.IsCurrent raw) ∨ s.Fresh

/-- The steps that do not lose a token.  An event that reports a change is dropped
only while another is queued or received, a writer holds current content or the
cache is fresh; and content other than that of the file is stored only while the
loop will read the file or another writer holds current content. -/
def SafeCacheStep (s : CacheState) : CacheStep → Prop
  | .event kind => kind.triggers = true → channelCapacity ≤ s.queue.length →
      (∃ kind' ∈ s.queue, kind'.triggers = true) ∨ s.renewal = .triggered ∨
      s.RenewalHolds ∨ (∃ raw ∈ s.refreshes, s.IsCurrent raw) ∨ s.Fresh
  | .renewalStore => ∀ raw, s.renewal = .holding raw → s.IsCurrent raw ∨ s.Renewing ∨
      ∃ raw' ∈ s.refreshes, s.IsCurrent raw'
  | .refreshStore i => ∀ raw, s.refreshes[i]? = some raw → s.IsCurrent raw ∨ s.Renewing ∨
      s.RenewalHolds ∨ ∃ raw' ∈ s.refreshes.eraseIdx i, s.IsCurrent raw'
  | .rotate _ | .receive | .renewalRead | .refreshRead => True

/-- After `initialize` the token of the file is in the cache. -/
theorem covered_initial (content : String) : (CacheState.initial content).Covered :=
  Or.inr (Or.inr (Or.inr rfl))

/-- At rest nothing is pending, so a covered token is in the cache.  Of the ways to be
covered only that one is left. -/
theorem fresh_of_atRest {s : CacheState} (hrest : s.AtRest) (h : s.Covered) : s.Fresh := by
  rcases h with hrenewing | ⟨raw, hraw, -⟩ | ⟨raw, hraw, -⟩ | hfresh
  · rcases hrenewing with hann | ⟨kind, hkind, -⟩ | htriggered
    · rw [hrest.announced] at hann
      cases hann
    · rw [hrest.queue] at hkind
      cases hkind
    · rw [hrest.renewal] at htriggered
      cases htriggered
  · rw [hrest.renewal] at hraw
    cases hraw
  · rw [hrest.refreshes] at hraw
    cases hraw
  · exact hfresh

/-- An event, queued or dropped, does not matter to a token that is covered
otherwise than by a report to come. -/
theorem covered_event_of_pending {s : CacheState} (kind : EventKind)
    (h : (∃ kind' ∈ s.queue, kind'.triggers = true) ∨ s.renewal = .triggered ∨
      s.RenewalHolds ∨ (∃ raw ∈ s.refreshes, s.IsCurrent raw) ∨ s.Fresh) :
    (s.step (.event kind)).2.Covered := by
  have hqueue : ∀ kind' ∈ s.queue, kind' ∈ (s.step (.event kind)).2.queue := by
    intro kind' hkind'
    simp only [CacheState.step]
    split
    · exact List.mem_append_left _ hkind'
    · exact hkind'
  rcases h with ⟨kind', hkind', htriggers⟩ | htriggered | hrest
  · exact Or.inl (Or.inr (Or.inl ⟨kind', hqueue kind' hkind', htriggers⟩))
  · exact Or.inl (Or.inr (Or.inr htriggered))
  · exact Or.inr hrest

/-- A safe event keeps the token covered: it is queued, or what it would have led to is
under way already. -/
theorem covered_event {s : CacheState} {kind : EventKind} (h : s.Covered)
    (hsafe : SafeCacheStep s (.event kind)) : (s.step (.event kind)).2.Covered := by
  cases htriggers : kind.triggers with
  | true =>
      by_cases hroom : s.queue.length < channelCapacity
      · refine Or.inl (Or.inr (Or.inl ⟨kind, ?_, htriggers⟩))
        simp [CacheState.step, hroom]
      · exact covered_event_of_pending kind (hsafe htriggers (by omega))
  | false =>
      have hann : (s.step (.event kind)).2.announced = s.announced := by
        simp [CacheState.step, htriggers]
      rcases h with (hunannounced | hqueued | htriggered) | hrest
      · exact Or.inl (Or.inl (hann.trans hunannounced))
      · exact covered_event_of_pending kind (Or.inl hqueued)
      · exact covered_event_of_pending kind (Or.inr (Or.inl htriggered))
      · exact covered_event_of_pending kind (Or.inr (Or.inr hrest))

/-- Taking an event from the channel keeps the token covered: a report makes the loop read
the file, and any other event covers nothing. -/
theorem covered_receive {s : CacheState} (h : s.Covered) : (s.step .receive).2.Covered := by
  cases hrenewal : s.renewal with
  | waiting =>
      cases hqueue : s.queue with
      | nil => simpa only [CacheState.step, hrenewal, hqueue] using h
      | cons kind queue =>
          simp only [CacheState.step, hrenewal, hqueue]
          cases htriggers : kind.triggers with
          | true => exact Or.inl (Or.inr (Or.inr rfl))
          | false =>
              rcases h with (hann | ⟨kind', hkind', htriggers'⟩ | htriggered) |
                ⟨raw, hraw, -⟩ | hrest
              · exact Or.inl (Or.inl hann)
              · rw [hqueue] at hkind'
                rcases List.mem_cons.mp hkind' with rfl | hkind'
                · rw [htriggers] at htriggers'
                  cases htriggers'
                · exact Or.inl (Or.inr (Or.inl ⟨kind', hkind', htriggers'⟩))
              · rw [hrenewal] at htriggered
                cases htriggered
              · rw [hrenewal] at hraw
                cases hraw
              · exact Or.inr (Or.inr hrest)
  | triggered => simpa only [CacheState.step, hrenewal] using h
  | holding raw => simpa only [CacheState.step, hrenewal] using h

/-- The read of the loop keeps the token covered, since what it holds then is current. -/
theorem covered_renewalRead {s : CacheState} (h : s.Covered) :
    (s.step .renewalRead).2.Covered := by
  cases hrenewal : s.renewal with
  | triggered =>
      simp only [CacheState.step, hrenewal]
      exact Or.inr (Or.inl ⟨s.file, rfl, rfl⟩)
  | waiting => simpa only [CacheState.step, hrenewal] using h
  | holding raw => simpa only [CacheState.step, hrenewal] using h

/-- A safe store of the loop keeps the token covered: it makes the cache fresh, or the
loop or a refresh will do so. -/
theorem covered_renewalStore {s : CacheState} (h : s.Covered)
    (hsafe : SafeCacheStep s .renewalStore) : (s.step .renewalStore).2.Covered := by
  cases hrenewal : s.renewal with
  | waiting => simpa only [CacheState.step, hrenewal] using h
  | triggered => simpa only [CacheState.step, hrenewal] using h
  | holding raw =>
      simp only [CacheState.step, hrenewal]
      rcases hsafe raw hrenewal with hcurrent | (hann | hqueued | htriggered) | hrefresh
      · exact Or.inr (Or.inr (Or.inr hcurrent))
      · exact Or.inl (Or.inl hann)
      · exact Or.inl (Or.inr (Or.inl hqueued))
      · rw [hrenewal] at htriggered
        cases htriggered
      · exact Or.inr (Or.inr (Or.inl hrefresh))

/-- A safe store of a refresh keeps the token covered: it makes the cache fresh, or the
loop or another refresh will do so. -/
theorem covered_refreshStore {s : CacheState} {i : Nat} (h : s.Covered)
    (hsafe : SafeCacheStep s (.refreshStore i)) : (s.step (.refreshStore i)).2.Covered := by
  cases hraw : s.refreshes[i]? with
  | none => simpa only [CacheState.step, hraw] using h
  | some raw =>
      simp only [CacheState.step, hraw]
      rcases hsafe raw hraw with hcurrent | hrenewing | hholds | hrefresh
      · exact Or.inr (Or.inr (Or.inr hcurrent))
      · exact Or.inl hrenewing
      · exact Or.inr (Or.inl hholds)
      · exact Or.inr (Or.inr (Or.inl hrefresh))

/-- Safe steps keep the token covered, each kind of step for its own reason. -/
theorem covered_step {s : CacheState} {i : CacheStep} (hsafe : SafeCacheStep s i) (h : s.Covered) :
    (s.step i).2.Covered := by
  cases i with
  | rotate content => exact Or.inl (Or.inl rfl)
  | event kind => exact covered_event h hsafe
  | receive => exact covered_receive h
  | renewalRead => exact covered_renewalRead h
  | renewalStore => exact covered_renewalStore h hsafe
  | refreshRead =>
      exact Or.inr (Or.inr (Or.inl ⟨s.file, List.mem_append_right _ (List.mem_singleton.mpr rfl),
        rfl⟩))
  | refreshStore i => exact covered_refreshStore h hsafe

/-- After an unsafe step the token is not covered.  So the condition on the steps says no
more than the invariant needs. -/
theorem not_covered_after {s : CacheState} {i : CacheStep} (h : ¬ SafeCacheStep s i) :
    ¬ (s.step i).2.Covered := by
  cases i with
  | rotate content => exact absurd trivial h
  | receive => exact absurd trivial h
  | renewalRead => exact absurd trivial h
  | refreshRead => exact absurd trivial h
  | event kind =>
      simp only [SafeCacheStep, Classical.not_imp, not_or] at h
      obtain ⟨htriggers, hfull, hqueued, htriggered, hholds, hrefresh, hstale⟩ := h
      have hroom : ¬ s.queue.length < channelCapacity := by omega
      simp only [CacheState.step, if_neg hroom, htriggers, Bool.or_true]
      intro hcovered
      rcases hcovered with (hann | hqueued' | htriggered') | hholds' | hrefresh' | hfresh
      · cases hann
      · exact hqueued hqueued'
      · exact htriggered htriggered'
      · exact hholds hholds'
      · exact hrefresh hrefresh'
      · exact hstale hfresh
  | renewalStore =>
      simp only [SafeCacheStep, Classical.not_forall, not_or] at h
      obtain ⟨raw, hraw, hstale, hrenewing, hrefresh⟩ := h
      simp only [CacheState.step, hraw]
      intro hcovered
      rcases hcovered with (hann | hqueued | htriggered) | ⟨raw', hraw', -⟩ | hrefresh' | hfresh
      · exact hrenewing (Or.inl hann)
      · exact hrenewing (Or.inr (Or.inl hqueued))
      · cases htriggered
      · cases hraw'
      · exact hrefresh hrefresh'
      · exact hstale hfresh
  | refreshStore i =>
      simp only [SafeCacheStep, Classical.not_forall, not_or] at h
      obtain ⟨raw, hraw, hstale, hrenewing, hholds, hrefresh⟩ := h
      simp only [CacheState.step, hraw]
      intro hcovered
      rcases hcovered with hrenewing' | hholds' | hrefresh' | hfresh
      · exact hrenewing hrenewing'
      · exact hholds hholds'
      · exact hrefresh hrefresh'
      · exact hstale hfresh

/-- The steps that finish work that was begun.  The others begin some, or come from
outside. -/
def CacheStep.finishes : CacheStep → Bool
  | .receive | .renewalRead | .renewalStore | .refreshStore _ => true
  | .rotate _ | .event _ | .refreshRead => false

/-- How much work was begun and is not finished.  It is what the induction below goes by.
-/
def CacheState.pending (s : CacheState) : Nat :=
  s.queue.length + s.refreshes.length + if s.renewal = .waiting then 0 else 1

/-- Without cover, what the loop holds is old and its store is unsafe, as nothing would
replace what it stores. -/
theorem not_safe_renewalStore {s : CacheState} (h : ¬ s.Covered) {raw : String}
    (hrenewal : s.renewal = .holding raw) : ¬ SafeCacheStep s .renewalStore := by
  intro hsafe
  apply h
  rcases hsafe raw hrenewal with hcurrent | hrenewing | hrefresh
  · exact Or.inr (Or.inl ⟨raw, hrenewal, hcurrent⟩)
  · exact Or.inl hrenewing
  · exact Or.inr (Or.inr (Or.inl hrefresh))

/-- Without cover, what a refresh holds is old and its store is unsafe, as nothing would
replace what it stores. -/
theorem not_safe_refreshStore {s : CacheState} (h : ¬ s.Covered) {i : Nat} {raw : String}
    (hraw : s.refreshes[i]? = some raw) : ¬ SafeCacheStep s (.refreshStore i) := by
  intro hsafe
  apply h
  rcases hsafe raw hraw with hcurrent | hrenewing | hholds | ⟨raw', hraw', hcurrent⟩
  · exact Or.inr (Or.inr (Or.inl ⟨raw, List.mem_of_getElem? hraw, hcurrent⟩))
  · exact Or.inl hrenewing
  · exact Or.inr (Or.inl hholds)
  · exact Or.inr (Or.inr (Or.inl ⟨raw', List.mem_of_mem_eraseIdx hraw', hcurrent⟩))

/-- Without cover, no event in the channel reports a rotation, since such a report would
be cover. -/
theorem triggers_of_not_covered {s : CacheState} (h : ¬ s.Covered) {kind : EventKind}
    (hkind : kind ∈ s.queue) : kind.triggers = false := by
  by_contra htriggers
  exact h (Or.inl (Or.inr (Or.inl ⟨kind, hkind, by simpa using htriggers⟩)))

/-- Taking such an event brings no cover: the loop goes on waiting. -/
theorem not_covered_receive {s : CacheState} (h : ¬ s.Covered) {kind : EventKind}
    {queue : List EventKind} (hrenewal : s.renewal = .waiting) (hqueue : s.queue = kind :: queue) :
    ¬ (s.step .receive).2.Covered := by
  have hkind := triggers_of_not_covered h (hqueue ▸ List.mem_cons_self)
  simp only [CacheState.step, hrenewal, hqueue, hkind, Bool.false_eq_true, if_false]
  intro hcovered
  rcases hcovered with (hann | ⟨kind', hkind', htriggers⟩ | htriggered) | ⟨raw, hraw, -⟩ | hrest
  · exact h (Or.inl (Or.inl hann))
  · have hmem : kind' ∈ s.queue := hqueue ▸ List.mem_cons_of_mem _ hkind'
    rw [triggers_of_not_covered h hmem] at htriggers
    cases htriggers
  · cases htriggered
  · cases hraw
  · exact h (Or.inr (Or.inr hrest))

/-- Without cover, finishing some of the work leaves less of it and no cover.  Which step
it is depends on where the loop is and on what is queued. -/
theorem finish_some {s : CacheState} (h : ¬ s.Covered) (hpending : s.pending ≠ 0) :
    ∃ i : CacheStep, i.finishes = true ∧ (s.step i).2.pending < s.pending ∧
      ¬ (s.step i).2.Covered := by
  cases hrenewal : s.renewal with
  | triggered => exact absurd (Or.inl (Or.inr (Or.inr hrenewal))) h
  | holding raw =>
      refine ⟨.renewalStore, rfl, ?_, not_covered_after (not_safe_renewalStore h hrenewal)⟩
      simp [CacheState.step, CacheState.pending, hrenewal]
  | waiting =>
      cases hqueue : s.queue with
      | cons kind queue =>
          have hkind := triggers_of_not_covered h (hqueue ▸ List.mem_cons_self)
          refine ⟨.receive, rfl, ?_, not_covered_receive h hrenewal hqueue⟩
          simp [CacheState.step, CacheState.pending, hrenewal, hqueue, hkind]
      | nil =>
          cases hrefreshes : s.refreshes with
          | nil =>
              exact absurd (by simp [CacheState.pending, hrenewal, hqueue, hrefreshes]) hpending
          | cons raw refreshes =>
              have hfirst : s.refreshes[0]? = some raw := by rw [hrefreshes]; rfl
              refine ⟨.refreshStore 0, rfl, ?_,
                not_covered_after (not_safe_refreshStore h hfirst)⟩
              simp [CacheState.step, CacheState.pending, hrenewal, hqueue, hrefreshes]

/-- Without cover, finishing all work leaves the cache stale and at rest.  The induction
is on the amount of work. -/
theorem stale_at_rest {s : CacheState} (h : ¬ s.Covered) :
    ∃ work : List CacheStep, (∀ i ∈ work, i.finishes = true) ∧
      (Machine.after CacheState.step s work).AtRest ∧
      ¬ (Machine.after CacheState.step s work).Fresh := by
  obtain ⟨n, hn⟩ : ∃ n, s.pending = n := ⟨_, rfl⟩
  induction n using Nat.strong_induction_on generalizing s with
  | _ n ih =>
      by_cases hpending : s.pending = 0
      · refine ⟨[], by simp, ?_, ?_⟩
        · simp only [CacheState.pending, Nat.add_eq_zero_iff, List.length_eq_zero_iff,
            ite_eq_left_iff, Nat.one_ne_zero, imp_false, not_not] at hpending
          have hann : s.announced = true := by
            by_contra hne
            exact h (Or.inl (Or.inl (by simpa using hne)))
          exact ⟨hann, hpending.1.1, hpending.2, hpending.1.2⟩
        · intro hfresh
          exact h (Or.inr (Or.inr (Or.inr hfresh)))
      · obtain ⟨i, hi, hless, hnot⟩ := finish_some h hpending
        obtain ⟨work, hwork, hrest, hstale⟩ := ih _ (hn ▸ hless) hnot rfl
        exact ⟨i :: work, List.forall_mem_cons.mpr ⟨hi, hwork⟩, hrest, hstale⟩

/-- **Safe runs do not leave the cache stale.**  In a run whose steps are all safe,
the cache holds the token of the file in every state at rest.  No weaker condition
on the steps would do: after an unsafe step, finishing the work that was begun
leaves the cache stale and at rest. -/
theorem cache_fresh_in_safe_run (content : String) (run : List CacheStep)
    (hsafe : Machine.Along CacheState.step SafeCacheStep (CacheState.initial content) run) :
    (∀ pre post, run = pre ++ post →
      (Machine.after CacheState.step (CacheState.initial content) pre).AtRest →
      (Machine.after CacheState.step (CacheState.initial content) pre).Fresh) ∧
    ∀ i, ¬ SafeCacheStep (Machine.after CacheState.step (CacheState.initial content) run) i →
      ∃ work : List CacheStep, (∀ j ∈ work, j.finishes = true) ∧
        (Machine.after CacheState.step (CacheState.initial content) (run ++ i :: work)).AtRest ∧
        ¬ (Machine.after CacheState.step (CacheState.initial content) (run ++ i :: work)).Fresh := by
  constructor
  · intro pre post hrun hrest
    rw [hrun] at hsafe
    have hcovered := Machine.after_invariant_along (fun s i => @covered_step s i)
      (covered_initial content) (Machine.along_of_append hsafe)
    exact fresh_of_atRest hrest hcovered
  · intro i hunsafe
    obtain ⟨work, hwork, hrest, hstale⟩ := stale_at_rest (not_covered_after hunsafe)
    refine ⟨work, hwork, ?_⟩
    rw [Machine.after_append, Machine.after_cons]
    exact ⟨hrest, hstale⟩

/-- A rotation, renewed by the loop while a refresh runs. -/
def renewedTrace : List CacheStep :=
  [.rotate "new\n", .event .modify, .receive, .refreshRead, .renewalRead, .renewalStore,
    .refreshStore 0]

/-- In the sample run the loop renews the cache, and the refresh that ran beside it stores
the same token once more. -/
theorem cache_fresh_in_safe_run_renewed :
    (Machine.after CacheState.step (CacheState.initial "old") renewedTrace).AtRest ∧
      (Machine.after CacheState.step (CacheState.initial "old") renewedTrace).cache = "new" := by
  have hsafe : Machine.Along CacheState.step SafeCacheStep (CacheState.initial "old") renewedTrace := by
    refine ⟨trivial, ?_, trivial, trivial, trivial, ?_, ?_, trivial⟩
    · intro _ hfull
      exact absurd hfull (by decide)
    · intro raw hraw
      cases hraw
      exact Or.inl rfl
    · intro raw hraw
      cases hraw
      exact Or.inl rfl
  have hrest : (Machine.after CacheState.step (CacheState.initial "old") renewedTrace).AtRest :=
    ⟨rfl, rfl, rfl, rfl⟩
  have hfresh := (cache_fresh_in_safe_run "old" renewedTrace hsafe).1 renewedTrace []
    (List.append_nil _).symm hrest
  refine ⟨hrest, hfresh.trans ?_⟩
  decide +kernel

/-- A refresh reads the file, the file is rotated and the loop renews the cache;
then the refresh stores what it read. -/
def overwriteTrace : List CacheStep :=
  [.refreshRead, .rotate "new", .event .modify, .receive, .renewalRead, .renewalStore,
    .refreshStore 0]

/-- A hundred accesses fill the channel, and the report of a rotation is dropped. -/
def droppedTrace : List CacheStep :=
  List.replicate 100 (.event .access) ++ [.rotate "new", .event .modify] ++
    List.replicate 100 .receive

/-- Both runs end at rest with the old token in the cache. -/
theorem cache_left_stale :
    ((Machine.after CacheState.step (CacheState.initial "old") overwriteTrace).AtRest ∧
      ¬ (Machine.after CacheState.step (CacheState.initial "old") overwriteTrace).Fresh) ∧
    (Machine.after CacheState.step (CacheState.initial "old") droppedTrace).AtRest ∧
      ¬ (Machine.after CacheState.step (CacheState.initial "old") droppedTrace).Fresh := by
  have hoverwritten : Machine.after CacheState.step (CacheState.initial "old") overwriteTrace =
      { CacheState.initial "old" with file := "new" } := by decide +kernel
  have hdropped : Machine.after CacheState.step (CacheState.initial "old") droppedTrace =
      { CacheState.initial "old" with file := "new" } := by decide +kernel
  have hstale : ({ CacheState.initial "old" with file := "new" } : CacheState).AtRest ∧
      ¬ ({ CacheState.initial "old" with file := "new" } : CacheState).Fresh := by
    refine ⟨⟨rfl, rfl, rfl, rfl⟩, ?_⟩
    unfold CacheState.Fresh
    decide +kernel
  rw [hoverwritten, hdropped]
  exact ⟨hstale, hstale⟩

end Jwtlet
