import Jwtlet.K8sTokenReview
import Jwtlet.MachineRuns

/-!
# Verifications that overlap

`verify_token` of `jwtlet-core/src/k8s/mod.rs` awaits: the lock of the cached token, the
answer to each review, the token file.  At each of these points other verifications by
the same verifier, the renewal loop and the kubelet may take their turn.

Still, whatever the interleaving, each verification ends as the sequential
`verifyToken` ends, with a bearer that the token file held by the time it began, and
with the file as it was at one moment between its 401 and its end
(`verification_interleaved`).  So what is known of one verification on its own is known
of each of them.
-/

namespace Jwtlet

open Rust Machine

/-- What a verification was called with, and the token that it has taken from the cache at
its beginning. -/
structure ReviewCall where
  audience : String
  token : String
  bearer : String

/-- Where a verification is.  Each phase is a place where the code awaits, so other tasks
may run before the next one. -/
inductive ReviewPhase where
  | idle
  /-- The first review is sent. -/
  | asking (call : ReviewCall)
  /-- It was answered 401. -/
  | refused (call : ReviewCall) (answer : ReviewAnswer)
  /-- The file was read, and its content is to be stored. -/
  | holding (call : ReviewCall) (answer : ReviewAnswer) (raw : String)
  /-- The second review is sent. -/
  | retrying (call : ReviewCall) (answer : ReviewAnswer) (raw : String)
  | done (result : Except JwtVerificationError TokenClaims)
      (exchanges : List (SentReview × ReviewAnswer))

/-- The token file, the cached token, what the renewal loop has read and not stored, and
the verifications, any number of which may be in progress. -/
structure ReviewState where
  file : Except String String
  cache : String
  renewal : Option String
  phase : Nat → ReviewPhase

/-- What can happen next: the file is replaced, the renewal loop does one half of its
work, or a verification goes on by one phase. -/
inductive ReviewStep where
  /-- The file is replaced, or cannot be read any more. -/
  | rotate (file : Except String String)
  | renewalRead
  | renewalStore
  /-- A verification takes the cached token and sends its first review. -/
  | start (id : Nat) (audience token : String)
  /-- The API server answers the review that was sent last. -/
  | answered (id : Nat) (answer : ReviewAnswer)
  | refreshRead (id : Nat)
  /-- The refreshed token is stored, and the second review sent. -/
  | refreshStore (id : Nat)

/-- After `initialize`: the content of the file is cached, and no verification has begun.
-/
def ReviewState.initial (content : String) : ReviewState where
  file := .ok content
  cache := trim content
  renewal := none
  phase := fun _ => .idle

/-- Move one verification to another phase, and leave everything else as it is. -/
def ReviewState.move (s : ReviewState) (id : Nat) (phase : ReviewPhase) : ReviewState :=
  { s with phase := Function.update s.phase id phase }

@[simp] theorem ReviewState.move_phase_self (s : ReviewState) (id : Nat) (phase : ReviewPhase) :
    (s.move id phase).phase id = phase := Function.update_self _ _ _

/-- The other verifications stay where they are when one is moved. -/
theorem ReviewState.move_phase_of_ne {id id' : Nat} (h : id' ≠ id) (s : ReviewState)
    (phase : ReviewPhase) : (s.move id phase).phase id' = s.phase id' :=
  Function.update_of_ne h _ _

namespace K8sTokenReviewVerifier

variable (v : K8sTokenReviewVerifier)

/-- What follows the first answer: the verification is settled, or, after a 401, it goes
on to read its bearer anew. -/
def afterFirst (call : ReviewCall) (answer : ReviewAnswer) : ReviewPhase :=
  let first := v.tokenReview call.bearer call.audience call.token
  match v.readAnswer answer with
  | .ok review => .done (v.checkReview call.audience review) [(first, answer)]
  | .error (status, e) =>
      if status == .unauthorized then .refused call answer else .done (.error e) [(first, answer)]

/-- What follows the attempt to read the file: its content is to be stored and used, or
the verification ends with an error. -/
def afterRead (call : ReviewCall) (answer : ReviewAnswer) : Except String String → ReviewPhase
  | .error e => .done (.error (.verificationFailed
      ("Failed to re-read SA token file " ++ v.tokenFile ++ ": " ++ e)))
        [(v.tokenReview call.bearer call.audience call.token, answer)]
  | .ok raw => .holding call answer raw

/-- What follows the second answer: the verification is settled, whatever the answer. -/
def afterSecond (call : ReviewCall) (answer : ReviewAnswer) (raw : String)
    (answer' : ReviewAnswer) : ReviewPhase :=
  .done (((v.readAnswer answer').mapError Prod.snd).bind (v.checkReview call.audience))
    [(v.tokenReview call.bearer call.audience call.token, answer),
      (v.tokenReview (trim raw) call.audience call.token, answer')]

/-- One step; a step whose turn it is not does nothing.  The cache is written only by the
stores of the loop and of the refreshes. -/
def reviewStep (s : ReviewState) : ReviewStep → Unit × ReviewState
  | .rotate file => ((), { s with file })
  | .renewalRead =>
      match s.renewal, s.file with
      | none, .ok raw => ((), { s with renewal := some raw })
      | _, _ => ((), s)
  | .renewalStore =>
      match s.renewal with
      | some raw => ((), { s with cache := trim raw, renewal := none })
      | none => ((), s)
  | .start id audience token =>
      match s.phase id with
      | .idle => ((), s.move id (.asking { audience, token, bearer := s.cache }))
      | _ => ((), s)
  | .answered id answer =>
      match s.phase id with
      | .asking call => ((), s.move id (v.afterFirst call answer))
      | .retrying call answer' raw => ((), s.move id (v.afterSecond call answer' raw answer))
      | _ => ((), s)
  | .refreshRead id =>
      match s.phase id with
      | .refused call answer => ((), s.move id (v.afterRead call answer s.file))
      | _ => ((), s)
  | .refreshStore id =>
      match s.phase id with
      | .holding call answer raw =>
          ((), { s.move id (.retrying call answer raw) with cache := trim raw })
      | _ => ((), s)

/-- The state after some steps from the start, with the content that was cached then. -/
def reviewsAfter (content : String) (steps : List ReviewStep) : ReviewState :=
  after v.reviewStep (ReviewState.initial content) steps

end K8sTokenReviewVerifier

section Past

variable (v : K8sTokenReviewVerifier) (content : String)

/-- The token file held this content at some moment of the steps, the first moment and the
last one included. -/
def FileHeld (steps : List ReviewStep) (raw : String) : Prop :=
  ∃ before later, steps = before ++ later ∧ (v.reviewsAfter content before).file = .ok raw

/-- The verification began at some moment of the steps, with the token that was cached
then. -/
def Started (steps : List ReviewStep) (id : Nat) (call : ReviewCall) : Prop :=
  ∃ before later, steps = before ++ .start id call.audience call.token :: later ∧
    call.bearer = (v.reviewsAfter content before).cache

/-- The verification began, and after that its first review was answered 401. -/
def Refused (steps : List ReviewStep) (id : Nat) (call : ReviewCall) (answer : ReviewAnswer) :
    Prop :=
  answer.status = .unauthorized ∧ ∃ before later,
    steps = before ++ .answered id answer :: later ∧ Started v content before id call

/-- The first review of the verification was answered 401, and after that it read the
file, or tried to. -/
def Reread (steps : List ReviewStep) (id : Nat) (call : ReviewCall) (answer : ReviewAnswer)
    (file : Except String String) : Prop :=
  ∃ before later, steps = before ++ .refreshRead id :: later ∧
    Refused v content before id call answer ∧ file = (v.reviewsAfter content before).file

variable {v content} {steps : List ReviewStep} {id : Nat} {call : ReviewCall}
  {answer : ReviewAnswer}

/-- What the file held during some steps it held during more of them. -/
theorem FileHeld.append {raw : String} (h : FileHeld v content steps raw)
    (later : List ReviewStep) : FileHeld v content (steps ++ later) raw := by
  obtain ⟨before, rest, rfl, hfile⟩ := h
  exact ⟨before, rest ++ later, List.append_assoc _ _ _, hfile⟩

/-- A verification that began in some steps began in more of them. -/
theorem Started.append (h : Started v content steps id call) (later : List ReviewStep) :
    Started v content (steps ++ later) id call := by
  obtain ⟨before, rest, rfl, hbearer⟩ := h
  exact ⟨before, rest ++ later, by simp, hbearer⟩

/-- A verification that was refused in some steps was so in more of them. -/
theorem Refused.append (h : Refused v content steps id call answer) (later : List ReviewStep) :
    Refused v content (steps ++ later) id call answer := by
  obtain ⟨hstatus, before, rest, rfl, hstarted⟩ := h
  exact ⟨hstatus, before, rest ++ later, by simp, hstarted⟩

/-- A verification that read the file in some steps did so in more of them. -/
theorem Reread.append {file : Except String String} (h : Reread v content steps id call answer file)
    (later : List ReviewStep) : Reread v content (steps ++ later) id call answer file := by
  obtain ⟨before, rest, rfl, hrefused, hfile⟩ := h
  exact ⟨before, rest ++ later, by simp, hrefused, hfile⟩

theorem Refused.started (h : Refused v content steps id call answer) :
    Started v content steps id call := by
  obtain ⟨-, before, later, rfl, hstarted⟩ := h
  exact hstarted.append _

/-- The answer that refused a verification was given in the steps. -/
theorem Refused.answered (h : Refused v content steps id call answer) :
    .answered id answer ∈ steps := by
  obtain ⟨-, before, later, rfl, -⟩ := h
  exact List.mem_append_right _ List.mem_cons_self

theorem Reread.refused {file : Except String String} (h : Reread v content steps id call answer file) :
    Refused v content steps id call answer := by
  obtain ⟨before, later, rfl, hrefused, -⟩ := h
  exact hrefused.append _

/-- What a verification read from the file was held by the file, at the moment at which it
read it. -/
theorem Reread.held {raw : String} (h : Reread v content steps id call answer (.ok raw)) :
    FileHeld v content steps raw := by
  obtain ⟨before, later, rfl, -, hfile⟩ := h
  exact ⟨before, _, rfl, hfile.symm⟩

variable (v content) in
/-- A verification that has ended as the sequential one does, with a file and answers that
the steps account for. -/
def Finished (steps : List ReviewStep) (id : Nat) (result : Except JwtVerificationError TokenClaims)
    (exchanges : List (SentReview × ReviewAnswer)) : Prop :=
  ∃ call file server, Started v content steps id call ∧
    result = (v.verifyToken (some call.bearer) file server call.audience call.token).result ∧
    exchanges = (v.verifyToken (some call.bearer) file server call.audience call.token).exchanges ∧
    ((server 0 (v.tokenReview call.bearer call.audience call.token)).status = .unauthorized →
      Reread v content steps id call
        (server 0 (v.tokenReview call.bearer call.audience call.token)) file) ∧
    ∀ exchange ∈ exchanges, .answered id exchange.2 ∈ steps

variable (v content) in
/-- What the phase of a verification says about the steps before.  It is the invariant of
one verification. -/
def Explained (steps : List ReviewStep) (id : Nat) : ReviewPhase → Prop
  | .idle => True
  | .asking call => Started v content steps id call
  | .refused call answer => Refused v content steps id call answer
  | .holding call answer raw => Reread v content steps id call answer (.ok raw)
  | .retrying call answer raw => Reread v content steps id call answer (.ok raw)
  | .done result exchanges => Finished v content steps id result exchanges

/-- A verification that is accounted for by some steps is so by more of them. -/
theorem Finished.append {result : Except JwtVerificationError TokenClaims}
    {exchanges : List (SentReview × ReviewAnswer)} (h : Finished v content steps id result exchanges)
    (later : List ReviewStep) : Finished v content (steps ++ later) id result exchanges := by
  obtain ⟨call, file, server, hstarted, hresult, hexchanges, hreread, hanswered⟩ := h
  exact ⟨call, file, server, hstarted.append later, hresult, hexchanges,
    fun hstatus => (hreread hstatus).append later,
    fun exchange hexchange => List.mem_append_left _ (hanswered exchange hexchange)⟩

/-- The steps that come later do not change what the earlier ones account for. -/
theorem Explained.append {phase : ReviewPhase} (h : Explained v content steps id phase)
    (later : List ReviewStep) : Explained v content (steps ++ later) id phase := by
  cases phase with
  | idle => trivial
  | asking call => exact Started.append h later
  | refused call answer => exact Refused.append h later
  | holding call answer raw => exact Reread.append h later
  | retrying call answer raw => exact Reread.append h later
  | done result exchanges => exact Finished.append h later

/-- The first answer settles the verification, or it was 401 and the verification has been
refused. -/
theorem explained_afterFirst (h : Started v content steps id call) :
    Explained v content (steps ++ [.answered id answer]) id (v.afterFirst call answer) := by
  have hsettled : answer.status ≠ .unauthorized →
      Finished v content (steps ++ [.answered id answer]) id (v.settle call.audience answer)
        [(v.tokenReview call.bearer call.audience call.token, answer)] := by
    intro hstatus
    have hrun := @K8sTokenReviewVerifier.verifyToken_of_answered v call.bearer (.ok "")
      (fun _ _ => answer) call.audience call.token hstatus
    refine ⟨call, .ok "", fun _ _ => answer, h.append _, ?_, ?_, fun hrefused => ?_, ?_⟩
    · rw [hrun]
    · rw [hrun]
    · exact absurd hrefused hstatus
    · intro exchange hexchange
      cases List.mem_singleton.mp hexchange
      exact List.mem_append_right _ (List.mem_singleton.mpr rfl)
  unfold K8sTokenReviewVerifier.afterFirst
  cases hread : v.readAnswer answer with
  | ok review =>
      have hstatus : answer.status ≠ .unauthorized :=
        K8sTokenReviewVerifier.status_of_reviewed
          (K8sTokenReviewVerifier.readAnswer_eq_ok_iff.mp hread)
      have hfinished := hsettled hstatus
      rw [K8sTokenReviewVerifier.settle, hread] at hfinished
      exact hfinished
  | error e =>
      obtain ⟨status, e⟩ := e
      have hiff := K8sTokenReviewVerifier.readAnswer_error_unauthorized hread
      by_cases hstatus : status = .unauthorized
      · rw [hstatus]
        exact ⟨hiff.mp hstatus, steps, [], rfl, h⟩
      · have hfinished := hsettled fun hrefused => hstatus (hiff.mpr hrefused)
        rw [K8sTokenReviewVerifier.settle, hread] at hfinished
        simp only [beq_iff_eq, hstatus, if_false]
        exact hfinished

/-- The file is read at this moment, or the verification ends with the error that reading
it gave. -/
theorem explained_afterRead (h : Refused v content steps id call answer) :
    Explained v content (steps ++ [.refreshRead id]) id
      (v.afterRead call answer (v.reviewsAfter content steps).file) := by
  have hreread : Reread v content (steps ++ [.refreshRead id]) id call answer
      (v.reviewsAfter content steps).file := ⟨steps, [], rfl, h, rfl⟩
  cases hfile : (v.reviewsAfter content steps).file with
  | ok raw =>
      rw [hfile] at hreread
      exact hreread
  | error e =>
      rw [hfile] at hreread
      have hrun := @K8sTokenReviewVerifier.verifyToken_of_unauthorized v call.bearer (.error e)
        (fun _ _ => answer) call.audience call.token h.1
      refine ⟨call, .error e, fun _ _ => answer, hreread.refused.started, ?_, ?_,
        fun _ => hreread, ?_⟩
      · rw [hrun]
      · rw [hrun]
      · intro exchange hexchange
        cases List.mem_singleton.mp hexchange
        exact hreread.refused.answered

/-- The second answer settles the verification, which ends as the sequential one does with
these two answers. -/
theorem explained_afterSecond {raw : String}
    (h : Reread v content steps id call answer (.ok raw)) (answer' : ReviewAnswer) :
    Explained v content (steps ++ [.answered id answer']) id
      (v.afterSecond call answer raw answer') := by
  have hrun := @K8sTokenReviewVerifier.verifyToken_of_unauthorized v call.bearer (.ok raw)
    (fun n _ => if n = 0 then answer else answer') call.audience call.token h.refused.1
  refine ⟨call, .ok raw, fun n _ => if n = 0 then answer else answer',
    (h.refused.started).append _, ?_, ?_, fun _ => h.append _, ?_⟩
  · rw [hrun]
    rfl
  · rw [hrun]
    rfl
  · intro exchange hexchange
    rcases List.mem_cons.mp hexchange with rfl | hsecond
    · exact List.mem_append_left _ h.refused.answered
    · cases List.mem_singleton.mp hsecond
      exact List.mem_append_right _ (List.mem_singleton.mpr rfl)

variable (v content) in
/-- What holds after any steps: the cached token and what the renewal loop has read
were held by the file, and each verification is explained. -/
structure ReviewsTraced (steps : List ReviewStep) (s : ReviewState) : Prop where
  cache : ∃ raw, s.cache = trim raw ∧ FileHeld v content steps raw
  renewal : ∀ raw, s.renewal = some raw → FileHeld v content steps raw
  phase : ∀ id, Explained v content steps id (s.phase id)

/-- A step that moves one verification and is accounted for keeps the invariant. -/
theorem ReviewsTraced.move {s : ReviewState} (h : ReviewsTraced v content steps s)
    {i : ReviewStep} {phase : ReviewPhase} (hphase : Explained v content (steps ++ [i]) id phase) :
    ReviewsTraced v content (steps ++ [i]) (s.move id phase) where
  cache := by
    obtain ⟨raw, hcache, hheld⟩ := h.cache
    exact ⟨raw, hcache, hheld.append _⟩
  renewal := fun raw hrenewal => (h.renewal raw hrenewal).append _
  phase := by
    intro id'
    by_cases hid : id' = id
    · subst hid
      rw [ReviewState.move_phase_self]
      exact hphase
    · rw [ReviewState.move_phase_of_ne hid]
      exact (h.phase id').append _

theorem ReviewsTraced.append {s : ReviewState} (h : ReviewsTraced v content steps s)
    (i : ReviewStep) : ReviewsTraced v content (steps ++ [i]) s where
  cache := by
    obtain ⟨raw, hcache, hheld⟩ := h.cache
    exact ⟨raw, hcache, hheld.append _⟩
  renewal := fun raw hrenewal => (h.renewal raw hrenewal).append _
  phase := fun id => (h.phase id).append _

/-- Storing what was read from the file keeps the invariant, since the cache holds
something that the file held then. -/
theorem ReviewsTraced.store {s : ReviewState} (h : ReviewsTraced v content steps s) {raw : String}
    (hheld : FileHeld v content steps raw) :
    ReviewsTraced v content steps { s with cache := trim raw } where
  cache := ⟨raw, rfl, hheld⟩
  renewal := h.renewal
  phase := h.phase

/-- Every step keeps the invariant.  The cases are those of `reviewStep`, and in most of
them the step does nothing or moves one verification. -/
theorem reviewsTraced_step (h : ReviewsTraced v content steps (v.reviewsAfter content steps))
    (i : ReviewStep) :
    ReviewsTraced v content (steps ++ [i])
      (v.reviewStep (v.reviewsAfter content steps) i).2 := by
  have hsame := h.append i
  cases i with
  | rotate file => exact ⟨hsame.cache, hsame.renewal, hsame.phase⟩
  | renewalRead =>
      simp only [K8sTokenReviewVerifier.reviewStep]
      split
      · next raw hfile =>
        refine ⟨hsame.cache, ?_, hsame.phase⟩
        intro raw' hraw
        cases hraw
        exact ⟨steps, _, rfl, hfile⟩
      · exact hsame
  | renewalStore =>
      simp only [K8sTokenReviewVerifier.reviewStep]
      split
      · next raw hrenewal =>
        refine ⟨⟨raw, rfl, hsame.renewal raw hrenewal⟩, ?_, hsame.phase⟩
        intro raw' hraw
        cases hraw
      · exact hsame
  | start id audience token =>
      simp only [K8sTokenReviewVerifier.reviewStep]
      split
      · exact h.move ⟨steps, [], rfl, rfl⟩
      · exact hsame
  | answered id answer =>
      simp only [K8sTokenReviewVerifier.reviewStep]
      have hphase := h.phase id
      split
      · next call hasking =>
        rw [hasking] at hphase
        exact h.move (explained_afterFirst hphase)
      · next call answer' raw hretrying =>
        rw [hretrying] at hphase
        exact h.move (explained_afterSecond hphase answer)
      · exact hsame
  | refreshRead id =>
      simp only [K8sTokenReviewVerifier.reviewStep]
      have hphase := h.phase id
      split
      · next call answer hrefused =>
        rw [hrefused] at hphase
        exact h.move (explained_afterRead hphase)
      · exact hsame
  | refreshStore id =>
      simp only [K8sTokenReviewVerifier.reviewStep]
      have hphase := h.phase id
      split
      · next call answer raw hholding =>
        rw [hholding] at hphase
        have hreread : Reread v content (steps ++ [.refreshStore id]) id call answer (.ok raw) :=
          Reread.append hphase _
        have hmoved : ReviewsTraced v content (steps ++ [.refreshStore id])
            ((v.reviewsAfter content steps).move id (.retrying call answer raw)) :=
          h.move hreread
        exact hmoved.store hreread.held
      · exact hsame

theorem reviewsTraced_after (steps : List ReviewStep) :
    ReviewsTraced v content steps (v.reviewsAfter content steps) := by
  induction steps using List.reverseRecOn with
  | nil =>
      refine ⟨⟨content, rfl, [], [], rfl, rfl⟩, ?_, fun _ => trivial⟩
      intro raw hraw
      cases hraw
  | append_singleton steps i ih =>
      have hafter : v.reviewsAfter content (steps ++ [i]) =
          (v.reviewStep (v.reviewsAfter content steps) i).2 := after_append _ steps [i]
      rw [hafter]
      exact reviewsTraced_step ih i

end Past

/-- **Overlapping verifications.**  In every interleaving of verifications, renewals and
rotations, a verification that has ended did so as the sequential one does with some
answers of the API server: with the token that was cached when it began, which the file
held at that moment or earlier, and, if its first review was answered 401, with the file
as it was at one moment after that answer.  Each of its reviews was answered in the run,
and was handed to the HTTP client with a token that the file held at some moment; what
the client sends when it is redirected is its own matter. -/
theorem verification_interleaved (v : K8sTokenReviewVerifier) (content : String)
    (steps : List ReviewStep) (id : Nat) (result : Except JwtVerificationError TokenClaims)
    (exchanges : List (SentReview × ReviewAnswer))
    (h : (v.reviewsAfter content steps).phase id = .done result exchanges) :
    ∃ (call : ReviewCall) (file : Except String String) (server : Nat → SentReview → ReviewAnswer),
      (∃ before later raw, steps = before ++ .start id call.audience call.token :: later ∧
        call.bearer = (v.reviewsAfter content before).cache ∧
        FileHeld v content before raw ∧ call.bearer = trim raw) ∧
      result = (v.verifyToken (some call.bearer) file server call.audience call.token).result ∧
      exchanges = (v.verifyToken (some call.bearer) file server call.audience
        call.token).exchanges ∧
      ((server 0 (v.tokenReview call.bearer call.audience call.token)).status = .unauthorized →
        Reread v content steps id call
          (server 0 (v.tokenReview call.bearer call.audience call.token)) file) ∧
      ∀ exchange ∈ exchanges, .answered id exchange.2 ∈ steps ∧
        ∃ raw, FileHeld v content steps raw ∧
          exchange.1 = v.tokenReview (trim raw) call.audience call.token := by
  have hphase := (@reviewsTraced_after v content steps).phase id
  rw [h] at hphase
  obtain ⟨call, file, server, hstarted, hresult, hexchanges, hreread, hanswered⟩ := hphase
  obtain ⟨before, later, hsteps, hcache⟩ := hstarted
  obtain ⟨raw, htrim, hheld⟩ := (@reviewsTraced_after v content before).cache
  refine ⟨call, file, server, ⟨before, later, raw, hsteps, hcache, hheld, hcache.trans htrim⟩,
    hresult, hexchanges, hreread, ?_⟩
  have hfirst : ∃ raw, FileHeld v content steps raw ∧
      v.tokenReview call.bearer call.audience call.token =
        v.tokenReview (trim raw) call.audience call.token := by
    exact ⟨raw, hsteps ▸ hheld.append _, by rw [hcache, htrim]⟩
  intro exchange hexchange
  refine ⟨hanswered exchange hexchange, ?_⟩
  rw [hexchanges] at hexchange
  by_cases hstatus :
      (server 0 (v.tokenReview call.bearer call.audience call.token)).status = .unauthorized
  · have hread := hreread hstatus
    rw [K8sTokenReviewVerifier.verifyToken_of_unauthorized hstatus] at hexchange
    cases file with
    | error e =>
        cases List.mem_singleton.mp hexchange
        exact hfirst
    | ok raw =>
        rcases List.mem_cons.mp hexchange with rfl | hsecond
        · exact hfirst
        · cases List.mem_singleton.mp hsecond
          exact ⟨raw, hread.held, rfl⟩
  · rw [K8sTokenReviewVerifier.verifyToken_of_answered hstatus] at hexchange
    cases List.mem_singleton.mp hexchange
    exact hfirst

/-- Two verifications of a sample verifier meet a rotation: the first is refused with
the old token, and a renewal between its read and its store does not disturb it. -/
def rotatedSteps : List ReviewStep :=
  [.start 0 "jwtlet" "first", .rotate (.ok "new"), .start 1 "jwtlet" "second", .renewalRead,
    .answered 0 (.response .unauthorized none ""), .refreshRead 0, .renewalStore,
    .answered 1 (.transportError none "timeout"), .refreshStore 0,
    .answered 0 (.transportError none "timeout")]

/-- The first verification of the sample has read the file again. -/
theorem verification_interleaved_rotated :
    ∃ (call : ReviewCall) (answer : ReviewAnswer) (file : Except String String),
      Reread sampleVerifier "old" rotatedSteps 0 call answer file := by
  obtain ⟨call, file, server, -, -, hexchanges, hreread, -⟩ :=
    verification_interleaved sampleVerifier "old" rotatedSteps 0
      (.error (.verificationFailed "timeout"))
      [(sampleVerifier.tokenReview (trim "old") "jwtlet" "first",
          .response .unauthorized none ""),
        (sampleVerifier.tokenReview (trim "new") "jwtlet" "first",
          .transportError none "timeout")] rfl
  refine ⟨call, _, file, hreread ?_⟩
  by_contra hstatus
  rw [K8sTokenReviewVerifier.verifyToken_of_answered hstatus] at hexchanges
  cases congrArg List.length hexchanges

end Jwtlet
