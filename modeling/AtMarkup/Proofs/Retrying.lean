import Mathlib
import AtMarkup.Proofs.Attempts

/-!
# Retrying

Which answers end a fetch, and which are followed by another request. The client follows no
redirects, so that each answer ends an attempt.

* `retries_exact`: where every answer settles the fetch or is a failure that may pass, the requests,
  the pauses and the outcome follow from the number of the first answer that settles it.
* `asked_again_iff`: for any answers, another request is made behind a failure of whatever kind, as
  long as attempts are left and the next pause has a length.

Two limits show. A failure that cannot pass, such as a refusal, is retried like any other
(`asked_again_after_refusal`). And a fetch that may be retried more often than a pause can be
doubled does not come to give up (`endless_pause_after_1025_failures`).
-/

namespace AtMarkup.Http

/-! ## Kinds of answers -/

/-- An answer that settles a fetch: a success, or the news that there is nothing at the URL. -/
def Answer.IsFinal : Answer → Prop
  | .failure _ => False
  | .response given => isSuccess given.status = true ∨ given.status = 404

/-- A failure that may pass: no response, or one with a status that says so. -/
def Answer.MayPass : Answer → Prop
  | .failure _ => True
  | .response given => isTransient given.status = true

/-- What is told of a failure that may pass. -/
def Answer.cause (url : String) : Answer → String
  | .failure message => message
  | .response given => "HTTP " ++ toString given.status ++ " from " ++ url

/-- Any failure: no response, or one with a status that is neither a success nor 404. A redirect to
a URL that cannot be asked for is none, since it ends the fetch with an error of its own. -/
def Answer.IsFailure {library : Library} (target : library.Url) : Answer → Prop
  | .failure _ => True
  | .response given => isSuccess given.status = false ∧ given.status ≠ 404 ∧
      ∀ error, library.receive target given ≠ .refused error

instance : DecidablePred Answer.IsFinal
  | .failure _ => inferInstanceAs (Decidable False)
  | .response given =>
    inferInstanceAs (Decidable (isSuccess given.status = true ∨ given.status = 404))

instance : DecidablePred Answer.MayPass
  | .failure _ => inferInstanceAs (Decidable True)
  | .response given => inferInstanceAs (Decidable (isTransient given.status = true))

section

variable {library : Library} {limit : Int} {url asked : String} {target : library.Url}
  {response : Response} {answer : Answer}

/-- The body of a success is found. -/
theorem value_verdict_of_success (htakes : library.Takes url target)
    (h : isSuccess response.status = true) :
    (verdict limit asked target (.response response)).value =
      .found (readBody limit response.chunks).1 := by
  have hrange := isSuccess_iff.mp h
  rw [verdict_of_stays (htakes.receive response (isRedirect_eq_false (by omega)))]
  exact judge_of_isSuccess h

/-- The status 404 tells that there is nothing at the URL. -/
theorem value_verdict_of_absent (htakes : library.Takes url target) (h : response.status = 404) :
    (verdict limit asked target (.response response)).value = .missing := by
  rw [verdict_of_stays (htakes.receive response (isRedirect_eq_false (by omega))),
    judge_of_absent h]

/-- A failure that may pass is a failure of the attempt. -/
theorem value_verdict_of_mayPass (htakes : library.Takes url target) (h : answer.MayPass) :
    (verdict limit asked target answer).value = .failed (answer.cause asked) := by
  cases answer with
  | failure message => rfl
  | response response =>
    have hpassing : isTransient response.status = true := h
    have hstatus := isTransient_iff.mp hpassing
    rw [verdict_of_stays (htakes.receive response (isRedirect_eq_false (by omega))),
      judge_of_isTransient hpassing]
    rfl

/-- An answer that settles a fetch is no failure of the attempt. -/
theorem value_verdict_ne_failed (htakes : library.Takes url target) (h : answer.IsFinal)
    (cause : String) : (verdict limit asked target answer).value ≠ .failed cause := by
  cases answer with
  | failure message => exact absurd h id
  | response response =>
    rcases h with hsuccess | habsent
    · rw [value_verdict_of_success htakes hsuccess]
      simp
    · rw [value_verdict_of_absent htakes habsent]
      simp

/-- A status is a failure that is neither a success nor 404 nor a redirect, as any other refusal. -/
theorem isFailure_of_refusal (htakes : library.Takes url target)
    (hfailure : isSuccess response.status = false) (habsent : response.status ≠ 404)
    (hstays : isRedirect response.status = false) :
    (Answer.response response).IsFailure target := by
  refine ⟨hfailure, habsent, ?_⟩
  intro error
  rw [htakes.receive response hstays]
  simp

/-- The attempts that fail are those whose answer is a failure. -/
theorem value_verdict_eq_failed_iff (htakes : library.Takes url target) :
    (∃ cause, (verdict limit asked target answer).value = .failed cause) ↔
      answer.IsFailure target := by
  cases answer with
  | failure message => exact ⟨fun _ => trivial, fun _ => ⟨message, rfl⟩⟩
  | response response =>
    by_cases hfinal : (Answer.response response).IsFinal
    · constructor
      · rintro ⟨cause, hfailed⟩
        exact absurd hfailed (value_verdict_ne_failed htakes hfinal cause)
      · rintro ⟨hfailure, hpresent, -⟩
        rcases hfinal with hsuccess | habsent
        · cases hfailure.symm.trans hsuccess
        · exact absurd habsent hpresent
    · have hfailure : isSuccess response.status = false := by
        rw [← Bool.not_eq_true]
        exact fun hsuccess => hfinal (.inl hsuccess)
      have hpresent : response.status ≠ 404 := fun habsent => hfinal (.inr habsent)
      obtain ⟨cause, hcause⟩ : ∃ cause, judge library limit asked target response default =
          (.failed cause, default) := exists_judge_of_failure hfailure hpresent
      simp only [verdict, Answer.IsFailure, hcause]
      cases library.receive target response with
      | stays => simp [hfailure, hpresent]
      | leads next => simp [hfailure, hpresent]
      | failed message => simp [hfailure, hpresent]
      | refused error => simp

end

/-! ## Where a run stops -/

section

variable {library : Library} {policy : Policy} {url userAgent : String} {target : library.Url}
  {missing : SourceError} {left : Nat} {c : Conversation} {stop : Nat}
  {done : Except FetchError Bytes × Conversation}

/-- A run stops at the latest when a pause has been doubled as often as it can be. -/
theorem IsRun.le_doublingLimit (h : IsRun policy url userAgent target missing 0 left c stop done) :
    stop ≤ doublingLimit + 1 := by
  by_contra hbeyond
  have := (h.failures (doublingLimit + 1) (by omega)).1
  omega

/-- A run that stops with a failure stops because the attempts are used up, or because there is no
further pause. -/
theorem IsRun.cases_of_failed (h : IsRun policy url userAgent target missing 0 left c stop done)
    {cause : String}
    (hfailed : (verdict policy.limit url target (c.answerTo stop)).value = .failed cause) :
    (stop = left ∧ done.1 = .error (.source (.gaveUp url (some cause)))) ∨
      (stop = doublingLimit + 1 ∧ stop < left ∧ done.1 = .error .endlessPause) := by
  have hlimit := h.le_doublingLimit
  have hleft := h.le_left
  have hends := h.ends
  rw [hfailed] at hends
  rcases hends.cases_of_failed with ⟨hlast, houtcome⟩ | ⟨hmore, hmade, houtcome⟩
  · exact .inl ⟨by omega, houtcome⟩
  · exact .inr ⟨by omega, by omega, houtcome⟩

/-- A run that stops with a failure, said of the answer. -/
theorem IsRun.cases_of_isFailure (htakes : library.Takes url target)
    (h : IsRun policy url userAgent target missing 0 left c stop done)
    (hfailure : (c.answerTo stop).IsFailure target) :
    (stop = left ∧ ∃ cause, done.1 = .error (.source (.gaveUp url (some cause)))) ∨
      (stop = doublingLimit + 1 ∧ stop < left ∧ done.1 = .error .endlessPause) := by
  obtain ⟨cause, hfailed⟩ := (value_verdict_eq_failed_iff htakes).mpr hfailure
  rcases h.cases_of_failed hfailed with ⟨hlast, houtcome⟩ | hendless
  · exact .inl ⟨hlast, cause, houtcome⟩
  · exact .inr hendless

/-- A run goes on behind an answer exactly if this and all answers before it are failures, attempts
are left, and the next pause has a length. -/
theorem IsRun.lt_stop_iff (htakes : library.Takes url target)
    (h : IsRun policy url userAgent target missing 0 left c stop done) (i : Nat) :
    i < stop ↔ i < left ∧ i ≤ doublingLimit ∧ ∀ j ≤ i, (c.answerTo j).IsFailure target := by
  have hleft := h.le_left
  constructor
  · intro hi
    refine ⟨by omega, ?_, ?_⟩
    · have := (h.failures i hi).1
      omega
    · intro j hj
      exact (value_verdict_eq_failed_iff htakes).mp ⟨_, (h.failures j (by omega)).2⟩
  · rintro ⟨hmore, hdoubled, hfailures⟩
    by_contra hstop
    rcases h.cases_of_isFailure htakes (hfailures stop (by omega)) with ⟨hlast, -⟩ | ⟨hlast, -⟩
    · omega
    · omega

/-- The answers before the last one of a run do not settle it. -/
theorem IsRun.not_isFinal (htakes : library.Takes url target)
    (h : IsRun policy url userAgent target missing 0 left c stop done) :
    ∀ i < stop, ¬ (c.answerTo i).IsFinal := by
  intro i hi hfinal
  exact value_verdict_ne_failed htakes hfinal _ (h.failures i hi).2

/-! ## Answers that settle a fetch or may pass -/

namespace Conversation

/-- Number `n` is the first answer that settles a fetch. -/
def FirstFinal (c : Conversation) (n : Nat) : Prop :=
  (c.answerTo n).IsFinal ∧ ∀ i < n, ¬ (c.answerTo i).IsFinal

/-- The conversation `c` has gone on to `after` with `count` pauses and one request more. The first
pause is as long as `backoff` says, each later one is twice as long as the one before, and each is
told with the failure that it follows. -/
structure Retried (c : Conversation) (url : String) (request : Request) (backoff : Float)
    (count : Nat) (after : Conversation) : Prop where
  /-- The requests are all alike. -/
  requests : after.requests = c.requests ++ List.replicate (count + 1) request
  /-- The pauses double. -/
  pauses : after.pauses =
    c.pauses ++ (List.range count).map fun i => backoff * Float.ofNat (2 ^ i)
  /-- A pause and its failure are told together. -/
  events : ∃ told, after.events = c.events ++
    ((List.range count).map fun i =>
      .retrying url (backoff * Float.ofNat (2 ^ i)) ((c.answerTo i).cause url)) ++ told

end Conversation

/-- A run through failures that may pass makes its requests and pauses. -/
theorem IsRun.retried (htakes : library.Takes url target)
    (h : IsRun policy url userAgent target missing 0 left c stop done)
    (hpassing : ∀ i < stop, (c.answerTo i).MayPass) :
    c.Retried url ⟨library.text target, userAgent⟩ policy.backoff stop done.2 where
  requests := h.requests
  pauses := by
    rw [h.pauses]
    simp [Policy.pauseAfter]
  events := by
    refine ⟨(verdict policy.limit url target (c.answerTo stop)).events, ?_⟩
    rw [h.events]
    congr 2
    apply List.map_congr_left
    intro i hi
    rw [value_verdict_of_mayPass htakes (hpassing i (List.mem_range.mp hi)), Nat.zero_add]
    rfl

/-- Where the answers settle a fetch or may pass, a run stops at the first that settles it, or
before that because it has used up the attempts or has no further pause. -/
theorem IsRun.firstFinal_or (htakes : library.Takes url target)
    (h : IsRun policy url userAgent target missing 0 left c stop done)
    (hkinds : ∀ i, (c.answerTo i).IsFinal ∨ (c.answerTo i).MayPass) :
    c.FirstFinal stop ∨ (∀ i ≤ stop, ¬ (c.answerTo i).IsFinal) ∧
      ((stop = left ∧
          done.1 = .error (.source (.gaveUp url (some ((c.answerTo stop).cause url))))) ∨
        (stop = doublingLimit + 1 ∧ stop < left ∧ done.1 = .error .endlessPause)) := by
  have hbefore := h.not_isFinal htakes
  by_cases hfinal : (c.answerTo stop).IsFinal
  · exact .inl ⟨hfinal, hbefore⟩
  · refine .inr ⟨?_, h.cases_of_failed
      (value_verdict_of_mayPass htakes ((hkinds stop).resolve_left hfinal))⟩
    intro i hi
    rcases Nat.lt_or_eq_of_le hi with hlt | rfl
    · exact hbefore i hlt
    · exact hfinal

/-- A run comes to the first answer that settles it, if there are attempts enough and the pauses
have a length. -/
theorem IsRun.stop_eq_of_firstFinal (htakes : library.Takes url target)
    (h : IsRun policy url userAgent target missing 0 left c stop done)
    (hkinds : ∀ i, (c.answerTo i).IsFinal ∨ (c.answerTo i).MayPass) {n : Nat}
    (hfirst : c.FirstFinal n) (hleft : n ≤ left) (hdoubled : n ≤ doublingLimit + 1) : stop = n := by
  obtain ⟨hfinal, hearlier⟩ := hfirst
  rcases h.firstFinal_or htakes hkinds with ⟨hsettled, hbefore⟩ | ⟨hnone, hends⟩
  · have hle : n ≤ stop := Nat.le_of_not_lt fun hlt => hearlier stop hlt hsettled
    have hge : stop ≤ n := Nat.le_of_not_lt fun hlt => hbefore n hlt hfinal
    omega
  · have hlt : stop < n := Nat.lt_of_not_le fun hle => hnone n hle hfinal
    omega

/-- A run that no answer settles uses up the attempts, if the pauses have a length. -/
theorem IsRun.gaveUp_of_not_isFinal (htakes : library.Takes url target)
    (h : IsRun policy url userAgent target missing 0 left c stop done)
    (hkinds : ∀ i, (c.answerTo i).IsFinal ∨ (c.answerTo i).MayPass)
    (hnone : ∀ i ≤ left, ¬ (c.answerTo i).IsFinal) (hdoubled : left ≤ doublingLimit + 1) :
    stop = left ∧
      done.1 = .error (.source (.gaveUp url (some ((c.answerTo left).cause url)))) := by
  rcases h.firstFinal_or htakes hkinds with
    ⟨hsettled, -⟩ | ⟨-, ⟨rfl, houtcome⟩ | ⟨hlast, hmore, -⟩⟩
  · exact absurd hsettled (hnone stop h.le_left)
  · exact ⟨rfl, houtcome⟩
  · omega

/-- A run that no answer settles in time ends for want of a pause, if there are attempts enough. -/
theorem IsRun.endlessPause_of_not_isFinal (htakes : library.Takes url target)
    (h : IsRun policy url userAgent target missing 0 left c stop done)
    (hkinds : ∀ i, (c.answerTo i).IsFinal ∨ (c.answerTo i).MayPass)
    (hnone : ∀ i ≤ doublingLimit + 1, ¬ (c.answerTo i).IsFinal) (hmore : doublingLimit + 1 < left) :
    stop = doublingLimit + 1 ∧ done.1 = .error .endlessPause := by
  have hlimit := h.le_doublingLimit
  rcases h.firstFinal_or htakes hkinds with
    ⟨hsettled, -⟩ | ⟨-, ⟨hused, -⟩ | ⟨hlast, -, houtcome⟩⟩
  · exact absurd hsettled (hnone stop hlimit)
  · omega
  · exact ⟨hlast, houtcome⟩

/-- A run that stops with a success gives its body up to the limit. -/
theorem IsRun.eq_of_success (htakes : library.Takes url target)
    (h : IsRun policy url userAgent target missing 0 left c stop done) {response : Response}
    (hanswer : c.answerTo stop = .response response) (hsuccess : isSuccess response.status = true) :
    done.1 = .ok (readBody policy.limit response.chunks).1 := by
  have hends := h.ends
  rw [hanswer, value_verdict_of_success htakes hsuccess] at hends
  exact hends.eq_of_found

/-- A run that stops with the status 404 gives the error that was asked for. -/
theorem IsRun.eq_of_absent (htakes : library.Takes url target)
    (h : IsRun policy url userAgent target missing 0 left c stop done) {response : Response}
    (hanswer : c.answerTo stop = .response response) (habsent : response.status = 404) :
    done.1 = .error (.source missing) := by
  have hends := h.ends
  rw [hanswer, value_verdict_of_absent htakes habsent] at hends
  exact hends.eq_of_missing

/-- A success at once is fetched, up to the limit. -/
theorem fetch_of_success (hretries : 0 ≤ policy.retries) (htakes : library.Takes url target)
    (userAgent : String) (missing : SourceError) (c : Conversation) {response : Response}
    (hanswer : c.answerTo 0 = .response response) (hsuccess : isSuccess response.status = true) :
    (fetch library policy ⟨userAgent, none⟩ url missing c).1 =
      .ok (readBody policy.limit response.chunks).1 := by
  obtain ⟨stop, hrun⟩ := exists_isRun_fetch hretries htakes userAgent missing c
  obtain rfl : stop = 0 := by
    by_contra hstop
    exact hrun.not_isFinal htakes 0 (Nat.pos_of_ne_zero hstop) (hanswer ▸ .inl hsuccess)
  exact hrun.eq_of_success htakes hanswer hsuccess

end

/-- **Main result.** Where every answer settles the fetch or is a failure that may pass, a fetch
ends as follows. Let `n` be the number of the first answer that settles it.

* If there are retries enough and the pauses have a length, the fetch makes the requests up to
  number `n` with a pause before each but the first, and gives the body of a success up to the
  limit, or for the status 404 the error that was asked for.
* If there are not, it makes as many retries as it may, and gives up with the last failure.
* If a pause would have to be doubled once too often before that, it ends with an error that neither
  of these allows for. -/
theorem retries_exact (retries limit : Nat) (backoff : Float) {library : Library} {url : String}
    {target : library.Url} (htakes : library.Takes url target) (userAgent : String)
    (onAbsence : Option (String → SourceError)) (wording : Option String) (c : Conversation)
    (hanswers : ∀ answer ∈ c.answers, answer.IsFinal ∨ answer.MayPass) :
    let missing := onAbsence.getD .noResource (absenceMessage url wording)
    let done := fetch library ⟨retries, backoff, limit⟩ ⟨userAgent, none⟩ url missing c
    (∀ n, c.FirstFinal n → n ≤ retries → n ≤ doublingLimit + 1 →
      c.Retried url ⟨library.text target, userAgent⟩ backoff n done.2 ∧
      ∀ response, c.answerTo n = .response response →
        (isSuccess response.status = true → done.1 = .ok (response.chunks.flatten.take limit)) ∧
        (response.status = 404 → done.1 = .error (.source missing))) ∧
    ((∀ i ≤ retries, ¬ (c.answerTo i).IsFinal) → retries ≤ doublingLimit + 1 →
      c.Retried url ⟨library.text target, userAgent⟩ backoff retries done.2 ∧
      done.1 = .error (.source (.gaveUp url (some ((c.answerTo retries).cause url))))) ∧
    ((∀ i ≤ doublingLimit + 1, ¬ (c.answerTo i).IsFinal) → doublingLimit + 1 < retries →
      c.Retried url ⟨library.text target, userAgent⟩ backoff (doublingLimit + 1) done.2 ∧
      done.1 = .error .endlessPause) := by
  intro missing done
  have hkinds (i : Nat) : (c.answerTo i).IsFinal ∨ (c.answerTo i).MayPass := by
    rcases c.answerTo_mem_or i with hmem | hnone
    · exact hanswers _ hmem
    · rw [hnone]
      exact .inr trivial
  obtain ⟨stop, hrun⟩ : ∃ stop, IsRun _ url userAgent target missing 0 _ c stop done :=
    exists_isRun_fetch (Int.natCast_nonneg retries) htakes userAgent missing c
  rw [Int.toNat_natCast] at hrun
  have hretried : c.Retried url ⟨library.text target, userAgent⟩ backoff stop done.2 :=
    hrun.retried htakes fun i hi => (hkinds i).resolve_left (hrun.not_isFinal htakes i hi)
  refine ⟨?_, ?_, ?_⟩
  · intro n hfirst hretries hdoubled
    obtain rfl := hrun.stop_eq_of_firstFinal htakes hkinds hfirst hretries hdoubled
    refine ⟨hretried, ?_⟩
    intro response hresponse
    refine ⟨fun hsuccess => ?_, hrun.eq_of_absent htakes hresponse⟩
    rw [hrun.eq_of_success htakes hresponse hsuccess, readBody_eq]
  · intro hnone hdoubled
    obtain ⟨rfl, houtcome⟩ := hrun.gaveUp_of_not_isFinal htakes hkinds hnone hdoubled
    exact ⟨hretried, houtcome⟩
  · intro hnone hmore
    obtain ⟨rfl, houtcome⟩ := hrun.endlessPause_of_not_isFinal htakes hkinds hnone hmore
    exact ⟨hretried, houtcome⟩

/-- A busy server and then three bytes in two pieces, two of which are within the limit: with one
retry they are found, and with none the fetch is given up. -/
theorem retries_exact_busy_once :
    let library := Library.literal
    let busy : Answer := .response ⟨503, none, []⟩
    let c : Conversation := { answers := [busy, .response ⟨200, none, [[1], [2, 3]]⟩] }
    let run (retries : Nat) :=
      fetch library ⟨retries, 0.5, (2 : Nat)⟩ ⟨"me", none⟩ "http://h/d" (.noResource "gone") c
    library.Takes "http://h/d" "http://h/d" ∧
      (∀ answer ∈ c.answers, answer.IsFinal ∨ answer.MayPass) ∧
      (c.FirstFinal 1 ∧ c.Retried "http://h/d" ⟨"http://h/d", "me"⟩ 0.5 1 (run 1).2 ∧
        (run 1).1 = .ok [1, 2]) ∧
      (¬ (c.answerTo 0).IsFinal ∧ c.Retried "http://h/d" ⟨"http://h/d", "me"⟩ 0.5 0 (run 0).2 ∧
        (run 0).1 = .error (.source (.gaveUp "http://h/d" "HTTP 503 from http://h/d"))) := by
  intro library busy c run
  have htakes := Library.takes_literal "http://h/d"
  have hanswers : ∀ answer ∈ c.answers, answer.IsFinal ∨ answer.MayPass := by decide
  have hbusy : ¬ (c.answerTo 0).IsFinal := by decide
  have hfirst : c.FirstFinal 1 := ⟨by decide, by decide⟩
  obtain ⟨hretried, houtcome⟩ :=
    (retries_exact 1 2 0.5 htakes "me" none "gone" c hanswers).1 1 hfirst (by decide)
      (by decide)
  obtain ⟨hgiven, hfailed⟩ :=
    (retries_exact 0 2 0.5 htakes "me" none "gone" c hanswers).2.1
      (fun i hi => Nat.le_zero.mp hi ▸ hbusy) (by decide)
  exact ⟨htakes, hanswers, ⟨hfirst, hretried, (houtcome _ rfl).1 (by decide)⟩, hbusy,
    hgiven, hfailed⟩

/-- With 1025 retries, a server that is always busy is asked 1025 times and not once more: the fetch
is not given up, but ends for want of a pause. -/
theorem endless_pause_after_1025_failures :
    let busy : Conversation := { answers := [.response ⟨503, none, []⟩] }
    let done :=
      fetch .literal ⟨1025, 0, 1048576⟩ ⟨"me", none⟩ "http://h/d" (.noResource "gone") busy
    (∀ i, (busy.answerTo i).MayPass ∧ ¬ (busy.answerTo i).IsFinal) ∧
      done.2.requests.length = 1025 ∧ done.2.pauses.length = 1024 ∧
      done.1 = .error .endlessPause := by
  intro busy done
  have htakes := Library.takes_literal "http://h/d"
  have hbusy (i : Nat) : (busy.answerTo i).MayPass ∧ ¬ (busy.answerTo i).IsFinal := by
    rw [Conversation.answerTo_of_answers_eq rfl i]
    decide
  have hretries : 0 ≤ (⟨1025, 0, 1048576⟩ : Policy).retries := by decide
  obtain ⟨stop, hrun⟩ := exists_isRun_fetch hretries htakes "me" (.noResource "gone") busy
  obtain ⟨rfl, houtcome⟩ := hrun.endlessPause_of_not_isFinal htakes
    (fun i => .inr (hbusy i).1) (fun i _ => (hbusy i).2) (by decide)
  exact ⟨hbusy, hrun.length_requests, hrun.length_pauses, houtcome⟩

/-! ## Any answers -/

/-- **Main result.** Whatever is answered, another request is made behind an answer exactly if this
and all answers before it are failures, a retry is left, and the next pause has a length. Between
two requests there is one pause. Where there is nothing but failures up to the last retry, the fetch
is given up. -/
theorem asked_again_iff (policy : Policy) {library : Library} {url : String}
    {target : library.Url} (htakes : library.Takes url target) (userAgent : String)
    (missing : SourceError) (c : Conversation) :
    let done := fetch library policy ⟨userAgent, none⟩ url missing c
    ∃ made, done.2.requests = c.requests ++ List.replicate made ⟨library.text target, userAgent⟩ ∧
      done.2.pauses.length = c.pauses.length + (made - 1) ∧
      (∀ i, i + 1 < made ↔ (i : Int) < policy.retries ∧ i ≤ doublingLimit ∧
        ∀ j ≤ i, (c.answerTo j).IsFailure target) ∧
      (policy.retries ≤ doublingLimit + 1 →
        (∀ j : Nat, (j : Int) ≤ policy.retries → (c.answerTo j).IsFailure target) →
        ∃ cause, done.1 = .error (.source (.gaveUp url cause))) := by
  intro done
  by_cases hretries : 0 ≤ policy.retries
  · obtain ⟨stop, hrun⟩ := exists_isRun_fetch hretries htakes userAgent missing c
    have hleft := hrun.le_left
    refine ⟨stop + 1, hrun.requests, hrun.length_pauses, ?_, ?_⟩
    · intro i
      rw [Nat.add_lt_add_iff_right, hrun.lt_stop_iff htakes, Int.lt_toNat]
    · intro hdoubled hfailures
      rcases hrun.cases_of_isFailure htakes (hfailures stop (by omega)) with
        ⟨-, cause, houtcome⟩ | ⟨hlast, hmore, -⟩
      · exact ⟨some cause, houtcome⟩
      · omega
  · have hnone : done = (.error (.source (.gaveUp url none)), c) :=
      fetch_of_retries_neg (not_le.mp hretries) ⟨userAgent, none⟩ url missing c
    refine ⟨0, ?_, ?_, ?_, ?_⟩
    · simp [hnone]
    · simp [hnone]
    · intro i
      simp only [Nat.not_lt_zero, false_iff]
      omega
    · intro _ _
      exact ⟨none, by simp only [hnone]⟩

/-- Two refusals, for one retry: the second request is made behind a refusal. -/
theorem asked_again_iff_refused_twice :
    let library := Library.literal
    let target : library.Url := "http://h/d"
    let c : Conversation := { answers := [.response ⟨403, none, []⟩] }
    let done := fetch library ⟨1, 0.5, 9⟩ ⟨"me", none⟩ "http://h/d" (.noResource "gone") c
    library.Takes "http://h/d" target ∧ (∀ i, (c.answerTo i).IsFailure target) ∧
      ∃ made, done.2.requests = List.replicate made ⟨"http://h/d", "me"⟩ ∧ 1 < made ∧ ¬ 2 < made ∧
        ∃ cause, done.1 = .error (.source (.gaveUp "http://h/d" cause)) := by
  intro library target c done
  have htakes : library.Takes "http://h/d" target := Library.takes_literal "http://h/d"
  have hrefused (i : Nat) : (c.answerTo i).IsFailure target := by
    rw [Conversation.answerTo_of_answers_eq rfl i]
    exact isFailure_of_refusal htakes rfl (by decide) rfl
  obtain ⟨made, hrequests, -, hagain, hgiven⟩ := asked_again_iff ⟨1, 0.5, 9⟩ htakes "me"
    (.noResource "gone") c
  refine ⟨htakes, hrefused, made, hrequests, ?_, ?_, ?_⟩
  · exact (hagain 0).mpr ⟨by decide, by decide, fun j _ => hrefused j⟩
  · intro hmore
    exact absurd ((hagain 1).mp hmore).1 (by decide)
  · exact hgiven (by decide) fun j _ => hrefused j

/-- A refusal is no failure that may pass, and with a retry left it is followed by another
request. -/
theorem asked_again_after_refusal :
    let c : Conversation := { answers := [.response ⟨403, none, []⟩] }
    let done := fetch .literal ⟨1, 0.5, 1048576⟩ ⟨"me", none⟩ "http://h/d" (.noResource "gone") c
    ¬ (c.answerTo 0).MayPass ∧ ¬ (c.answerTo 0).IsFinal ∧ done.2.requests.length = 2 ∧
      done.2.pauses.length = 1 := by
  intro c done
  let target : Library.literal.Url := "http://h/d"
  have htakes : Library.literal.Takes "http://h/d" target := Library.takes_literal "http://h/d"
  have hrefused (i : Nat) : (c.answerTo i).IsFailure target := by
    rw [Conversation.answerTo_of_answers_eq rfl i]
    exact isFailure_of_refusal htakes rfl (by decide) rfl
  have hretries : 0 ≤ (⟨1, 0.5, 1048576⟩ : Policy).retries := by decide
  obtain ⟨stop, hrun⟩ := exists_isRun_fetch hretries htakes "me" (.noResource "gone") c
  rcases hrun.cases_of_isFailure htakes (hrefused stop) with
    ⟨rfl, -⟩ | ⟨rfl, hmore, -⟩
  · exact ⟨by decide, by decide, hrun.length_requests, hrun.length_pauses⟩
  · exact absurd hmore (by decide)

end AtMarkup.Http
