import Mathlib
import AtMarkup.Proofs.WholeReading

/-!
# Attempts

A client that follows no redirects makes one request in each attempt of a fetch, and the answer
alone tells what the attempt comes to. So a fetch is a run along the answers: it goes on behind a
failure, after a pause, and any other answer ends it.

* `Conversation.answerTo`: the answers by number, the last of which repeats.
* `verdict`: what an answer amounts to. An attempt takes one answer and comes to its verdict
  (`attempt_eq`).
* `IsRun`: a fetch that comes through `stop` failures and ends with the answer behind them. A
  failure in front keeps it (`IsRun.cons`), so that every fetch is one (`exists_isRun`), by
  induction on how many attempts are left.

A pause is a double, and its factor a power of two that has to be one as well. This is the only way
for a run to end while attempts are left and the answer is a failure (`Ends.endlessPause`).
-/

namespace AtMarkup.Http

/-! ## The answers by number -/

namespace Conversation

/-- The answer to the request number `i` from here on: the last one where the answers are used up,
and a failure without words where there are none. -/
def answerTo (c : Conversation) (i : Nat) : Answer :=
  c.answers.getD (min i (c.answers.length - 1)) (.failure "")

/-- The conversation `c` has gone on to `after` by one request, and these events were told. -/
structure Asked (c : Conversation) (request : Request) (told : List Event) (after : Conversation) :
    Prop where
  /-- The request is the last one. -/
  requests : after.requests = c.requests ++ [request]
  /-- There was no pause. -/
  pauses : after.pauses = c.pauses
  /-- The events come behind the earlier ones. -/
  events : after.events = c.events ++ told
  /-- The next answers are those behind the one that was given. -/
  answers : ∀ i, after.answerTo i = c.answerTo (i + 1)

theorem fst_request (c : Conversation) (request : Request) :
    (c.request request).1 = c.answerTo 0 := by
  unfold Conversation.request answerTo
  cases hanswers : c.answers with
  | nil => simp
  | cons next later => cases later <;> simp

theorem asked_request (c : Conversation) (request : Request) :
    c.Asked request [] (c.request request).2 := by
  unfold Conversation.request
  cases hanswers : c.answers with
  | nil => constructor <;> simp [answerTo, hanswers]
  | cons next later =>
    cases later with
    | nil => constructor <;> simp [answerTo, hanswers]
    | cons second later =>
      constructor
      · simp
      · simp
      · simp
      · intro i
        simp only [answerTo, hanswers, List.length_cons, Nat.add_sub_cancel]
        rw [Nat.succ_min_succ, List.getD_cons_succ]

/-- The only answer is given to every request. -/
theorem answerTo_of_answers_eq {c : Conversation} {only : Answer} (h : c.answers = [only])
    (i : Nat) : c.answerTo i = only := by
  simp [answerTo, h]

/-- Every answer is one of the answers to come, unless there are none. -/
theorem answerTo_mem_or (c : Conversation) (i : Nat) :
    c.answerTo i ∈ c.answers ∨ c.answerTo i = .failure "" := by
  unfold answerTo
  cases hanswers : c.answers with
  | nil => simp
  | cons next later =>
    left
    have hinside : min i ((next :: later).length - 1) < (next :: later).length := by
      simp only [List.length_cons]
      omega
    rw [List.getD_eq_getElem _ _ hinside]
    exact List.getElem_mem hinside

end Conversation

/-! ## What an answer amounts to -/

section

variable {library : Library} {limit : Int} {asked : String} {url : library.Url}

/-- Judging a response leaves the conversation as it is, but for the events. -/
theorem judge_eq (limit : Int) (asked : String) (url : library.Url) (response : Response)
    (c : Conversation) :
    judge library limit asked url response c =
      ((judge library limit asked url response default).1,
        { c with events := c.events ++ (judge library limit asked url response default).2.events })
      := by
  have hnothing : (default : Conversation).events = [] := rfl
  unfold judge
  split_ifs with habsent htransient
  · simp [hnothing]
  · simp [hnothing]
  · cases library.statusError url response with
    | some cause => simp [hnothing]
    | none =>
      simp only
      split_ifs <;> simp [Conversation.tell, hnothing]

/-- What an attempt comes to that gets an answer from `url` and follows no redirects, and what is
told of it. `asked` is the URL as the caller wrote it. -/
def verdict (limit : Int) (asked : String) (url : library.Url) : Answer → Logged Attempt
  | .failure message => pure (.failed message)
  | .response response =>
    match library.receive url response with
    | .failed message => pure (.failed message)
    | .refused error => pure (.refused error)
    | .stays | .leads _ =>
      ⟨(judge library limit asked url response default).1,
        (judge library limit asked url response default).2.events⟩

/-- **Step.** An attempt takes one answer and comes to its verdict. -/
theorem attempt_eq (limit : Int) (asked userAgent : String) (url : library.Url)
    (c : Conversation) :
    ∃ after, c.Asked ⟨library.text url, userAgent⟩
        (verdict limit asked url (c.answerTo 0)).events after ∧
      attempt library limit asked userAgent url none c =
        ((verdict limit asked url (c.answerTo 0)).value, after) := by
  have hasked := c.asked_request ⟨library.text url, userAgent⟩
  rw [← c.fst_request ⟨library.text url, userAgent⟩]
  unfold attempt
  cases hrequest : c.request ⟨library.text url, userAgent⟩ with
  | mk answer next =>
    rw [hrequest] at hasked
    cases answer with
    | failure message => exact ⟨next, hasked, rfl⟩
    | response response =>
      have hjudged : ∃ after, c.Asked ⟨library.text url, userAgent⟩
          (judge library limit asked url response default).2.events after ∧
          judge library limit asked url response next =
            ((judge library limit asked url response default).1, after) := by
        refine ⟨_, ?_, judge_eq limit asked url response next⟩
        obtain ⟨hrequests, hpauses, hevents, hanswers⟩ := hasked
        rw [List.append_nil] at hevents
        exact ⟨hrequests, hpauses, by rw [hevents], hanswers⟩
      simp only [verdict]
      cases library.receive url response with
      | failed message => exact ⟨next, hasked, rfl⟩
      | refused error => exact ⟨next, hasked, rfl⟩
      | stays => exact hjudged
      | leads target => exact hjudged

variable {response : Response} {c : Conversation}

/-- A success is judged by its body. -/
theorem judge_of_isSuccess (h : isSuccess response.status = true) :
    (judge library limit asked url response c).1 = .found (readBody limit response.chunks).1 := by
  have hrange := isSuccess_iff.mp h
  have hlasting : isTransient response.status = false := by
    rw [← Bool.not_eq_true, isTransient_iff]
    omega
  have hpresent : response.status ≠ 404 := by omega
  unfold judge
  simp [hpresent, hlasting, Library.statusError_of_success h]

/-- The status 404 tells that there is nothing at the URL. -/
theorem judge_of_absent (h : response.status = 404) :
    judge library limit asked url response c = (.missing, c) := by
  simp [judge, h]

/-- A status that says so is a failure that may pass. -/
theorem judge_of_isTransient (h : isTransient response.status = true) :
    judge library limit asked url response c =
      (.failed ("HTTP " ++ toString response.status ++ " from " ++ asked), c) := by
  have hstatus := isTransient_iff.mp h
  have hpresent : response.status ≠ 404 := by omega
  simp [judge, hpresent, h]

/-- Any other status is a failure too, and nothing is told of it. -/
theorem exists_judge_of_failure (hfailure : isSuccess response.status = false)
    (hpresent : response.status ≠ 404) :
    ∃ cause, judge library limit asked url response c = (.failed cause, c) := by
  cases htransient : isTransient response.status with
  | true => exact ⟨_, judge_of_isTransient htransient⟩
  | false =>
    obtain ⟨cause, hcause⟩ := Library.exists_statusError url hfailure
    refine ⟨cause, ?_⟩
    unfold judge
    simp [hpresent, htransient, hcause]

/-- A response that is the answer is judged by its status. -/
theorem verdict_of_stays (h : library.receive url response = .stays) :
    verdict limit asked url (.response response) =
      ⟨(judge library limit asked url response default).1,
        (judge library limit asked url response default).2.events⟩ := by
  simp only [verdict, h]

/-- Nothing is told of a failure. -/
theorem events_verdict_of_failed {answer : Answer} {cause : String}
    (h : (verdict limit asked url answer).value = .failed cause) :
    (verdict limit asked url answer).events = [] := by
  have hjudged (response : Response)
      (hfailed : (judge library limit asked url response default).1 = .failed cause) :
      (judge library limit asked url response default).2.events = [] := by
    cases hsuccess : isSuccess response.status with
    | true =>
      rw [judge_of_isSuccess hsuccess] at hfailed
      cases hfailed
    | false =>
      by_cases habsent : response.status = 404
      · rw [judge_of_absent habsent]
        rfl
      · obtain ⟨cause, hcause⟩ := exists_judge_of_failure hsuccess habsent
        rw [hcause]
        rfl
  cases answer with
  | failure message => rfl
  | response response =>
    unfold verdict at h ⊢
    simp only at h ⊢
    split at h
    · rfl
    · rfl
    · exact hjudged response h
    · exact hjudged response h

end

/-! ## Runs -/

/-- The words of a failure. -/
def Attempt.words : Attempt → String
  | .failed cause => cause
  | _ => ""

/-- What a fetch of `url` gives whose last attempt, behind `made` others and before `left` more,
ends with this. -/
inductive Ends (url : String) (missing : SourceError) (made left : Nat) :
    Attempt → Except FetchError Bytes → Prop where
  /-- A body is what was asked for. -/
  | found (body : Bytes) : Ends url missing made left (.found body) (.ok body)
  /-- Nothing at the URL is the error that was asked for. -/
  | missing : Ends url missing made left .missing (.error (.source missing))
  /-- A URL that cannot be asked for is an error of its own. -/
  | refused (error : UrlError) : Ends url missing made left (.refused error) (.error (.url error))
  /-- With a failure of the last attempt the fetch is given up. -/
  | gaveUp (cause : String) (hlast : left = 0) :
    Ends url missing made left (.failed cause) (.error (.source (.gaveUp url (some cause))))
  /-- Behind too many attempts there is no further pause. -/
  | endlessPause (cause : String) (hmore : left ≠ 0) (hmade : doublingLimit < made) :
    Ends url missing made left (.failed cause) (.error .endlessPause)

section

variable {url : String} {missing : SourceError} {made left : Nat}
  {outcome : Except FetchError Bytes}

theorem Ends.eq_of_found {body : Bytes} (h : Ends url missing made left (.found body) outcome) :
    outcome = .ok body := by
  cases h
  rfl

theorem Ends.eq_of_missing (h : Ends url missing made left .missing outcome) :
    outcome = .error (.source missing) := by
  cases h
  rfl

theorem Ends.cases_of_failed {cause : String}
    (h : Ends url missing made left (.failed cause) outcome) :
    (left = 0 ∧ outcome = .error (.source (.gaveUp url (some cause)))) ∨
      (left ≠ 0 ∧ doublingLimit < made ∧ outcome = .error .endlessPause) := by
  cases h with
  | gaveUp cause hlast => exact .inl ⟨hlast, rfl⟩
  | endlessPause cause hmore hmade => exact .inr ⟨hmore, hmade, rfl⟩

end

/-- A fetch that follows no redirects comes from `c` through `stop` failures, with a pause behind
each, and ends with the answer behind them; `made` attempts came before, and `left` may follow the
first one. -/
structure IsRun {library : Library} (policy : Policy) (url userAgent : String)
    (target : library.Url) (missing : SourceError) (made left : Nat) (c : Conversation) (stop : Nat)
    (done : Except FetchError Bytes × Conversation) : Prop where
  /-- There are attempts enough. -/
  le_left : stop ≤ left
  /-- Each answer before the last one is a failure, and the pause behind it has a length. -/
  failures : ∀ i < stop, made + i ≤ doublingLimit ∧
    (verdict policy.limit url target (c.answerTo i)).value =
      .failed (verdict policy.limit url target (c.answerTo i)).value.words
  /-- There is a request for each answer. -/
  requests : done.2.requests =
    c.requests ++ List.replicate (stop + 1) ⟨library.text target, userAgent⟩
  /-- There is a pause for each answer but the last one. -/
  pauses : done.2.pauses = c.pauses ++ (List.range stop).map fun i => policy.pauseAfter (made + i)
  /-- Each pause is told with the failure that it follows. -/
  events : done.2.events = c.events ++
    ((List.range stop).map fun i => .retrying url (policy.pauseAfter (made + i))
      (verdict policy.limit url target (c.answerTo i)).value.words) ++
    (verdict policy.limit url target (c.answerTo stop)).events
  /-- The last answer settles what comes of it. -/
  ends : Ends url missing (made + stop) (left - stop)
    (verdict policy.limit url target (c.answerTo stop)).value done.1

section

variable {library : Library} {policy : Policy} {url userAgent : String} {target : library.Url}
  {missing : SourceError} {made left : Nat} {c after : Conversation} {stop : Nat}
  {done : Except FetchError Bytes × Conversation}

/-- A run makes one request more than it has failures behind it. -/
theorem IsRun.length_requests
    (h : IsRun policy url userAgent target missing made left c stop done) :
    done.2.requests.length = c.requests.length + (stop + 1) := by
  rw [h.requests, List.length_append, List.length_replicate]

/-- A run makes a pause for each failure behind it. -/
theorem IsRun.length_pauses
    (h : IsRun policy url userAgent target missing made left c stop done) :
    done.2.pauses.length = c.pauses.length + stop := by
  rw [h.pauses, List.length_append, List.length_map, List.length_range]

/-- A run that ends with the first answer. -/
theorem isRun_of_ends
    (hasked : c.Asked ⟨library.text target, userAgent⟩
      (verdict policy.limit url target (c.answerTo 0)).events after)
    {outcome : Except FetchError Bytes}
    (hends : Ends url missing made left (verdict policy.limit url target (c.answerTo 0)).value
      outcome) :
    IsRun policy url userAgent target missing made left c 0 (outcome, after) where
  le_left := Nat.zero_le left
  failures := by
    intro i hi
    omega
  requests := hasked.requests
  pauses := by simpa using hasked.pauses
  events := by simpa using hasked.events
  ends := hends

/-- A failure, the pause behind it, and then a run. -/
theorem IsRun.cons {cause : String} (hmade : made ≤ doublingLimit)
    (hasked : c.Asked ⟨library.text target, userAgent⟩ [] after)
    (hfailed : (verdict policy.limit url target (c.answerTo 0)).value = .failed cause)
    (h : IsRun policy url userAgent target missing (made + 1) left
      ((after.tell (.retrying url (policy.pauseAfter made) cause)).pause (policy.pauseAfter made))
      stop done) :
    IsRun policy url userAgent target missing made (left + 1) c (stop + 1) done := by
  obtain ⟨hleft, hfailures, hrequests, hpauses, hevents, hends⟩ := h
  have hanswers (i : Nat) : ((after.tell (.retrying url (policy.pauseAfter made) cause)).pause
      (policy.pauseAfter made)).answerTo i = c.answerTo (i + 1) := hasked.answers i
  have hshift (i : Nat) : made + 1 + i = made + (i + 1) := by omega
  simp only [hanswers, hshift] at hfailures hpauses hevents hends
  constructor
  · omega
  · intro i hi
    cases i with
    | zero => exact ⟨hmade, by rw [hfailed, Attempt.words]⟩
    | succ i => exact hfailures i (by omega)
  · rw [hrequests, Conversation.pause, Conversation.tell, hasked.requests, List.append_assoc,
      List.singleton_append, ← List.replicate_succ]
  · rw [hpauses, Conversation.pause, Conversation.tell, hasked.pauses, List.range_succ_eq_map]
    simp [Function.comp_def]
  · rw [hevents, Conversation.pause, Conversation.tell, hasked.events, List.range_succ_eq_map]
    simp [Function.comp_def, hfailed, Attempt.words]
  · rwa [Nat.add_sub_add_right]

/-- **Inversion.** Behind an attempt the fetch ends, or the attempt was a failure, and there is a
pause and then another one. -/
theorem attempts_cases (client : Client) (missing : SourceError) (made left : Nat)
    (last : Option String) {ended : Attempt}
    (hattempt : attempt library policy.limit url client.userAgent target client.redirects c =
      (ended, after)) :
    (∃ outcome, Ends url missing made left ended outcome ∧
      attempts library policy client url target missing made last (left + 1) c = (outcome, after)) ∨
    ∃ cause further, ended = .failed cause ∧ left = further + 1 ∧ made ≤ doublingLimit ∧
      attempts library policy client url target missing made last (left + 1) c =
        attempts library policy client url target missing (made + 1) (some cause) (further + 1)
          ((after.tell (.retrying url (policy.pauseAfter made) cause)).pause
            (policy.pauseAfter made)) := by
  rw [attempts, hattempt]
  cases ended with
  | found body => exact .inl ⟨_, .found body, rfl⟩
  | missing => exact .inl ⟨_, .missing, rfl⟩
  | refused error => exact .inl ⟨_, .refused error, rfl⟩
  | failed cause =>
    cases left with
    | zero => exact .inl ⟨_, .gaveUp cause rfl, rfl⟩
    | succ further =>
      simp only [Nat.add_eq_zero_iff, one_ne_zero, and_false, if_false]
      split_ifs with hmade
      · exact .inl ⟨_, .endlessPause cause (by omega) hmade, rfl⟩
      · exact .inr ⟨cause, further, rfl, rfl, by omega, rfl⟩

/-- **Run.** Every fetch that follows no redirects is a run, whatever is answered. -/
theorem exists_isRun (last : Option String) :
    ∃ stop, IsRun policy url userAgent target missing made left c stop
      (attempts library policy ⟨userAgent, none⟩ url target missing made last (left + 1) c) := by
  induction left using Nat.strong_induction_on generalizing made last c with
  | _ left ih =>
    obtain ⟨after, hasked, hattempt⟩ := attempt_eq policy.limit url userAgent target c
    rcases attempts_cases ⟨userAgent, none⟩ missing made left last hattempt with
      ⟨outcome, hends, hdone⟩ | ⟨cause, further, hfailed, rfl, hmade, hdone⟩
    · rw [hdone]
      exact ⟨0, isRun_of_ends hasked hends⟩
    · rw [hdone]
      obtain ⟨stop, hrun⟩ := ih further (Nat.lt_succ_self further) (some cause)
      rw [events_verdict_of_failed hfailed] at hasked
      exact ⟨stop + 1, hrun.cons hmade hasked hfailed⟩

/-- A fetch that may make an attempt and is for a URL that can be asked for is a run from the
start. -/
theorem exists_isRun_fetch (hretries : 0 ≤ policy.retries) (htakes : library.Takes url target)
    (userAgent : String) (missing : SourceError) (c : Conversation) :
    ∃ stop, IsRun policy url userAgent target missing 0 policy.retries.toNat c stop
      (fetch library policy ⟨userAgent, none⟩ url missing c) := by
  have hcount : (policy.retries + 1).toNat = policy.retries.toNat + 1 := by omega
  have hfetch : fetch library policy ⟨userAgent, none⟩ url missing c =
      attempts library policy ⟨userAgent, none⟩ url target missing 0 none (policy.retries.toNat + 1)
        c := by
    unfold fetch
    rw [hcount, htakes.read]
    rfl
  rw [hfetch]
  exact exists_isRun none

/-- A fetch that may make no attempt makes none. -/
theorem fetch_of_retries_neg (hretries : policy.retries < 0) (client : Client) (url : String)
    (missing : SourceError) (c : Conversation) :
    fetch library policy client url missing c = (.error (.source (.gaveUp url none)), c) := by
  have hcount : (policy.retries + 1).toNat = 0 := by omega
  unfold fetch
  rw [hcount]
  rfl

end

end AtMarkup.Http
