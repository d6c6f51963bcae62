import Mathlib
import AtMarkup.Proofs.Retrying

/-!
# Redirects

A client that follows redirects makes several requests in one attempt. Which ones, and where the
attempt ends, follows from the answers alone.

* `Trail`: the way of an attempt, from URL to URL, and the answer at its end. `Trail.follow` finds
  it for given answers, and it is no longer than the client follows redirects
  (`length_urls_follow_le`). The attempt goes that way (`attempt_follow`).
* `Pursuit`: a fetch, attempt after attempt, and the trails of the attempts. It goes on behind a
  failure, after one pause, and any other outcome ends it. Every fetch is one (`exists_pursuit`), by
  induction on how many attempts are left; all else is by induction on the pursuit.

The attempts take their answers one behind the other from the same ones, and a trail takes as many
as it has URLs (`Pursuit.getElem_eq`).
-/

namespace AtMarkup.Http

/-! ## The way of an attempt -/

section

variable {library : Library}

/-- The URL that an answer from `url` sends the client on to, if it does. -/
def onward? (url : library.Url) : Answer → Option library.Url
  | .failure _ => none
  | .response response =>
    match library.receive url response with
    | .leads target => some target
    | _ => none

/-- The way of an attempt. -/
structure Trail (library : Library) where
  /-- The URLs that send the client on, in order. -/
  passed : List library.Url
  /-- The URL that it comes to in the end. -/
  last : library.Url
  /-- The answer from there. -/
  answer : Answer

namespace Trail

/-- All URLs of a trail. -/
def urls (trail : Trail library) : List library.Url :=
  trail.passed ++ [trail.last]

/-- The requests of a trail. -/
def requests (userAgent : String) (trail : Trail library) : List Request :=
  trail.urls.map fun url => ⟨library.text url, userAgent⟩

/-- The trail from a URL when these are the answers, for a client that may follow so many
redirects. -/
def follow : Nat → library.Url → (Nat → Answer) → Trail library
  | 0, url, answers => ⟨[], url, answers 0⟩
  | left + 1, url, answers =>
    match onward? url (answers 0) with
    | none => ⟨[], url, answers 0⟩
    | some target =>
      let further := follow left target fun i => answers (i + 1)
      { further with passed := url :: further.passed }

/-- What an attempt comes to that goes this way. A trail that would lead on at its end is a
failure. -/
def outcome (limit : Int) (asked : String) (trail : Trail library) : Attempt :=
  match onward? trail.last trail.answer with
  | some _ => .failed library.tooManyRedirects
  | none => (verdict limit asked trail.last trail.answer).value

variable {url target : library.Url} {answers : Nat → Answer} {left : Nat}

theorem follow_of_onward?_eq_none (h : onward? url (answers 0) = none) :
    follow left url answers = ⟨[], url, answers 0⟩ := by
  cases left with
  | zero => rfl
  | succ left =>
    unfold follow
    rw [h]

theorem follow_of_onward?_eq_some (h : onward? url (answers 0) = some target) :
    follow (left + 1) url answers =
      { follow left target (fun i => answers (i + 1)) with
        passed := url :: (follow left target fun i => answers (i + 1)).passed } := by
  rw [follow, h]

theorem length_requests (userAgent : String) (trail : Trail library) :
    (trail.requests userAgent).length = trail.urls.length := by
  rw [requests, List.length_map]

/-- A trail has at most one URL more than redirects that may be followed. -/
theorem length_urls_follow_le (left : Nat) (url : library.Url) (answers : Nat → Answer) :
    (follow left url answers).urls.length ≤ left + 1 := by
  induction left generalizing url answers with
  | zero => simp [follow, urls]
  | succ left ih =>
    cases honward : onward? url (answers 0) with
    | none => simp [follow_of_onward?_eq_none honward, urls]
    | some target =>
      have hfurther := ih target fun i => answers (i + 1)
      rw [follow_of_onward?_eq_some honward]
      simp only [urls, List.length_append, List.length_cons, List.length_nil] at hfurther ⊢
      omega

end Trail

end

/-! ## An attempt goes its way -/

namespace Conversation

/-- The conversation `c` has gone on to `after` by these requests, without a pause. -/
structure AskedAll (c : Conversation) (made : List Request) (after : Conversation) : Prop where
  /-- The requests come behind the earlier ones. -/
  requests : after.requests = c.requests ++ made
  /-- There was no pause. -/
  pauses : after.pauses = c.pauses
  /-- The next answers are those behind the ones that were given. -/
  answers : ∀ i, after.answerTo i = c.answerTo (made.length + i)

variable {c next after : Conversation} {request : Request} {made : List Request}
  {told : List Event}

/-- What a request gives is the next answer. -/
theorem asked_of_request_eq {answer : Answer} (h : c.request request = (answer, next)) :
    c.answerTo 0 = answer ∧ c.Asked request [] next := by
  have hanswer := c.fst_request request
  have hasked := c.asked_request request
  rw [h] at hanswer hasked
  exact ⟨hanswer.symm, hasked⟩

theorem Asked.askedAll (h : c.Asked request told after) : c.AskedAll [request] after where
  requests := h.requests
  pauses := h.pauses
  answers := fun i => by rw [h.answers, List.length_singleton, Nat.add_comm]

theorem AskedAll.cons (hfirst : c.Asked request told next) (h : next.AskedAll made after) :
    c.AskedAll (request :: made) after where
  requests := by rw [h.requests, hfirst.requests, List.append_assoc, List.singleton_append]
  pauses := h.pauses.trans hfirst.pauses
  answers := fun i => by rw [h.answers, hfirst.answers, List.length_cons, Nat.add_right_comm]

/-- What is told does not matter. -/
theorem AskedAll.withEvents (h : c.AskedAll made after) (events : List Event) :
    c.AskedAll made { after with events } :=
  ⟨h.requests, h.pauses, h.answers⟩

end Conversation

section

variable {library : Library}

namespace Trail

variable {url : library.Url} {answers : Nat → Answer} {limit : Int} {asked : String}

/-- A trail whose answer leads nowhere comes to the verdict on it. -/
theorem outcome_of_onward?_eq_none (trail : Trail library)
    (h : onward? trail.last trail.answer = none) :
    trail.outcome limit asked = (verdict limit asked trail.last trail.answer).value := by
  simp only [outcome, h]

theorem outcome_follow_of_onward?_eq_none (h : onward? url (answers 0) = none) (left : Nat) :
    (follow left url answers).outcome limit asked =
      (verdict limit asked url (answers 0)).value := by
  rw [follow_of_onward?_eq_none h]
  exact outcome_of_onward?_eq_none ⟨[], url, answers 0⟩ h

end Trail

/-- **Step.** An attempt makes the requests of its trail and comes to what the trail comes to. -/
theorem attempt_follow (limit : Int) (asked userAgent : String) (url : library.Url)
    (c : Conversation) (left : Nat) :
    ∃ after, c.AskedAll ((Trail.follow left url c.answerTo).requests userAgent) after ∧
      attempt library limit asked userAgent url (some left) c =
        ((Trail.follow left url c.answerTo).outcome limit asked, after) := by
  generalize hredirects : some left = redirects
  -- The request gives the first answer, and the trail turns on it as the attempt does.
  fun_induction attempt library limit asked userAgent url redirects c generalizing left with
  | case1 url redirects c message next hrequest =>
    obtain ⟨hanswer, hasked⟩ := Conversation.asked_of_request_eq hrequest
    have hends : onward? url (c.answerTo 0) = none := by rw [hanswer]; rfl
    rw [Trail.outcome_follow_of_onward?_eq_none hends, Trail.follow_of_onward?_eq_none hends,
      hanswer]
    exact ⟨next, hasked.askedAll, rfl⟩
  | case2 url redirects c response next hrequest message hreceive =>
    obtain ⟨hanswer, hasked⟩ := Conversation.asked_of_request_eq hrequest
    have hends : onward? url (c.answerTo 0) = none := by simp only [hanswer, onward?, hreceive]
    have hverdict : (verdict limit asked url (.response response)).value = .failed message := by
      simp only [verdict, hreceive]
      rfl
    rw [Trail.outcome_follow_of_onward?_eq_none hends, Trail.follow_of_onward?_eq_none hends,
      hanswer, hverdict]
    exact ⟨next, hasked.askedAll, rfl⟩
  | case3 url redirects c response next hrequest error hreceive =>
    obtain ⟨hanswer, hasked⟩ := Conversation.asked_of_request_eq hrequest
    have hends : onward? url (c.answerTo 0) = none := by simp only [hanswer, onward?, hreceive]
    have hverdict : (verdict limit asked url (.response response)).value = .refused error := by
      simp only [verdict, hreceive]
      rfl
    rw [Trail.outcome_follow_of_onward?_eq_none hends, Trail.follow_of_onward?_eq_none hends,
      hanswer, hverdict]
    exact ⟨next, hasked.askedAll, rfl⟩
  | case4 url c response next hrequest target hreceive => cases hredirects
  | case5 url redirects c response next hrequest hreceive =>
    obtain ⟨hanswer, hasked⟩ := Conversation.asked_of_request_eq hrequest
    have hends : onward? url (c.answerTo 0) = none := by simp only [hanswer, onward?, hreceive]
    have hverdict : (verdict limit asked url (.response response)).value =
        (judge library limit asked url response default).1 := by
      simp only [verdict, hreceive]
    rw [Trail.outcome_follow_of_onward?_eq_none hends, Trail.follow_of_onward?_eq_none hends,
      hanswer, hverdict]
    exact ⟨_, hasked.askedAll.withEvents _, judge_eq limit asked url response next⟩
  | case6 url c response next hrequest target hreceive =>
    obtain ⟨hanswer, hasked⟩ := Conversation.asked_of_request_eq hrequest
    obtain rfl : left = 0 := Option.some.inj hredirects
    have honward : onward? url (c.answerTo 0) = some target := by
      simp only [hanswer, onward?, hreceive]
    refine ⟨next, hasked.askedAll, ?_⟩
    simp only [Trail.follow, Trail.outcome, honward]
  | case7 url c response next hrequest further target hreceive ih =>
    obtain ⟨hanswer, hasked⟩ := Conversation.asked_of_request_eq hrequest
    obtain rfl : left = further + 1 := Option.some.inj hredirects
    have honward : onward? url (c.answerTo 0) = some target := by
      simp only [hanswer, onward?, hreceive]
    obtain ⟨after, hall, houtcome⟩ := ih further rfl
    rw [funext hasked.answers] at hall houtcome
    rw [Trail.follow_of_onward?_eq_some honward]
    exact ⟨after, hall.cons hasked, houtcome⟩

end

/-! ## Attempt after attempt -/

/-- A fetch of `url` that makes one attempt after the other from `c`, and the trails of the
attempts; `made` attempts came before, and `left` may follow the first one. -/
inductive Pursuit {library : Library} (policy : Policy) (redirects : Nat) (url userAgent : String)
    (target : library.Url) (missing : SourceError) : Nat → Nat → Conversation →
    List (Trail library) → Except FetchError Bytes × Conversation → Prop where
  /-- An attempt that ends the fetch. -/
  | last {made left : Nat} {c after : Conversation} {ended : Attempt}
      {outcome : Except FetchError Bytes}
      (hattempt : attempt library policy.limit url userAgent target (some redirects) c =
        (ended, after))
      (hends : Ends url missing made left ended outcome) :
      Pursuit policy redirects url userAgent target missing made left c
        [.follow redirects target c.answerTo] (outcome, after)
  /-- An attempt that fails, one pause, and the further attempts. -/
  | again {made left : Nat} {c after : Conversation} {cause : String}
      {trails : List (Trail library)}
      {done : Except FetchError Bytes × Conversation}
      (hattempt : attempt library policy.limit url userAgent target (some redirects) c =
        (.failed cause, after))
      (hmade : made ≤ doublingLimit)
      (hfurther : Pursuit policy redirects url userAgent target missing (made + 1) left
        ((after.tell (.retrying url (policy.pauseAfter made) cause)).pause (policy.pauseAfter made))
        trails done) :
      Pursuit policy redirects url userAgent target missing made (left + 1) c
        (.follow redirects target c.answerTo :: trails) done

section

variable {library : Library} {policy : Policy} {redirects : Nat} {url userAgent : String}
  {target : library.Url} {missing : SourceError} {made left : Nat} {c : Conversation}
  {trails : List (Trail library)} {done : Except FetchError Bytes × Conversation}

/-- **Run.** Every fetch is a pursuit, whatever is answered. -/
theorem exists_pursuit (last : Option String) :
    ∃ trails, Pursuit policy redirects url userAgent target missing made left c trails
      (attempts library policy ⟨userAgent, some redirects⟩ url target missing made last (left + 1)
        c) := by
  induction left using Nat.strong_induction_on generalizing made last c with
  | _ left ih =>
    cases hattempt : attempt library policy.limit url userAgent target (some redirects) c with
    | mk ended after =>
      rcases attempts_cases ⟨userAgent, some redirects⟩ missing made left last hattempt with
        ⟨outcome, hends, hdone⟩ | ⟨cause, further, rfl, rfl, hmade, hdone⟩
      · rw [hdone]
        exact ⟨_, .last hattempt hends⟩
      · rw [hdone]
        obtain ⟨trails, hfurther⟩ := ih further (Nat.lt_succ_self further) (some cause)
        exact ⟨_, .again hattempt hmade hfurther⟩

/-- A fetch that may make an attempt and is for a URL that can be read is a pursuit from the
start. -/
theorem exists_pursuit_fetch (hretries : 0 ≤ policy.retries)
    (hread : library.read url = .ok target) (redirects : Nat) (userAgent : String)
    (missing : SourceError) (c : Conversation) :
    ∃ trails, Pursuit policy redirects url userAgent target missing 0 policy.retries.toNat c trails
      (fetch library policy ⟨userAgent, some redirects⟩ url missing c) := by
  have hcount : (policy.retries + 1).toNat = policy.retries.toNat + 1 := by omega
  unfold fetch
  rw [hcount, hread]
  exact exists_pursuit none

/-- So is a fetch of a document. -/
theorem exists_pursuit_fetchDocument {settings : Settings} (hretries : 0 ≤ settings.fetchRetries)
    (hread : library.read url = .ok target) (given : Option Int) (c : Conversation) :
    ∃ trails, Pursuit (.ofSettings settings given) redirectLimit url settings.userAgent target
      (absentDocument url) 0 settings.fetchRetries.toNat c trails
      (fetchDocument library settings given url c) := by
  have hpolicy : 0 ≤ (Policy.ofSettings settings given).retries := hretries
  exact exists_pursuit_fetch hpolicy hread redirectLimit settings.userAgent (absentDocument url) c

/-- What an attempt does and comes to, once that is known, is what its trail says. -/
theorem askedAll_of_attempt_eq {after : Conversation} {ended : Attempt}
    (h : attempt library policy.limit url userAgent target (some redirects) c = (ended, after)) :
    c.AskedAll ((Trail.follow redirects target c.answerTo).requests userAgent) after ∧
      (Trail.follow redirects target c.answerTo).outcome policy.limit url = ended := by
  obtain ⟨next, hasked, hattempt⟩ :=
    attempt_follow policy.limit url userAgent target c redirects
  rw [h] at hattempt
  obtain ⟨rfl, rfl⟩ := Prod.mk.inj hattempt
  exact ⟨hasked, rfl⟩

namespace Pursuit

/-- The requests are those of the trails. -/
theorem requests_eq
    (h : Pursuit policy redirects url userAgent target missing made left c trails done) :
    done.2.requests = c.requests ++ trails.flatMap (Trail.requests userAgent) := by
  induction h with
  | last hattempt hends =>
    rw [List.flatMap_singleton]
    exact (askedAll_of_attempt_eq hattempt).1.requests
  | again hattempt hmade hfurther ih =>
    rw [ih, List.flatMap_cons, ← List.append_assoc, ← (askedAll_of_attempt_eq hattempt).1.requests]
    rfl

theorem ne_nil
    (h : Pursuit policy redirects url userAgent target missing made left c trails done) :
    trails ≠ [] := by
  cases h <;> exact List.cons_ne_nil _ _

/-- There is one pause between two attempts, and no other. -/
theorem pauses_eq
    (h : Pursuit policy redirects url userAgent target missing made left c trails done) :
    done.2.pauses = c.pauses ++
      (List.range (trails.length - 1)).map fun i => policy.pauseAfter (made + i) := by
  induction h with
  | last hattempt hends => simpa using (askedAll_of_attempt_eq hattempt).1.pauses
  | @again made left c after cause trails done hattempt hmade hfurther ih =>
    have hasked := (askedAll_of_attempt_eq hattempt).1
    have hlength : (Trail.follow redirects target c.answerTo :: trails).length - 1 =
        trails.length - 1 + 1 := by
      have hpos := List.length_pos_iff.mpr hfurther.ne_nil
      simp only [List.length_cons]
      omega
    have hshift (i : Nat) : made + 1 + i = made + (i + 1) := by omega
    rw [ih, Conversation.pause, Conversation.tell, hasked.pauses, hlength, List.range_succ_eq_map]
    simp [Function.comp_def, hshift]

/-- Each trail begins with the answer behind those of the trails before. -/
theorem getElem_eq
    (h : Pursuit policy redirects url userAgent target missing made left c trails done) (i : Nat)
    (hi : i < trails.length) :
    trails[i] = .follow redirects target fun j =>
      c.answerTo (((trails.take i).flatMap Trail.urls).length + j) := by
  induction h generalizing i with
  | last hattempt hends =>
    obtain rfl : i = 0 := by simpa using hi
    simp
  | @again made left c after cause trails done hattempt hmade hfurther ih =>
    cases i with
    | zero => simp
    | succ i =>
      have hasked := (askedAll_of_attempt_eq hattempt).1
      have hanswers (j : Nat) : ((after.tell (.retrying url (policy.pauseAfter made) cause)).pause
          (policy.pauseAfter made)).answerTo j =
            c.answerTo ((Trail.follow redirects target c.answerTo).urls.length + j) := by
        rw [← Trail.length_requests userAgent]
        exact hasked.answers j
      rw [List.getElem_cons_succ, ih i (by simpa using hi)]
      simp only [hanswers, List.take_succ_cons, List.flatMap_cons, List.length_append,
        Nat.add_assoc]

/-- No trail is longer than redirects may be followed. -/
theorem length_urls_le
    (h : Pursuit policy redirects url userAgent target missing made left c trails done)
    {trail : Trail library} (htrail : trail ∈ trails) : trail.urls.length ≤ redirects + 1 := by
  obtain ⟨i, hi, rfl⟩ := List.mem_iff_getElem.mp htrail
  rw [h.getElem_eq i hi]
  exact Trail.length_urls_follow_le redirects target _

/-- Each attempt makes at most one request more than redirects may be followed. -/
theorem length_requests_le
    (h : Pursuit policy redirects url userAgent target missing made left c trails done) :
    done.2.requests.length ≤ c.requests.length + trails.length * (redirects + 1) := by
  have hsum : (trails.map fun trail => (trail.requests userAgent).length).sum ≤
      (trails.map fun trail => (trail.requests userAgent).length).length • (redirects + 1) := by
    apply List.sum_le_card_nsmul
    intro count hcount
    obtain ⟨trail, htrail, rfl⟩ := List.mem_map.mp hcount
    rw [Trail.length_requests]
    exact h.length_urls_le htrail
  rw [List.length_map, smul_eq_mul] at hsum
  rw [h.requests_eq, List.length_append, List.length_flatMap]
  omega

/-- Which attempts there are: failures, as many as there may be and as have a pause behind them, and
then one that settles what comes of the fetch. -/
theorem exists_eq_append
    (h : Pursuit policy redirects url userAgent target missing made left c trails done) :
    ∃ failed last, trails = failed ++ [last] ∧
      (∀ trail ∈ failed, ∃ cause, trail.outcome policy.limit url = .failed cause) ∧
      failed.length ≤ left ∧ (failed = [] ∨ made + failed.length ≤ doublingLimit + 1) ∧
      Ends url missing (made + failed.length) (left - failed.length)
        (last.outcome policy.limit url) done.1 := by
  induction h with
  | last hattempt hends =>
    refine ⟨[], _, rfl, ?_, Nat.zero_le _, .inl rfl, ?_⟩
    · simp
    · rwa [(askedAll_of_attempt_eq hattempt).2]
  | @again made left c after cause trails done hattempt hmade hfurther ih =>
    obtain ⟨failed, last, rfl, hfailed, hleft, hdoubled, hends⟩ := ih
    refine ⟨.follow redirects target c.answerTo :: failed, last, rfl, ?_, ?_, .inr ?_, ?_⟩
    · intro trail htrail
      rcases List.mem_cons.mp htrail with rfl | htrail
      · exact ⟨cause, (askedAll_of_attempt_eq hattempt).2⟩
      · exact hfailed trail htrail
    · simp only [List.length_cons]
      omega
    · rcases hdoubled with rfl | hdoubled
      · simp only [List.length_cons, List.length_nil]
        omega
      · simp only [List.length_cons]
        omega
    · rw [List.length_cons, Nat.add_sub_add_right, ← Nat.add_assoc, Nat.add_right_comm]
      exact hends

/-- How a fetch ends whose last attempt is known. -/
theorem ends_of_append {failed : List (Trail library)} {last : Trail library}
    (h : Pursuit policy redirects url userAgent target missing made left c (failed ++ [last])
      done) :
    failed.length ≤ left ∧ (failed = [] ∨ made + failed.length ≤ doublingLimit + 1) ∧
      Ends url missing (made + failed.length) (left - failed.length)
        (last.outcome policy.limit url) done.1 := by
  obtain ⟨failed', last', hsame, -, hleft, hdoubled, hends⟩ := h.exists_eq_append
  obtain ⟨rfl, hlast⟩ := List.append_inj' hsame rfl
  obtain rfl := List.singleton_inj.mp hlast
  exact ⟨hleft, hdoubled, hends⟩

end Pursuit

end

end AtMarkup.Http
