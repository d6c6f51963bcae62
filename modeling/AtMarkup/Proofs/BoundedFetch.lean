import Mathlib
import AtMarkup.Proofs.Redirects
import AtMarkup.Proofs.Retrying

/-!
# Fetching is bounded

A document is fetched with a client that follows redirects. However the other side answers, in
circles or with failures at every turn, there are so many requests at most and one pause between two
attempts (`fetch_bounded`). What comes of the fetch follows from where the trails of the attempts
end: a trail is found, absent, refused, or it fails (`Trail.outcome_cases`), and only a trail that
fails is followed by another one.

Two endings are neither a body nor an error of the source. A redirect to a URL that cannot be asked
for ends the fetch with an error of its own, and so does a pause that would be doubled once too
often (`Pursuit.eq_endlessPause`).
-/

namespace AtMarkup.Http

/-! ## Where a trail ends -/

namespace Trail

variable {library : Library}

/-- The trail ends with a success, and this is the response. -/
structure IsFound (trail : Trail library) (response : Response) : Prop where
  /-- The response is the answer. -/
  answer : trail.answer = .response response
  /-- It leads nowhere else. -/
  stays : library.receive trail.last response = .stays
  /-- The status is one of success. -/
  status : isSuccess response.status = true

/-- The trail ends with the status 404. -/
def IsAbsent (trail : Trail library) : Prop :=
  ∃ response, trail.answer = .response response ∧
    library.receive trail.last response = .stays ∧ response.status = 404

/-- The trail ends with a response that is not judged at all: the URL that it comes from, or the one
that it leads to, cannot be asked for. -/
def IsRefused (trail : Trail library) (error : UrlError) : Prop :=
  ∃ response, trail.answer = .response response ∧
    library.receive trail.last response = .refused error

/-- The trail ends in any other way: there is no response, or one with another status, or one that
leads nowhere or too far. -/
def Fails (trail : Trail library) : Prop :=
  (∀ response, ¬ trail.IsFound response) ∧ ¬ trail.IsAbsent ∧ ∀ error, ¬ trail.IsRefused error

variable {trail : Trail library} {limit : Int} {asked : String} {response : Response}

/-- A trail whose answer stays comes to what the response is judged to be. -/
theorem outcome_of_stays (hanswer : trail.answer = .response response)
    (hstays : library.receive trail.last response = .stays) :
    trail.outcome limit asked =
      (judge library limit asked trail.last response default).1 := by
  have hends : onward? trail.last trail.answer = none := by
    simp only [hanswer, onward?, hstays]
  rw [outcome_of_onward?_eq_none trail hends, hanswer, verdict_of_stays hstays]

theorem IsFound.outcome_eq (h : trail.IsFound response) :
    trail.outcome limit asked = .found (readBody limit response.chunks).1 := by
  rw [outcome_of_stays h.answer h.stays, judge_of_isSuccess h.status]

theorem IsAbsent.outcome_eq (h : trail.IsAbsent) : trail.outcome limit asked = .missing := by
  obtain ⟨response, hanswer, hstays, habsent⟩ := h
  rw [outcome_of_stays hanswer hstays, judge_of_absent habsent]

theorem IsRefused.outcome_eq {error : UrlError} (h : trail.IsRefused error) :
    trail.outcome limit asked = .refused error := by
  obtain ⟨response, hanswer, hrefused⟩ := h
  have hends : onward? trail.last trail.answer = none := by
    simp only [hanswer, onward?, hrefused]
  rw [outcome_of_onward?_eq_none trail hends, hanswer]
  simp only [verdict, hrefused]
  rfl

/-- A trail ends in one of four ways. -/
theorem outcome_cases (limit : Int) (asked : String) (trail : Trail library) :
    (∃ response, trail.IsFound response) ∨ trail.IsAbsent ∨ (∃ error, trail.IsRefused error) ∨
      ∃ cause, trail.outcome limit asked = .failed cause := by
  cases hanswer : trail.answer with
  | failure message =>
    have hends : onward? trail.last trail.answer = none := by
      rw [hanswer]
      rfl
    rw [outcome_of_onward?_eq_none trail hends, hanswer]
    exact .inr (.inr (.inr ⟨message, rfl⟩))
  | response response =>
    cases hreceive : library.receive trail.last response with
    | stays =>
      cases hsuccess : isSuccess response.status with
      | true => exact .inl ⟨response, hanswer, hreceive, hsuccess⟩
      | false =>
        by_cases habsent : response.status = 404
        · exact .inr (.inl ⟨response, hanswer, hreceive, habsent⟩)
        · obtain ⟨cause, hcause⟩ : ∃ cause, judge library limit asked trail.last response default =
              (.failed cause, default) := exists_judge_of_failure hsuccess habsent
          rw [outcome_of_stays hanswer hreceive, hcause]
          exact .inr (.inr (.inr ⟨cause, rfl⟩))
    | leads target =>
      simp only [outcome, hanswer, onward?, hreceive]
      exact .inr (.inr (.inr ⟨_, rfl⟩))
    | failed message =>
      simp only [outcome, hanswer, onward?, hreceive, verdict]
      exact .inr (.inr (.inr ⟨message, rfl⟩))
    | refused error => exact .inr (.inr (.inl ⟨error, response, hanswer, hreceive⟩))

/-- What an attempt comes to tells in which way its trail ends. -/
theorem outcome_spec (limit : Int) (asked : String) (trail : Trail library) :
    match trail.outcome limit asked with
    | .found body => ∃ response, trail.IsFound response ∧ (readBody limit response.chunks).1 = body
    | .missing => trail.IsAbsent
    | .refused error => trail.IsRefused error
    | .failed _ => True := by
  rcases outcome_cases limit asked trail with
    ⟨response, hfound⟩ | habsent | ⟨error, hrefused⟩ | ⟨cause, hfailed⟩
  · rw [hfound.outcome_eq]
    exact ⟨response, hfound, rfl⟩
  · rwa [habsent.outcome_eq]
  · rwa [hrefused.outcome_eq]
  · rw [hfailed]
    trivial

theorem outcome_eq_found_iff {body : Bytes} :
    trail.outcome limit asked = .found body ↔
      ∃ response, trail.IsFound response ∧ (readBody limit response.chunks).1 = body := by
  constructor
  · intro h
    have hspec := outcome_spec limit asked trail
    rwa [h] at hspec
  · rintro ⟨response, hfound, rfl⟩
    exact hfound.outcome_eq

theorem outcome_eq_missing_iff : trail.outcome limit asked = .missing ↔ trail.IsAbsent := by
  refine ⟨fun h => ?_, IsAbsent.outcome_eq⟩
  have hspec := outcome_spec limit asked trail
  rwa [h] at hspec

theorem outcome_eq_refused_iff {error : UrlError} :
    trail.outcome limit asked = .refused error ↔ trail.IsRefused error := by
  refine ⟨fun h => ?_, IsRefused.outcome_eq⟩
  have hspec := outcome_spec limit asked trail
  rwa [h] at hspec

/-- The trails that fail are those whose attempt is a failure. -/
theorem fails_iff (limit : Int) (asked : String) :
    trail.Fails ↔ ∃ cause, trail.outcome limit asked = .failed cause := by
  constructor
  · rintro ⟨hfound, habsent, hrefused⟩
    rcases outcome_cases limit asked trail with
      ⟨response, hfound'⟩ | habsent' | ⟨error, hrefused'⟩ | hfailed
    · exact absurd hfound' (hfound response)
    · exact absurd habsent' habsent
    · exact absurd hrefused' (hrefused error)
    · exact hfailed
  · rintro ⟨cause, hfailed⟩
    refine ⟨fun response hfound => ?_, fun habsent => ?_, fun error hrefused => ?_⟩
    · cases hfailed.symm.trans hfound.outcome_eq
    · cases hfailed.symm.trans habsent.outcome_eq
    · cases hfailed.symm.trans hrefused.outcome_eq

/-- A trail that ends with a failure that may pass fails. -/
theorem fails_of_mayPass {url : String} (htakes : library.Takes url trail.last)
    (h : trail.answer.MayPass) : trail.Fails := by
  have hends : onward? trail.last trail.answer = none := by
    cases hanswer : trail.answer with
    | failure message => rfl
    | response response =>
      rw [hanswer] at h
      have hstatus := isTransient_iff.mp h
      simp only [onward?, htakes.receive response (isRedirect_eq_false (by omega))]
  rw [fails_iff 0 "", outcome_of_onward?_eq_none trail hends]
  exact ⟨_, value_verdict_of_mayPass htakes h⟩

end Trail

/-! ## How a fetch ends -/

namespace Ends

variable {url : String} {missing : SourceError} {made left : Nat} {ended : Attempt}
  {outcome : Except FetchError Bytes}

theorem eq_ok_iff (h : Ends url missing made left ended outcome) (body : Bytes) :
    outcome = .ok body ↔ ended = .found body := by
  cases h <;> simp

theorem eq_url_iff (h : Ends url missing made left ended outcome) (error : UrlError) :
    outcome = .error (.url error) ↔ ended = .refused error := by
  cases h <;> simp

/-- The error tells of absence exactly if there is nothing at the URL. -/
theorem absence_iff (h : Ends url missing made left ended outcome)
    (hmissing : missing.isAbsence = true) :
    (∃ error, outcome = .error (.source error) ∧ error.isAbsence = true) ↔ ended = .missing := by
  cases h with
  | found body => simp
  | missing => simp [hmissing]
  | refused error => simp
  | gaveUp cause hlast => simp [SourceError.isAbsence]
  | endlessPause cause hmore hmade => simp

/-- A fetch is given up exactly if the last attempt that there may be is a failure. -/
theorem gaveUp_iff (h : Ends url missing made left ended outcome)
    (hmissing : missing.isAbsence = true) :
    (∃ error, outcome = .error (.source error) ∧ error.isAbsence = false) ↔
      left = 0 ∧ ∃ cause, ended = .failed cause := by
  cases h with
  | found body => simp
  | missing => simp [hmissing]
  | refused error => simp
  | gaveUp cause hlast => simp [hlast, SourceError.isAbsence]
  | endlessPause cause hmore hmade => simp [hmore]

theorem endlessPause_iff (h : Ends url missing made left ended outcome) :
    outcome = .error .endlessPause ↔ left ≠ 0 ∧ ∃ cause, ended = .failed cause := by
  cases h with
  | found body => simp
  | missing => simp
  | refused error => simp
  | gaveUp cause hlast => simp [hlast]
  | endlessPause cause hmore hmade => simp [hmore]

theorem lt_of_endlessPause (h : Ends url missing made left ended (.error .endlessPause)) :
    doublingLimit < made := by
  cases h with
  | endlessPause cause hmore hmade => exact hmade

end Ends

/-! ## A side that always answers alike -/

section

variable {library : Library} {policy : Policy} {redirects : Nat} {url userAgent : String}
  {target : library.Url} {missing : SourceError} {made left : Nat} {c : Conversation}
  {trails : List (Trail library)} {done : Except FetchError Bytes × Conversation} {only : Answer}

/-- A redirect in a circle is followed as often as it may be. -/
theorem follow_of_circle (h : onward? target only = some target) (left : Nat) :
    Trail.follow left target (fun _ => only) = ⟨List.replicate left target, target, only⟩ := by
  induction left with
  | zero => rfl
  | succ left ih =>
    rw [Trail.follow_of_onward?_eq_some h, ih]
    rfl

/-- An answer that leads nowhere is where the trail ends. -/
theorem follow_of_stays (h : onward? target only = none) (left : Nat) :
    Trail.follow left target (fun _ => only) = ⟨[], target, only⟩ :=
  Trail.follow_of_onward?_eq_none h

/-- All trails are alike if all answers are. -/
theorem Pursuit.eq_of_answers_eq
    (h : Pursuit policy redirects url userAgent target missing made left c trails done)
    (hanswers : c.answers = [only]) {trail : Trail library} (htrail : trail ∈ trails) :
    trail = .follow redirects target fun _ => only := by
  obtain ⟨i, hi, rfl⟩ := List.mem_iff_getElem.mp htrail
  rw [h.getElem_eq i hi]
  simp only [Conversation.answerTo_of_answers_eq hanswers]

/-- A fetch that may be retried more often than a pause can be doubled, and whose attempts all fail,
ends for want of a pause. -/
theorem Pursuit.eq_endlessPause
    (h : Pursuit policy redirects url userAgent target missing 0 left c trails done)
    (hfails : ∀ trail ∈ trails, trail.Fails) (hmore : doublingLimit + 1 < left) :
    trails.length = doublingLimit + 2 ∧ done.1 = .error .endlessPause := by
  obtain ⟨failed, last, rfl, -, -, hdoubled, hends⟩ := h.exists_eq_append
  obtain ⟨cause, hlast⟩ := (Trail.fails_iff policy.limit url).mp (hfails last (by simp))
  rw [hlast] at hends
  have hlimit : failed.length ≤ doublingLimit + 1 := by
    rcases hdoubled with rfl | hdoubled
    · exact Nat.zero_le _
    · omega
  rcases hends.cases_of_failed with ⟨hused, -⟩ | ⟨-, hmade, houtcome⟩
  · omega
  · rw [List.length_append, List.length_singleton]
    exact ⟨by omega, houtcome⟩

end

/-! ## Any answers -/

/-- **Main result.** Fetching a document ends, however the other side answers: with redirects in
circles, failures at every turn, or anything else. There are some attempts that fail and a last one,
with one pause between two of them, and no more than `retries + 1` attempts of at most six requests.

* The fetch gives a body exactly if the last trail is found: what the limit leaves of that response.
* It gives the error that there is no document exactly if the trail of some attempt is absent, and
  it is given up exactly if the last retry fails.
* Otherwise it ends for want of a pause, which takes 1025 failures and a retry behind them, or with
  an error of its own because the last trail is refused. -/
theorem fetch_bounded {settings : Settings} {given : Option Int} {retries limit : Nat}
    (hretries : settings.fetchRetries = retries) (hlimit : given.getD settings.byteLimit = limit)
    {library : Library} {url : String} {target : library.Url}
    (hread : library.read url = .ok target) (c : Conversation) :
    let done := fetchDocument library settings given url c
    ∃ failed last,
      Pursuit (.ofSettings settings given) redirectLimit url settings.userAgent target
        (absentDocument url) 0 retries c (failed ++ [last]) done ∧
      failed.length ≤ retries ∧
      done.2.requests.length ≤ c.requests.length + (retries + 1) * (redirectLimit + 1) ∧
      done.2.pauses = c.pauses ++
        (List.range failed.length).map (fun i => settings.fetchBackoff * Float.ofNat (2 ^ i)) ∧
      (∀ trail ∈ failed, trail.Fails) ∧
      (∀ body, done.1 = .ok body ↔
        ∃ response, last.IsFound response ∧ response.chunks.flatten.take limit = body) ∧
      ((∃ error, done.1 = .error (.source error) ∧ error.isAbsence = true) ↔
        ∃ trail ∈ failed ++ [last], trail.IsAbsent) ∧
      ((∃ error, done.1 = .error (.source error) ∧ error.isAbsence = false) ↔
        last.Fails ∧ failed.length = retries) ∧
      (done.1 = .error .endlessPause ↔
        last.Fails ∧ failed.length = doublingLimit + 1 ∧ doublingLimit + 1 < retries) ∧
      ∀ error, done.1 = .error (.url error) ↔ last.IsRefused error := by
  intro done
  have hroom : (Policy.ofSettings settings given).limit = limit := hlimit
  have hpositive : 0 ≤ settings.fetchRetries := by omega
  obtain ⟨trails, hpursuit⟩ := exists_pursuit_fetchDocument hpositive hread given c
  rw [hretries, Int.toNat_natCast] at hpursuit
  obtain ⟨failed, last, rfl, hfailed, hleft, hdoubled, hends⟩ := hpursuit.exists_eq_append
  have hfails : ∀ trail ∈ failed, trail.Fails := fun trail htrail =>
    (Trail.fails_iff _ url).mpr (hfailed trail htrail)
  have hlength : (failed ++ [last]).length = failed.length + 1 := by simp
  refine ⟨failed, last, hpursuit, hleft, ?_, ?_, hfails, ?_, ?_, ?_, ?_, ?_⟩
  · have hrequests := hpursuit.length_requests_le
    rw [hlength] at hrequests
    exact hrequests.trans (Nat.add_le_add_left (Nat.mul_le_mul_right _ (by omega)) _)
  · rw [hpursuit.pauses_eq, hlength, Nat.add_sub_cancel]
    simp only [Nat.zero_add]
    rfl
  · intro body
    rw [hends.eq_ok_iff, Trail.outcome_eq_found_iff, hroom]
    simp only [readBody_eq]
  · rw [hends.absence_iff rfl, Trail.outcome_eq_missing_iff]
    constructor
    · exact fun habsent => ⟨last, by simp, habsent⟩
    · rintro ⟨trail, htrail, habsent⟩
      rcases List.mem_append.mp htrail with hfront | hlast
      · exact absurd habsent (hfails trail hfront).2.1
      · rwa [← List.mem_singleton.mp hlast]
  · rw [hends.gaveUp_iff rfl, ← Trail.fails_iff, and_comm]
    exact and_congr_right fun _ => by omega
  · constructor
    · intro hendless
      have hmore := hends.endlessPause_iff.mp hendless
      rw [hendless] at hends
      have hmade := hends.lt_of_endlessPause
      have hsome : failed.length ≠ 0 := by omega
      have hlast := hdoubled.resolve_left (by simpa using hsome)
      exact ⟨(Trail.fails_iff _ _).mpr hmore.2, by omega, by omega⟩
    · rintro ⟨hfails, hlast, hmore⟩
      exact hends.endlessPause_iff.mpr ⟨by omega, (Trail.fails_iff _ _).mp hfails⟩
  · intro error
    rw [hends.eq_url_iff, Trail.outcome_eq_refused_iff]

/-- A server that redirects in a circle: with one retry there are at most twelve requests, and then
the fetch is given up. -/
theorem fetch_bounded_circle :
    let settings : Settings := { Settings.standard with fetchRetries := 1 }
    let c : Conversation := { answers := [.response ⟨302, "http://h/d", []⟩] }
    let done := fetchDocument .literal settings (some 9) "http://h/d" c
    settings.fetchRetries = (1 : Nat) ∧ (some 9).getD settings.byteLimit = (9 : Nat) ∧
      Library.literal.read "http://h/d" = .ok "http://h/d" ∧ done.2.requests.length ≤ 12 ∧
      ∃ error, done.1 = .error (.source error) ∧ error.isAbsence = false := by
  intro settings c done
  let target : Library.literal.Url := "http://h/d"
  have hread : Library.literal.read "http://h/d" = .ok target := rfl
  have hcircle : onward? target (.response ⟨302, "http://h/d", []⟩) = some target := rfl
  have hretries : settings.fetchRetries = (1 : Nat) := rfl
  have hlimit : (some 9).getD settings.byteLimit = (9 : Nat) := rfl
  obtain ⟨failed, last, hpursuit, -, hrequests, -, hfailed, hfound, habsent, -, hendless,
    hrefused⟩ := fetch_bounded hretries hlimit hread c
  have hlast : last = ⟨List.replicate 5 target, target, .response ⟨302, "http://h/d", []⟩⟩ := by
    rw [hpursuit.eq_of_answers_eq rfl (List.mem_append_right failed (List.mem_singleton_self last)),
      follow_of_circle hcircle]
    rfl
  have hfails : last.Fails := by
    rw [Trail.fails_iff 9 "", hlast]
    simp [Trail.outcome, hcircle]
  refine ⟨hretries, hlimit, hread, hrequests, ?_⟩
  -- All other endings need a trail that ends otherwise, or more retries.
  cases houtcome : done.1 with
  | ok body =>
    obtain ⟨response, hresponse, -⟩ := (hfound body).mp houtcome
    exact absurd hresponse (hfails.1 response)
  | error error =>
    cases error with
    | source error =>
      refine ⟨error, rfl, ?_⟩
      rw [← Bool.not_eq_true]
      intro herror
      obtain ⟨trail, htrail, hmissing⟩ := habsent.mp ⟨error, houtcome, herror⟩
      rcases List.mem_append.mp htrail with hfront | hend
      · exact (hfailed trail hfront).2.1 hmissing
      · exact hfails.2.1 (List.mem_singleton.mp hend ▸ hmissing)
    | url error => exact absurd ((hrefused error).mp houtcome) (hfails.2.2 error)
    | endlessPause => exact absurd (hendless.mp houtcome).2.2 (by decide)

/-- With 1025 retries, a server that is always busy is asked 1025 times, and a redirect may lead to
what cannot be asked for at all: neither gives a body or an error of the source. -/
theorem document_endless_pause :
    let busy : Conversation := { answers := [.response ⟨503, none, []⟩] }
    let patient : Settings := { Settings.standard with fetchRetries := 1025, fetchBackoff := 0 }
    let done := fetchDocument .literal patient none "http://h/d" busy
    let unrooted : UrlError :=
      ⟨"InvalidURL", "For absolute URLs, path must be empty or begin with '/'"⟩
    let strict : Library :=
      { Library.literal with
        receive := fun _ response =>
          if isRedirect response.status then .refused unrooted else .stays }
    let elsewhere : Conversation := { answers := [.response ⟨302, "mailto:a", []⟩] }
    (done.2.requests.length = 1025 ∧ done.1 = .error .endlessPause) ∧
      (fetchDocument strict .standard none "http://h/d" elsewhere).1 = .error (.url unrooted) := by
  intro busy patient done unrooted strict elsewhere
  refine ⟨?_, ?_⟩
  · let refusal : Answer := .response ⟨503, none, []⟩
    let target : Library.literal.Url := "http://h/d"
    have htakes : Library.literal.Takes "http://h/d" target := Library.takes_literal "http://h/d"
    have hstays : onward? target refusal = none := rfl
    have hretries : 0 ≤ patient.fetchRetries := by decide
    obtain ⟨trails, hpursuit⟩ := exists_pursuit_fetchDocument hretries htakes.read none busy
    have halike : ∀ trail ∈ trails, trail = ⟨[], target, refusal⟩ := by
      intro trail htrail
      rw [hpursuit.eq_of_answers_eq rfl htrail, follow_of_stays hstays]
    have hfails : ∀ trail ∈ trails, trail.Fails := by
      intro trail htrail
      rw [halike trail htrail]
      exact Trail.fails_of_mayPass htakes rfl
    obtain ⟨hlength, houtcome⟩ := hpursuit.eq_endlessPause hfails (by decide)
    refine ⟨?_, houtcome⟩
    have hone : (Trail.requests patient.userAgent ⟨[], target, refusal⟩).length = 1 := rfl
    have hnone : busy.requests.length = 0 := rfl
    rw [hpursuit.requests_eq, List.eq_replicate_iff.mpr ⟨hlength, halike⟩, List.length_append,
      List.length_flatMap, List.map_replicate, List.sum_replicate, hone, hnone]
    rfl
  · let target : strict.Url := "http://h/d"
    let away : Response := ⟨302, "mailto:a", []⟩
    have hrefused : strict.receive target away = .refused unrooted := rfl
    have hstays : onward? target (.response away) = none := rfl
    have hread : strict.read "http://h/d" = .ok target := rfl
    have hretries : 0 ≤ Settings.standard.fetchRetries := by decide
    obtain ⟨trails, hpursuit⟩ := exists_pursuit_fetchDocument hretries hread none elsewhere
    obtain ⟨failed, last, rfl, -, -, -, hends⟩ := hpursuit.exists_eq_append
    rw [hends.eq_url_iff, Trail.outcome_eq_refused_iff,
      hpursuit.eq_of_answers_eq rfl (List.mem_append_right failed (List.mem_singleton_self last)),
      follow_of_stays hstays]
    exact ⟨away, rfl, hrefused⟩

end AtMarkup.Http
