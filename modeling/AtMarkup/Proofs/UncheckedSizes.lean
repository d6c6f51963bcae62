import Mathlib
import AtMarkup.Proofs.Retrying

/-!
# Sizes that nobody checks

The ceiling on bytes and the size of a chunk come from callers and from the environment as integers
of any sign. Here is for which of them the readers keep the ceiling, whatever they are given to
read.

* A stream: the ceiling is kept where the size is not negative (`length_readBoundedFrom_le`, by
  induction on what is left of the stream, with `Progress.Within` as the invariant). A negative size
  asks for whole pieces, so that the one that reaches the ceiling is kept beyond it
  (`data_readBoundedFrom_of_size_neg`). Where the ceiling is zero or less, nothing is asked for.
* A body: a negative ceiling counts from the end of the first piece (`readBody_of_limit_neg`).
* A fetch: its body is read off one of the answers (`isBodyOf_of_fetch`), by induction on the
  redirects of an attempt and on the attempts that are left.
* `ceiling_kept_iff`: the three together.
-/

namespace AtMarkup

/-! ## Streams -/

namespace BoundedReading

/-- A reading under way has kept its chunks within the limit, and has counted their bytes. -/
structure Progress.Within (limit : Int) (p : Progress) : Prop where
  /-- The bytes are counted. -/
  counted : p.chunks.reverse.flatten.length = p.total
  /-- They are no more than allowed. -/
  le_limit : (p.total : Int) ≤ max 0 limit

variable {limit size : Int} {p : Progress}

theorem Progress.Within.extended (h : p.Within limit) {count : Int} {chunk : Bytes}
    (hroom : (p.total : Int) + chunk.length ≤ max 0 limit) :
    (p.extended count chunk).Within limit where
  counted := by
    have hcounted := h.counted
    simp only [Progress.extended, List.reverse_cons, List.flatten_append, List.flatten_singleton,
      List.length_append]
    omega
  le_limit := by
    simp only [Progress.extended]
    omega

/-- **Loop.** No stream makes a reading exceed the limit where the size of a chunk is not
negative. -/
theorem length_readBoundedFrom_le (hsize : limit ≤ 0 ∨ 0 ≤ size) (h : p.Within limit)
    (stream : Stream) :
    ((readBoundedFrom limit size p stream).data.length : Int) ≤ max 0 limit := by
  induction hleft : stream.size using Nat.strong_induction_on generalizing p stream with
  | _ left ih =>
    subst hleft
    have hdone : (p.chunks.reverse.flatten.length : Int) ≤ max 0 limit := h.counted ▸ h.le_limit
    rw [readBoundedFrom]
    split
    · rename_i hbelow
      have hcount : 0 ≤ nextRequest limit size p.total := by
        unfold nextRequest
        omega
      have hallowed : nextRequest limit size p.total ≤ limit - p.total := by
        unfold nextRequest
        omega
      split
      · simpa [Progress.finished, Progress.extended] using hdone
      · rename_i byte more rest hread
        have hcame := stream.length_read_le hcount
        have htaken := stream.size_read (nextRequest limit size p.total)
        rw [hread] at hcame htaken
        simp only [List.length_cons] at hcame htaken
        refine ih rest.size (by omega) (h.extended ?_) rest rfl
        simp only [List.length_cons]
        omega
    · exact hdone

/-- The pieces that make up a reading that takes them whole: as many as it needs to reach the limit,
`total` bytes of which have come before, and none from an empty one on. -/
def wholePieces (limit : Int) : Nat → List Bytes → List Bytes
  | _, [] => []
  | total, piece :: later =>
    if total < limit ∧ piece ≠ [] then piece :: wholePieces limit (total + piece.length) later
    else []

/-- Where the size of a chunk is negative, the reading consists of whole pieces. -/
theorem data_readBoundedFrom_of_size_neg (hsize : size < 0) (p : Progress) (pieces : List Bytes) :
    (readBoundedFrom limit size p ⟨pieces⟩).data =
      p.chunks.reverse.flatten ++ (wholePieces limit p.total pieces).flatten := by
  induction pieces generalizing p with
  | nil =>
    rw [readBoundedFrom]
    split
    · simp [Stream.read, wholePieces, Progress.finished, Progress.extended]
    · simp [wholePieces, Progress.finished, Progress.probed]
  | cons piece later ih =>
    have hwhole : Stream.read (nextRequest limit size p.total) ⟨piece :: later⟩ =
        (piece, ⟨later⟩) := by
      apply Stream.read_of_neg
      unfold nextRequest
      omega
    rw [readBoundedFrom, wholePieces]
    split
    · rename_i hbelow
      split
      · rename_i rest hread
        obtain ⟨rfl, rfl⟩ := Prod.mk.inj (hwhole.symm.trans hread)
        simp [Progress.finished, Progress.extended]
      · rename_i byte more rest hread
        obtain ⟨rfl, rfl⟩ := Prod.mk.inj (hwhole.symm.trans hread)
        rw [ih, if_pos ⟨hbelow, List.cons_ne_nil byte more⟩]
        simp [Progress.extended]
    · rename_i hfull
      rw [if_neg fun h => hfull h.1]
      simp [Progress.finished, Progress.probed]

/-- A piece that goes beyond a limit makes a reading in whole pieces go beyond it too. -/
theorem exists_lt_length_data_of_size_neg (hlimit : 0 < limit) (hsize : size < 0) :
    ∃ stream, limit < ((readBoundedFrom limit size {} stream).data.length : Int) := by
  refine ⟨⟨[List.replicate (limit.toNat + 1) 0]⟩, ?_⟩
  rw [data_readBoundedFrom_of_size_neg hsize, wholePieces, if_pos ⟨hlimit, by simp⟩]
  simp [wholePieces]

/-- The size of a chunk, where zero and none stand for the standard one. -/
def chunkSizeOf : Option Int → Int
  | none | some 0 => Settings.standard.chunkSize
  | some size => size

theorem readBounded_eq (given chunkSize : Option Int) (stream : Stream) :
    readBounded .standard given chunkSize stream =
      readBoundedFrom (given.getD Settings.standard.byteLimit) (chunkSizeOf chunkSize) {} stream :=
  rfl

theorem chunkSizeOf_nonneg_iff {chunkSize : Option Int} :
    0 ≤ chunkSizeOf chunkSize ↔ ∀ size ∈ chunkSize, 0 ≤ size := by
  have hstandard : 0 ≤ Settings.standard.chunkSize := by decide
  unfold chunkSizeOf
  split
  · simpa using hstandard
  · simpa using hstandard
  · simp

end BoundedReading

/-! ## Bodies -/

namespace Http

/-- Under a negative limit a body is its first piece that is not empty, without as many bytes at the
end as the limit says. -/
theorem readBody_of_limit_neg {limit : Int} (h : limit < 0) (chunks : List Bytes) :
    (readBody limit chunks).1 =
      ((chunks.find? (· ≠ [])).map fun chunk =>
        chunk.take (chunk.length - limit.natAbs)).getD [] := by
  unfold readBody
  induction chunks with
  | nil => rfl
  | cons chunk chunks ih =>
    cases chunk with
    | nil => exact ih
    | cons byte more =>
      have hbeyond : limit - (0 : Nat) < ((byte :: more).length : Int) := by
        simp only [List.length_cons]
        omega
      rw [readBodyFrom, if_pos hbeyond, takeBytes, if_pos (by omega)]
      · simp
      · intro hnil
        cases hnil

/-- A body keeps any limit that is not negative. -/
theorem length_readBody_le {limit : Int} (h : 0 ≤ limit) (chunks : List Bytes) :
    ((readBody limit chunks).1.length : Int) ≤ limit := by
  obtain ⟨limit, rfl⟩ := Int.eq_ofNat_of_zero_le h
  rw [readBody_eq, List.length_take]
  omega

/-! ## Fetched bodies -/

/-- A response is one of the answers that there were. -/
theorem Conversation.response_mem (c : Conversation) {request : Request} {response : Response}
    {next : Conversation} (h : c.request request = (.response response, next)) :
    .response response ∈ c.answers := by
  have hanswer : c.answerTo 0 = .response response := by rw [← c.fst_request request, h]
  rcases c.answerTo_mem_or 0 with hmem | hnone
  · rwa [hanswer] at hmem
  · cases hanswer.symm.trans hnone

/-- A request leaves no answers but those that there were. -/
theorem Conversation.answers_request_subset (c : Conversation) {request : Request} {answer : Answer}
    {next : Conversation} (h : c.request request = (answer, next)) : next.answers ⊆ c.answers := by
  obtain rfl : next = (c.request request).2 := by rw [h]
  unfold Conversation.request
  cases hanswers : c.answers with
  | nil => simp
  | cons first later => cases later <;> simp

/-- The body is read off one of the answers, and this is a success. -/
def IsBodyOf (limit : Int) (answers : List Answer) (body : Bytes) : Prop :=
  ∃ response, .response response ∈ answers ∧ isSuccess response.status = true ∧
    body = (readBody limit response.chunks).1

/-- An attempt that starts at `c` leaves no answers but those that there were, and if it finds a
body this is read off one of them. -/
structure Reads (limit : Int) (c : Conversation) (done : Attempt × Conversation) : Prop where
  /-- No answers are added. -/
  answers : done.2.answers ⊆ c.answers
  /-- A body comes of an answer. -/
  body : ∀ body, done.1 = .found body → IsBodyOf limit c.answers body

section

variable {limit : Int} {c next : Conversation} {done : Attempt × Conversation}

theorem IsBodyOf.mono {few many : List Answer} {body : Bytes} (h : IsBodyOf limit few body)
    (hsubset : few ⊆ many) : IsBodyOf limit many body := by
  obtain ⟨response, hmem, hbody⟩ := h
  exact ⟨response, hsubset hmem, hbody⟩

theorem Reads.mono (h : Reads limit next done) (hsubset : next.answers ⊆ c.answers) :
    Reads limit c done where
  answers := fun _ hmem => hsubset (h.answers hmem)
  body := fun body hfound => (h.body body hfound).mono hsubset

theorem reads_failed (hsubset : next.answers ⊆ c.answers) (cause : String) :
    Reads limit c (.failed cause, next) where
  answers := hsubset
  body := fun _ hfound => nomatch hfound

theorem reads_refused (hsubset : next.answers ⊆ c.answers) (error : UrlError) :
    Reads limit c (.refused error, next) where
  answers := hsubset
  body := fun _ hfound => nomatch hfound

/-- A response that is judged is found if it is a success, and then by its body. -/
theorem reads_judge {library : Library} (asked : String) (url : library.Url) {response : Response}
    (hmem : .response response ∈ c.answers) (hsubset : next.answers ⊆ c.answers) :
    Reads limit c (judge library limit asked url response next) where
  answers := by
    rw [judge_eq]
    exact hsubset
  body := by
    intro body hfound
    cases hsuccess : isSuccess response.status with
    | true =>
      rw [judge_of_isSuccess hsuccess] at hfound
      exact ⟨response, hmem, hsuccess, (Attempt.found.inj hfound).symm⟩
    | false =>
      by_cases habsent : response.status = 404
      · rw [judge_of_absent habsent] at hfound
        cases hfound
      · obtain ⟨cause, hcause⟩ : ∃ cause, judge library limit asked url response next =
            (.failed cause, next) := exists_judge_of_failure hsuccess habsent
        rw [hcause] at hfound
        cases hfound

end

section

variable {library : Library}

/-- **Step.** What an attempt finds is read off one of the answers, however often it is
redirected. -/
theorem reads_attempt (limit : Int) (asked userAgent : String) (url : library.Url)
    (redirects : Option Nat) (c : Conversation) :
    Reads limit c (attempt library limit asked userAgent url redirects c) := by
  fun_induction attempt library limit asked userAgent url redirects c with
  | case1 url redirects c message next hrequest =>
    exact reads_failed (c.answers_request_subset hrequest) message
  | case2 url redirects c response next hrequest message hreceive =>
    exact reads_failed (c.answers_request_subset hrequest) message
  | case3 url redirects c response next hrequest error hreceive =>
    exact reads_refused (c.answers_request_subset hrequest) error
  | case4 url c response next hrequest target hreceive =>
    exact reads_judge asked url (c.response_mem hrequest) (c.answers_request_subset hrequest)
  | case5 url redirects c response next hrequest hreceive =>
    exact reads_judge asked url (c.response_mem hrequest) (c.answers_request_subset hrequest)
  | case6 url c response next hrequest target hreceive =>
    exact reads_failed (c.answers_request_subset hrequest) _
  | case7 url c response next hrequest left target hreceive ih =>
    exact ih.mono (c.answers_request_subset hrequest)

/-- **Run.** What a sequence of attempts gives is read off one of the answers. -/
theorem isBodyOf_of_attempts {policy : Policy} {client : Client} {asked : String}
    {url : library.Url} {missing : SourceError} {made left : Nat} {last : Option String}
    {c : Conversation} {body : Bytes}
    (h : (attempts library policy client asked url missing made last left c).1 = .ok body) :
    IsBodyOf policy.limit c.answers body := by
  have hreads {c next : Conversation} {ended : Attempt}
      (hattempt : attempt library policy.limit asked client.userAgent url client.redirects c =
        (ended, next)) : Reads policy.limit c (ended, next) := hattempt ▸ reads_attempt ..
  fun_induction attempts library policy client asked url missing made last left c with
  | case1 => cases h
  | case2 made last left c found next hattempt =>
    obtain rfl := Except.ok.inj h
    exact (hreads hattempt).body found rfl
  | case3 => cases h
  | case4 => cases h
  | case5 made last c cause next hattempt ih => exact (ih h).mono (hreads hattempt).answers
  | case6 => cases h
  | case7 made last left c cause next hattempt hmore hmade seconds ih =>
    exact (ih h).mono (hreads hattempt).answers

/-- A body that is fetched is read off one of the answers. -/
theorem isBodyOf_of_fetch {policy : Policy} {client : Client} {url : String} {missing : SourceError}
    {c : Conversation} {body : Bytes}
    (h : (fetch library policy client url missing c).1 = .ok body) :
    IsBodyOf policy.limit c.answers body := by
  unfold fetch at h
  split at h
  · cases h
  · cases h
  · exact isBodyOf_of_attempts h

end

end Http

/-! ## All of them -/

/-- **Main result.** A ceiling is kept whatever there is to read exactly if the integers are as
follows.

* By a reading that asks a stream for chunks of a size: if the ceiling is not positive or the size
  is not negative. It makes no difference to this whether the size is configured or passed.
* By a fetch: if the ceiling is not negative, whoever asks, and however often. -/
theorem ceiling_kept_iff (limit : Int) :
    (∀ size : Int, (∀ stream,
      ((readBoundedFrom limit size {} stream).data.length : Int) ≤ max 0 limit) ↔
        limit ≤ 0 ∨ 0 ≤ size) ∧
    (∀ chunkSize : Option Int, (∀ stream,
      ((readBounded .standard (some limit) chunkSize stream).data.length : Int) ≤ max 0 limit) ↔
        limit ≤ 0 ∨ ∀ size ∈ chunkSize, 0 ≤ size) ∧
    ((∀ library retries backoff client url missing c body,
      (Http.fetch library ⟨retries, backoff, limit⟩ client url missing c).1 = .ok body →
        (body.length : Int) ≤ max 0 limit) ↔ 0 ≤ limit) := by
  have hstream (size : Int) : (∀ stream,
      ((readBoundedFrom limit size {} stream).data.length : Int) ≤ max 0 limit) ↔
        limit ≤ 0 ∨ 0 ≤ size := by
    constructor
    · intro hkept
      by_contra hbad
      obtain ⟨hlimit, hsize⟩ := not_or.mp hbad
      obtain ⟨stream, hbeyond⟩ :=
        BoundedReading.exists_lt_length_data_of_size_neg (not_le.mp hlimit) (not_le.mp hsize)
      have := hkept stream
      omega
    · intro hsize stream
      exact BoundedReading.length_readBoundedFrom_le hsize ⟨rfl, le_max_left 0 limit⟩ stream
  refine ⟨hstream, ?_, ?_⟩
  · intro chunkSize
    rw [← BoundedReading.chunkSizeOf_nonneg_iff]
    exact hstream (BoundedReading.chunkSizeOf chunkSize)
  · constructor
    · intro hkept
      by_contra hlimit
      have hshort := hkept .literal 0 0 ⟨"", none⟩ _ (.noResource "") _ _
        (Http.fetch_of_success (le_refl 0) (Http.Library.takes_literal "http://h/d") ""
          (.noResource "")
          { answers := [.response ⟨200, none, [List.replicate (limit.natAbs + 1) 0]⟩] } rfl rfl)
      rw [Http.readBody_of_limit_neg (not_le.mp hlimit)] at hshort
      simp at hshort
      omega
    · intro hlimit library retries backoff client url missing c body hbody
      obtain ⟨response, -, -, rfl⟩ := Http.isBodyOf_of_fetch hbody
      exact (Http.length_readBody_le hlimit response.chunks).trans (le_max_right 0 limit)

/-- With a ceiling of four bytes and a size of -1, ten bytes that come in one piece are all read;
and with a ceiling of -3, two bytes of five are fetched. -/
theorem ceiling_exceeded :
    (readBounded .standard (some 4) (some (-1)) ⟨[List.replicate 10 97]⟩).data =
      List.replicate 10 97 ∧
    (Http.fetch .literal ⟨2, 0.5, -3⟩ ⟨"me", none⟩ "http://h/d" (.noResource "gone")
      { answers := [.response ⟨200, none, [[1, 2, 3, 4, 5]]⟩] }).1 = .ok [1, 2] := by
  constructor
  · rw [BoundedReading.readBounded_eq, BoundedReading.data_readBoundedFrom_of_size_neg (by decide)]
    decide
  · rw [Http.fetch_of_success (by decide) (Http.Library.takes_literal "http://h/d") "me"
      (.noResource "gone") _ rfl rfl,
      Http.readBody_of_limit_neg (by decide)]
    rfl

end AtMarkup
