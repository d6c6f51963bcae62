import Mathlib
import AtMarkup.Proofs.ByteCeiling

/-!
# Reading a whole document

Documents are read up to a limit, in chunks or in the pieces in which they arrive. A document within
the limit is read whole, and it does not matter how it is cut: from a file (`readPath_of_read?`),
and from a server whose first answer is a success (`fetchDocument_of_success`).

The size of a chunk may be any integer but zero: one that is negative asks for all there is. Nothing
is left behind in any of these, so there is no event to tell of.

An input that breaks in place of its end is read as long as the end is not met
(`Input.value_read_eq_error_iff`), which is up to the limit (`Input.breaks_iff`).
-/

namespace AtMarkup

/-! ## Files -/

namespace BoundedReading

/-- A reading holds all there is, and knows it. -/
structure IsWhole (reading : BoundedReading) (data : Bytes) : Prop where
  /-- It holds the data. -/
  data : reading.data = data
  /-- Nothing is left behind. -/
  truncated : reading.truncated = false

variable {limit size : Int} {data : Bytes}

/-- Chunks of a size are put together. -/
theorem isWhole_of_size_pos (hsize : 0 < size) (hlimit : (data.length : Int) ≤ limit) :
    (readBoundedFrom limit size {} (.ofBytes data)).IsWhole data := by
  obtain ⟨limit, rfl⟩ := Int.eq_ofNat_of_zero_le (by omega : 0 ≤ limit)
  have hbytes := Stream.bytes_ofBytes data
  have hreading := readsOn_readBoundedFrom (p := {}) hsize (Stream.isSteady_ofBytes data)
    (Nat.zero_le limit)
  constructor
  · rw [hreading.data, hbytes, List.take_of_length_le (by simp; omega)]
    rfl
  · rw [← Bool.not_eq_true, hreading.truncated, Stream.size, hbytes]
    simp
    omega

/-- A request for all there is gives it at once. -/
theorem isWhole_of_size_neg (hsize : size < 0) (hlimit : (data.length : Int) ≤ limit) :
    (readBoundedFrom limit size {} (.ofBytes data)).IsWhole data := by
  have hend (count : Int) : Stream.read count ⟨[]⟩ = ([], ⟨[]⟩) := rfl
  have hread : Stream.read (nextRequest limit size 0) (.ofBytes data) = (data, ⟨[]⟩) := by
    apply Stream.read_of_neg
    unfold nextRequest
    omega
  cases data with
  | nil =>
    rw [readBoundedFrom]
    split
    · split
      · exact ⟨rfl, rfl⟩
      · rename_i byte more rest hcame
        cases hread.symm.trans hcame
    · exact ⟨rfl, rfl⟩
  | cons first later =>
    rw [readBoundedFrom, if_pos (by simp only [List.length_cons] at hlimit; simp; omega)]
    split
    · rename_i rest hcame
      cases hread.symm.trans hcame
    · rename_i byte more rest hcame
      obtain ⟨hdata, rfl⟩ := Prod.mk.inj (hread.symm.trans hcame)
      rw [← hdata, readBoundedFrom]
      -- Behind the data there is nothing, whether it is looked for below the limit or at it.
      split
      · split
        · exact ⟨by simp [Progress.finished, Progress.extended], rfl⟩
        · rename_i hcame'
          cases (hend _).symm.trans hcame'
      · exact ⟨by simp [Progress.finished, Progress.extended, Progress.probed], rfl⟩

/-- A reading meets the end exactly if it leaves nothing behind. -/
theorem meetsEnd_readBoundedFrom (hsize : size ≠ 0) {p : Progress}
    (hserved : ∀ request ∈ p.requests, (request.1 != 0 && request.2 == 0) = false)
    (stream : Stream) :
    (readBoundedFrom limit size p stream).meetsEnd =
      !(readBoundedFrom limit size p stream).truncated := by
  induction hleft : stream.size using Nat.strong_induction_on generalizing p stream with
  | _ left ih =>
    subst hleft
    have hnone : p.requests.any (fun request => request.1 != 0 && request.2 == 0) = false := by
      rw [List.any_eq_false]
      intro request hrequest
      rw [hserved request hrequest]
      exact Bool.false_ne_true
    rw [readBoundedFrom]
    split
    · have hcount : nextRequest limit size p.total ≠ 0 := by
        unfold nextRequest
        omega
      split
      · simp [meetsEnd, Progress.finished, Progress.extended, hcount]
      · rename_i byte more rest hread
        have htaken := stream.size_read (nextRequest limit size p.total)
        rw [hread] at htaken
        simp only [List.length_cons] at htaken
        refine ih rest.size (by omega) ?_ rest rfl
        simp only [Progress.extended, List.mem_cons, forall_eq_or_imp]
        exact ⟨by simp, hserved⟩
    · simp only [meetsEnd, Progress.finished, Progress.probed, List.any_reverse, List.any_cons,
        hnone]
      cases (stream.read 1).1 <;> simp

end BoundedReading

variable {settings : Settings}

/-- The input breaks with an error before it is read up to the limit. -/
def Input.Breaks (settings : Settings) (input : Input) (error : SystemError) : Prop :=
  input.fault = some error ∧
    (readBounded settings none none (.ofBytes input.data)).meetsEnd = true

/-- Reading an input fails exactly if it breaks. -/
theorem Input.value_read_eq_error_iff {input : Input} {name : String} {error : SystemError} :
    (input.read settings name none).value = .error error ↔ input.Breaks settings error := by
  have hreading : (readNamed settings name none none (.ofBytes input.data)).value =
      readBounded settings none none (.ofBytes input.data) := rfl
  unfold Input.read Breaks
  rw [Logged.value_bind, hreading]
  cases input.fault with
  | none => simp
  | some fault =>
    by_cases h : (readBounded settings none none (.ofBytes input.data)).meetsEnd <;> simp [h]

/-- An input that has an error in place of its end breaks exactly if it has no more bytes than the
limit. -/
theorem Input.breaks_iff {input : Input} {error : SystemError} {limit : Nat}
    (hsize : 0 < settings.chunkSize) (hlimit : settings.byteLimit = limit) :
    input.Breaks settings error ↔ input.fault = some error ∧ input.data.length ≤ limit := by
  have hreading := BoundedReading.readsOn_readBounded none none hlimit hsize (by simp)
    (Stream.isSteady_ofBytes input.data)
  have hend : (readBounded settings none none (.ofBytes input.data)).meetsEnd =
      !(readBounded settings none none (.ofBytes input.data)).truncated :=
    BoundedReading.meetsEnd_readBoundedFrom hsize.ne' (by simp) _
  have hcut := hreading.truncated
  rw [Stream.size, Stream.bytes_ofBytes] at hcut
  unfold Breaks
  rw [hend, Bool.not_eq_true', ← Bool.not_eq_true, hcut]
  simp

/-- An input within the limit is read whole, and there is nothing to tell. -/
theorem read_of_length_le (hsize : settings.chunkSize ≠ 0) (name : String) {data : Bytes}
    (hlimit : (data.length : Int) ≤ settings.byteLimit) :
    Input.read settings name none { data } = ⟨.ok data, []⟩ := by
  have hwhole : (readBounded settings none none (.ofBytes data)).IsWhole data := by
    rcases lt_or_gt_of_ne hsize with hneg | hpos
    · exact BoundedReading.isWhole_of_size_neg hneg hlimit
    · exact BoundedReading.isWhole_of_size_pos hpos hlimit
  have hnamed : readNamed settings name none none (.ofBytes data) =
      ⟨readBounded settings none none (.ofBytes data), []⟩ := by
    unfold readNamed
    simp [hwhole.truncated]
  have hread : Input.read settings name none { data } =
      ⟨.ok (readBounded settings none none (.ofBytes data)).data, []⟩ := by
    unfold Input.read
    rw [hnamed]
    rfl
  rw [hread, hwhole.data]

/-- A file within the limit is read whole, and there is nothing to tell. -/
theorem readPath_of_read? (hsize : settings.chunkSize ≠ 0) {files : FileSystem} {path : Path}
    {data : Bytes} (hfile : files.read? path = .ok { data })
    (hlimit : (data.length : Int) ≤ settings.byteLimit) :
    readPath settings files path none = ⟨.ok data, []⟩ := by
  unfold readPath
  rw [hfile]
  simp only
  rw [read_of_length_le hsize path.text hlimit]
  rfl

/-! ## Servers -/

namespace Http

/-- A body within the limit is read whole, in whatever pieces it arrives. -/
theorem readBody_of_length_le {limit : Int} {chunks : List Bytes}
    (h : (chunks.flatten.length : Int) ≤ limit) :
    readBody limit chunks = (chunks.flatten, false) := by
  obtain ⟨limit, rfl⟩ := Int.eq_ofNat_of_zero_le (by omega : 0 ≤ limit)
  have hwithin : chunks.flatten.length ≤ limit := by omega
  rw [readBody_eq, List.take_of_length_le hwithin, decide_eq_false (by omega)]

/-- A request is answered with the next answer, and nothing is told. -/
theorem Conversation.request_of_answers {c : Conversation} {answer : Answer} {later : List Answer}
    (h : c.answers = answer :: later) (request : Request) :
    (c.request request).1 = answer ∧ (c.request request).2.events = c.events := by
  unfold Conversation.request
  rw [h]
  cases later with
  | nil => exact ⟨rfl, rfl⟩
  | cons next later => exact ⟨rfl, rfl⟩

section

variable {library : Library} {url : String} {target : library.Url} {chunks : List Bytes}
  {location : Option String} {c : Conversation} {later : List Answer}

/-- A success is the answer to an attempt: its body is found, and nothing is told. -/
theorem attempt_of_success (limit : Int) (htakes : library.Takes url target)
    (hlimit : (chunks.flatten.length : Int) ≤ limit)
    (hanswers : c.answers = .response ⟨200, location, chunks⟩ :: later) (asked userAgent : String)
    (redirects : Option Nat) :
    (attempt library limit asked userAgent target redirects c).1 = .found chunks.flatten ∧
      (attempt library limit asked userAgent target redirects c).2.events = c.events := by
  obtain ⟨hanswer, hevents⟩ := c.request_of_answers hanswers ⟨library.text target, userAgent⟩
  have hstays : library.receive target ⟨200, location, chunks⟩ = .stays := htakes.receive _ rfl
  have hnone : library.statusError target ⟨200, location, chunks⟩ = none :=
    Library.statusError_of_success rfl
  have hjudge (after : Conversation) :
      judge library limit asked target ⟨200, location, chunks⟩ after =
        (.found chunks.flatten, after) := by
    unfold judge
    simp [readBody_of_length_le hlimit, isTransient, hnone]
  have hattempt : attempt library limit asked userAgent target redirects c =
      (.found chunks.flatten, (c.request ⟨library.text target, userAgent⟩).2) := by
    have hrequest : c.request ⟨library.text target, userAgent⟩ =
        (.response ⟨200, location, chunks⟩,
          (c.request ⟨library.text target, userAgent⟩).2) :=
      Prod.ext hanswer rfl
    unfold attempt
    rw [hrequest, ← hjudge]
    simp only [hstays]
  rw [hattempt]
  exact ⟨rfl, hevents⟩

/-- A document within the limit is fetched whole by a success at the first attempt, in whatever
pieces it arrives, and there is nothing to tell. -/
theorem fetchDocument_of_success (hretries : 0 ≤ settings.fetchRetries)
    (htakes : library.Takes url target)
    (hlimit : (chunks.flatten.length : Int) ≤ settings.byteLimit)
    (hanswers : c.answers = .response ⟨200, location, chunks⟩ :: later) :
    (fetchDocument library settings none url c).1 = .ok chunks.flatten ∧
      (fetchDocument library settings none url c).2.events = c.events := by
  set policy := Policy.ofSettings settings none
  set client := ownClient settings
  obtain ⟨left, hleft⟩ : ∃ left, (policy.retries + 1).toNat = left + 1 :=
    ⟨settings.fetchRetries.toNat, by show (settings.fetchRetries + 1).toNat = _; omega⟩
  obtain ⟨hfound, hevents⟩ := attempt_of_success policy.limit htakes hlimit hanswers url
    client.userAgent client.redirects
  have hfetch : fetchDocument library settings none url c = (.ok chunks.flatten,
      (attempt library policy.limit url client.userAgent target client.redirects c).2) := by
    unfold fetchDocument fetch
    rw [hleft, htakes.read]
    simp only
    unfold attempts
    cases hcase : attempt library policy.limit url client.userAgent target client.redirects c with
    | mk found after =>
      rw [hcase] at hfound
      obtain rfl : found = _ := hfound
      rfl
  rw [hfetch]
  exact ⟨rfl, hevents⟩

end

end Http

end AtMarkup
