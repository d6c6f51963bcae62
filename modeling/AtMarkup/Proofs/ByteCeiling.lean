import Mathlib
import AtMarkup.Http.Fetch

/-!
# The ceiling on bytes

Two readers keep a ceiling on the bytes of a document. `readBounded` asks a stream for chunks, never
for more than is left up to the ceiling, and in the end for one byte to know whether there is more.
`Http.readBody` is handed the pieces of a response and cuts the one that goes beyond. Both give the
bytes up to the ceiling, and both tell when bytes are left behind, however the bytes are cut.

* `Stream.IsSteady`: the stream delivers no empty piece before its end, since a reader takes that
  for the end. `Stream.Serves` says what is left of a stream once it has answered some requests.
* `BoundedReading.ReadsOn`: what a reading is that has come to `p` and goes on along a stream. One
  more chunk keeps it (`ReadsOn.step`), so that the loop does (`readsOn_readBoundedFrom`), by
  induction on what is left of the stream.
* `readBodyFrom_eq`: what the other reader gives, by induction on the pieces.
* `readers_keep_ceiling`: the two together.
-/

namespace AtMarkup

/-! ## Streams -/

namespace Stream

/-- A stream of which no piece but the last is empty. -/
def IsSteady (stream : Stream) : Prop :=
  [] ∉ stream.pieces.dropLast

/-- The bytes of a file come in one piece. -/
theorem isSteady_ofBytes (data : Bytes) : (ofBytes data).IsSteady := by
  simp [IsSteady, ofBytes]

/-- The bytes of a file are those that it holds. -/
theorem bytes_ofBytes (data : Bytes) : (ofBytes data).bytes = data := by
  simp [bytes, ofBytes]

variable {stream : Stream} {count : Int}

/-- Asked for a negative number of bytes, a stream gives the whole of its next piece. -/
theorem read_of_neg (h : count < 0) (piece : Bytes) (later : List Bytes) :
    read count ⟨piece :: later⟩ = (piece, ⟨later⟩) := by
  simp only [read, if_pos h]

/-- What is left of a steady stream is steady. -/
theorem IsSteady.read (h : stream.IsSteady) (count : Int) : (stream.read count).2.IsSteady := by
  obtain ⟨pieces⟩ := stream
  cases pieces with
  | nil => exact h
  | cons piece later =>
    have hlater : [] ∉ later.dropLast := by
      intro hmem
      apply h
      cases later with
      | nil => cases hmem
      | cons next later => exact List.mem_cons_of_mem _ hmem
    unfold Stream.read
    simp only
    split
    · exact hlater
    · split
      · exact hlater
      · rename_i rest hrest
        intro hmem
        cases later with
        | nil => cases hmem
        | cons next later =>
          rcases List.mem_cons.mp hmem with hnil | hmem
          · exact hrest hnil.symm
          · exact hlater hmem

/-- A steady stream that is asked for bytes and gives none has none. -/
theorem IsSteady.bytes_eq_nil (h : stream.IsSteady) (hcount : count ≠ 0)
    (hread : (stream.read count).1 = []) : stream.bytes = [] := by
  obtain ⟨pieces⟩ := stream
  cases pieces with
  | nil => rfl
  | cons piece later =>
    have hpiece : piece = [] := by
      unfold Stream.read at hread
      simp only at hread
      split at hread
      · exact hread
      · split at hread
        · exact hread
        · rcases List.take_eq_nil_iff.mp hread with hzero | hnil
          · omega
          · exact hnil
    cases later with
    | nil => simp [bytes, hpiece]
    | cons next later => exact absurd (hpiece ▸ List.mem_cons_self) h

/-- A stream gives no more bytes than it is asked for. -/
theorem length_read_le (stream : Stream) (h : 0 ≤ count) :
    ((stream.read count).1.length : Int) ≤ count := by
  obtain ⟨pieces⟩ := stream
  cases pieces with
  | nil => exact h
  | cons piece later =>
    unfold Stream.read
    simp only
    split
    · omega
    · split
      · rename_i hdrop
        have hshort : piece.length ≤ count.toNat := List.drop_eq_nil_iff.mp hdrop
        show (piece.length : Int) ≤ count
        omega
      · rw [List.length_take]
        omega

/-- The stream answers the requests one after the other, each with as many bytes as it says, and
then is `rest`. -/
inductive Serves : Stream → List (Int × Nat) → Stream → Prop where
  /-- No request changes nothing. -/
  | nil (stream : Stream) : Serves stream [] stream
  /-- A request is answered, and what is left answers the later ones. -/
  | cons {stream rest : Stream} (count : Int) {later : List (Int × Nat)}
      (h : Serves (stream.read count).2 later rest) :
      Serves stream ((count, (stream.read count).1.length) :: later) rest

/-- One request leaves what is behind the bytes that came. -/
theorem serves_singleton (stream : Stream) (count : Int) :
    stream.Serves [(count, (stream.read count).1.length)] (stream.read count).2 :=
  .cons count (.nil _)

end Stream

/-! ## Reading from a stream -/

namespace BoundedReading

/-- No request goes beyond the limit, `total` bytes of which have come before: each asks for one
byte at least and for no more than is left, but for a last one, which asks for one byte when nothing
is left. -/
def KeepsLimit (limit : Nat) : Nat → List (Int × Nat) → Prop
  | _, [] => True
  | total, (count, came) :: later =>
    (0 < count ∧ count ≤ (limit : Int) - total ∨ count = 1 ∧ total = limit ∧ later = []) ∧
      KeepsLimit limit (total + came) later

/-- What a reading is that has come to `p` and goes on along a stream. -/
structure ReadsOn (limit : Nat) (p : Progress) (stream : Stream) (reading : BoundedReading) :
    Prop where
  /-- Behind the chunks so far, it holds the bytes of the stream up to the limit. -/
  data : reading.data = p.chunks.reverse.flatten ++ stream.bytes.take (limit - p.total)
  /-- It tells whether the stream goes beyond. -/
  truncated : reading.truncated = true ↔ limit < p.total + stream.size
  /-- The requests that it makes keep the limit, and one byte at most is taken off the stream beside
  those up to the limit. -/
  requests : ∃ later rest, reading.requests = p.requests.reverse ++ later ∧
    KeepsLimit limit p.total later ∧ stream.Serves later rest ∧
    rest.bytes = stream.bytes.drop (limit - p.total + 1)

variable {limit : Nat} {p : Progress} {stream : Stream} {count : Int}

/-- Where the stream has no more bytes, the reading ends below the limit. -/
theorem readsOn_extended (hbelow : p.total < limit) (hcount : 0 < count)
    (hallowed : count ≤ (limit : Int) - p.total) (hnone : stream.bytes = []) :
    ReadsOn limit p stream ((p.extended count []).finished false) := by
  have hbytes := stream.bytes_read count
  rw [hnone, List.append_eq_nil_iff] at hbytes
  have hserves := stream.serves_singleton count
  rw [hbytes.1, List.length_nil] at hserves
  refine ⟨?_, ?_, [(count, 0)], _, ?_, ⟨.inl ⟨hcount, hallowed⟩, trivial⟩, hserves, ?_⟩
  · simp [Progress.finished, Progress.extended, hnone]
  · simpa [Progress.finished, Stream.size, hnone] using hbelow.le
  · simp [Progress.finished, Progress.extended]
  · rw [hbytes.2, hnone, List.drop_nil]

/-- At the limit, one byte is asked for to know whether there is more. -/
theorem readsOn_probed (hfull : p.total = limit) (hsteady : stream.IsSteady) :
    ReadsOn limit p stream
      ((p.probed (stream.read 1).1.length).finished (!(stream.read 1).1.isEmpty)) := by
  have hbytes := stream.bytes_read 1
  have htaken := stream.size_read 1
  have hone := stream.length_read_le (show (0 : Int) ≤ 1 by decide)
  have hnone : (stream.read 1).1 = [] → stream.size = 0 := fun hprobe =>
    List.length_eq_zero_iff.mpr (hsteady.bytes_eq_nil (by decide) hprobe)
  refine ⟨?_, ?_, [(1, _)], _, ?_, ⟨.inr ⟨rfl, hfull, rfl⟩, trivial⟩, stream.serves_singleton 1, ?_⟩
  · simp [Progress.finished, Progress.probed, hfull]
  · rw [hfull, Progress.finished, Bool.not_eq_true', ← Bool.not_eq_true, List.isEmpty_iff,
      ← List.length_eq_zero_iff]
    rw [← List.length_eq_zero_iff] at hnone
    omega
  · simp [Progress.finished, Progress.probed]
  · -- The byte that came is the first of the stream; if none came, there was none.
    rw [hfull, Nat.sub_self, Nat.zero_add, ← hbytes]
    cases hprobe : (stream.read 1).1 with
    | nil =>
      have hzero := hnone hprobe
      have hrest : (stream.read 1).2.bytes = [] := by
        apply List.eq_nil_of_length_eq_zero
        show (stream.read 1).2.size = 0
        omega
      rw [hrest]
      rfl
    | cons byte more =>
      have hmore : more = [] := by
        apply List.eq_nil_of_length_eq_zero
        rw [hprobe, List.length_cons] at hone
        omega
      rw [hmore]
      rfl

/-- One more chunk, and then the reading goes on from there. -/
theorem ReadsOn.step {reading : BoundedReading} (hcount : 0 < count)
    (hallowed : count ≤ (limit : Int) - p.total)
    (h : ReadsOn limit (p.extended count (stream.read count).1) (stream.read count).2 reading) :
    ReadsOn limit p stream reading := by
  have hbytes := stream.bytes_read count
  have htaken := stream.size_read count
  have hcame := stream.length_read_le hcount.le
  obtain ⟨hdata, htruncated, later, rest, hrequests, hkeeps, hserves, hrest⟩ := h
  simp only [Progress.extended] at hdata htruncated hrequests hkeeps hrest
  set chunk := (stream.read count).1
  have hleft : limit - p.total = chunk.length + (limit - (p.total + chunk.length)) := by
    omega
  refine ⟨?_, ?_, (count, chunk.length) :: later, rest, ?_, ⟨.inl ⟨hcount, hallowed⟩, hkeeps⟩,
    .cons count hserves, ?_⟩
  · rw [hdata, ← hbytes, hleft, List.take_length_add_append]
    simp
  · rw [htruncated, ← htaken, Nat.add_assoc]
  · rw [hrequests]
    simp
  · rw [hrest, ← hbytes, hleft, Nat.add_assoc, List.drop_length_add_append]

/-- **Loop.** A steady stream is read on up to the limit, whatever the size of the chunks. -/
theorem readsOn_readBoundedFrom {size : Int} (hsize : 0 < size) (hsteady : stream.IsSteady)
    (htotal : p.total ≤ limit) : ReadsOn limit p stream (readBoundedFrom limit size p stream) := by
  induction hleft : stream.size using Nat.strong_induction_on generalizing p stream with
  | _ left ih =>
    subst hleft
    rw [readBoundedFrom]
    split
    · rename_i hbelow
      set count := nextRequest limit size p.total with hrequest
      have hcount : 0 < count := by
        unfold nextRequest at hrequest
        omega
      have hallowed : count ≤ (limit : Int) - p.total := by
        unfold nextRequest at hrequest
        omega
      split
      · rename_i rest hread
        have hnone : stream.bytes = [] := hsteady.bytes_eq_nil hcount.ne' (by rw [hread])
        exact readsOn_extended (by omega) hcount hallowed hnone
      · rename_i byte more rest hread
        have htaken := stream.size_read count
        have hcame := stream.length_read_le hcount.le
        have hrest := hsteady.read count
        refine .step hcount hallowed ?_
        rw [hread] at htaken hcame hrest ⊢
        simp only [List.length_cons] at htaken hcame
        refine ih rest.size (by omega) hrest ?_ rfl
        simp only [Progress.extended, List.length_cons]
        omega
    · exact readsOn_probed (by omega) hsteady

/-- A steady stream is read up to the limit, in chunks of any size that is not negative. -/
theorem readsOn_readBounded {settings : Settings} (given chunkSize : Option Int)
    (hlimit : given.getD settings.byteLimit = limit) (hsettings : 0 < settings.chunkSize)
    (hsize : ∀ size ∈ chunkSize, 0 ≤ size) (hsteady : stream.IsSteady) :
    ReadsOn limit {} stream (readBounded settings given chunkSize stream) := by
  unfold readBounded
  rw [hlimit]
  split
  · exact readsOn_readBoundedFrom hsettings hsteady (Nat.zero_le limit)
  · exact readsOn_readBoundedFrom hsettings hsteady (Nat.zero_le limit)
  · rename_i size hnonzero
    have hpositive : 0 < size := by
      have := hsize size rfl
      have : size ≠ 0 := hnonzero
      omega
    exact readsOn_readBoundedFrom hpositive hsteady (Nat.zero_le limit)

end BoundedReading

/-! ## Reading the body of a response -/

namespace Http

/-- The pieces of a body are read up to the limit, behind what was read before. -/
theorem readBodyFrom_eq {limit total : Nat} (htotal : total ≤ limit) (body chunks : List Bytes) :
    readBodyFrom limit body total chunks =
      (body.reverse.flatten ++ chunks.flatten.take (limit - total),
        decide (limit < total + chunks.flatten.length)) := by
  induction chunks generalizing body total with
  | nil => simpa [readBodyFrom] using htotal
  | cons chunk chunks ih =>
    cases chunk with
    | nil => exact ih htotal body
    | cons byte more =>
      rw [List.flatten_cons, List.length_append, readBodyFrom]
      · set chunk := byte :: more
        split
        · -- The piece is cut, and nothing behind it is looked at.
          rename_i hbeyond
          have hcut : takeBytes (limit - total) chunk = chunk.take (limit - total) := by
            have hleft : (limit - total : Int).toNat = limit - total := by omega
            rw [takeBytes, if_neg (by omega), hleft]
          have hkept : limit - total ≤ chunk.length := by omega
          have hmore : limit < total + (chunk.length + chunks.flatten.length) := by omega
          rw [hcut, List.take_append_of_le_length hkept, decide_eq_true hmore]
          simp
        · rename_i hroom
          have hleft : limit - total = chunk.length + (limit - (total + chunk.length)) := by omega
          rw [ih (by omega), hleft, List.take_length_add_append, Nat.add_assoc]
          simp
      · intro hnil
        cases hnil

/-- A body is read up to the limit, in whatever pieces it arrives. -/
theorem readBody_eq (limit : Nat) (chunks : List Bytes) :
    readBody limit chunks =
      (chunks.flatten.take limit, decide (limit < chunks.flatten.length)) := by
  rw [readBody, readBodyFrom_eq (Nat.zero_le limit)]
  simp

/-- A success gives its body up to the limit, and tells of the rest if there is any. -/
theorem judge_of_success (limit : Nat) (asked : String) {library : Library} (url : library.Url)
    (location : Option String) (chunks : List Bytes) (c : Conversation) :
    judge library limit asked url ⟨200, location, chunks⟩ c =
      (.found (chunks.flatten.take limit),
        if limit < chunks.flatten.length then c.tell (.bodyTruncated asked limit) else c) := by
  have hnone : library.statusError url ⟨200, location, chunks⟩ = none :=
    Library.statusError_of_success rfl
  unfold judge
  simp [readBody_eq, isTransient, hnone]

end Http

/-! ## Both readers -/

/-- **Main result.** A steady stream, read in chunks of any size that is not negative, and the body
of a success in any pieces give the same bytes: those up to the limit. The stream is never asked for
more than is left up to the limit, but for one byte in the end, and one byte at most is taken off it
beyond the limit. Each reader tells that bytes are left behind exactly if there are more than the
limit, and only once. -/
theorem readers_keep_ceiling (limit : Nat) {chunkSize : Option Int}
    (hsize : ∀ size ∈ chunkSize, 0 ≤ size) {stream : Stream} (hsteady : stream.IsSteady)
    (name : String) {chunks : List Bytes} (hchunks : chunks.flatten = stream.bytes)
    (asked : String) (library : Http.Library) (url : library.Url) (location : Option String)
    (c : Http.Conversation) :
    let reading := readNamed .standard name (some limit) chunkSize stream
    reading.value.data = stream.bytes.take (min limit stream.size) ∧
      BoundedReading.KeepsLimit limit 0 reading.value.requests ∧
      (∃ rest, stream.Serves reading.value.requests rest ∧
        rest.bytes = stream.bytes.drop (limit + 1)) ∧
      reading.events = (if limit < stream.size then [.inputTruncated name limit] else []) ∧
      Http.judge library limit asked url ⟨200, location, chunks⟩ c =
        (.found reading.value.data,
          if limit < stream.size then c.tell (.bodyTruncated asked limit) else c) := by
  intro reading
  have hsettings : 0 < Settings.standard.chunkSize := by decide
  obtain ⟨hdata, htruncated, later, rest, hrequests, hkeeps, hserves, hrest⟩ :=
    BoundedReading.readsOn_readBounded (some (limit : Int)) chunkSize rfl hsettings hsize hsteady
  have hread : reading.value.data = stream.bytes.take limit := hdata
  have hlater : reading.value.requests = later := hrequests
  have hfirst : stream.bytes.take (min limit stream.size) = stream.bytes.take limit := by
    rw [← List.take_take, Stream.size, List.take_length]
  have hevents :
      reading.events = if limit < stream.size then [.inputTruncated name limit] else [] := by
    refine ite_congr (propext ?_) (fun _ => rfl) (fun _ => rfl)
    rw [htruncated]
    simp
  have hjudge := Http.judge_of_success limit asked url location chunks c
  rw [hchunks, ← hread, ← Stream.size] at hjudge
  refine ⟨hread.trans hfirst.symm, ?_, ⟨rest, ?_, hrest⟩, hevents, hjudge⟩
  · rwa [hlater]
  · rwa [hlater]

/-- Five bytes in three pieces, read up to three of them in chunks of two, and the same bytes as a
body with an empty piece: three bytes come of each, and each tells of it. -/
theorem readers_keep_ceiling_five_bytes :
    let stream : Stream := ⟨[[1], [2, 3, 4], [5]]⟩
    let reading := readNamed .standard "input" (some 3) (some 2) stream
    let library := Http.Library.literal
    (∀ size ∈ some (2 : Int), 0 ≤ size) ∧ stream.IsSteady ∧
      [[1, 2], [], [3, 4, 5]].flatten = stream.bytes ∧
      reading.value.data = [1, 2, 3] ∧ reading.events = [.inputTruncated "input" 3] ∧
      (∃ rest, stream.Serves reading.value.requests rest ∧ rest.bytes = [5]) ∧
      Http.judge library 3 "http://h/d" "http://h/d" ⟨200, none, [[1, 2], [], [3, 4, 5]]⟩
          ⟨[], [], [], []⟩ =
        (.found [1, 2, 3], ⟨[], [], [], [.bodyTruncated "http://h/d" 3]⟩) := by
  intro stream reading library
  have hsize : ∀ size ∈ some (2 : Int), 0 ≤ size := by decide
  have hsteady : stream.IsSteady := by unfold Stream.IsSteady; decide
  have hchunks : [[1, 2], [], [3, 4, 5]].flatten = stream.bytes := by decide
  obtain ⟨hdata, -, hserves, hevents, hjudge⟩ := readers_keep_ceiling 3 hsize hsteady "input"
    hchunks "http://h/d" library "http://h/d" none ⟨[], [], [], []⟩
  have hthree : reading.value.data = [1, 2, 3] := hdata.trans (by decide)
  refine ⟨hsize, hsteady, hchunks, hthree, hevents.trans (if_pos (by decide)), hserves, ?_⟩
  exact hthree ▸ hjudge

end AtMarkup
