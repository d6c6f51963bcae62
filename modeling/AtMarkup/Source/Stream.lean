import AtMarkup.Event
import AtMarkup.Settings.Basic

/-!
# Byte streams and bounded reading

A stream delivers bytes in pieces.  Asked for `n` bytes it gives the first `n` of the next piece,
or what there is of it; asked for a negative number it gives the whole piece.  An answer without
bytes means that there are none to be had.

`readBounded` reads a stream in chunks up to a limit.  When the limit is reached it asks for one
byte more, only to know whether something was left behind.
-/

namespace AtMarkup

/-- Bytes. -/
abbrev Bytes := List UInt8

/-- A stream, as the pieces it has yet to deliver. -/
structure Stream where
  /-- The pieces, first one first. -/
  pieces : List Bytes
  deriving DecidableEq, Repr, Inhabited

namespace Stream

/-- A stream that holds its bytes in one piece, as a file does. -/
def ofBytes (data : Bytes) : Stream := ⟨[data]⟩

/-- The bytes that the stream has yet to deliver. -/
def bytes (stream : Stream) : Bytes := stream.pieces.flatten

/-- How many bytes the stream has yet to deliver. -/
def size (stream : Stream) : Nat := stream.bytes.length

/-- Takes at most `count` bytes of the next piece, all of it when `count` is negative. -/
def read (count : Int) (stream : Stream) : Bytes × Stream :=
  match stream.pieces with
  | [] => ([], stream)
  | piece :: later =>
    if count < 0 then (piece, ⟨later⟩)
    else
      match piece.drop count.toNat with
      | [] => (piece, ⟨later⟩)
      | rest => (piece.take count.toNat, ⟨rest :: later⟩)

/-- What is read is taken off the stream. -/
theorem bytes_read (count : Int) (stream : Stream) :
    (stream.read count).1 ++ (stream.read count).2.bytes = stream.bytes := by
  obtain ⟨pieces⟩ := stream
  cases pieces with
  | nil => rfl
  | cons piece later =>
    unfold read
    simp only
    split
    · simp [bytes]
    · split
      · simp [bytes]
      · simp [bytes, ← List.append_assoc]

/-- Reading takes as many bytes off the stream as it gives. -/
theorem size_read (count : Int) (stream : Stream) :
    (stream.read count).1.length + (stream.read count).2.size = stream.size := by
  rw [size, size, ← bytes_read count stream, List.length_append]

end Stream

/-! ## Bounded reading -/

/-- What a bounded reading gave, and how it went about it. -/
structure BoundedReading where
  /-- The bytes. -/
  data : Bytes
  /-- Each request: how many bytes were asked for, and how many came. -/
  requests : List (Int × Nat)
  /-- Whether bytes were left behind. -/
  truncated : Bool
  deriving DecidableEq, Repr, Inhabited

/-- A reading under way: chunks and requests are kept latest first. -/
structure BoundedReading.Progress where
  /-- The chunks so far. -/
  chunks : List Bytes := []
  /-- How many bytes they hold. -/
  total : Nat := 0
  /-- The requests so far. -/
  requests : List (Int × Nat) := []
  deriving DecidableEq, Repr, Inhabited

namespace BoundedReading.Progress

/-- The progress after one more request. -/
def extended (p : Progress) (count : Int) (chunk : Bytes) : Progress :=
  ⟨chunk :: p.chunks, p.total + chunk.length, (count, chunk.length) :: p.requests⟩

/-- The progress after a request whose bytes are not kept. -/
def probed (p : Progress) (came : Nat) : Progress :=
  { p with requests := (1, came) :: p.requests }

/-- The reading that the progress amounts to. -/
def finished (p : Progress) (truncated : Bool) : BoundedReading :=
  ⟨p.chunks.reverse.flatten, p.requests.reverse, truncated⟩

end BoundedReading.Progress

/-- How many bytes to ask for next: a chunk, or what is left up to the limit. -/
def nextRequest (limit size : Int) (total : Nat) : Int :=
  min size (limit - total)

/-- Reads on in chunks of `size` bytes until `limit` bytes are read or none come. -/
def readBoundedFrom (limit size : Int) (p : BoundedReading.Progress) (stream : Stream) :
    BoundedReading :=
  if p.total < limit then
    match _h : stream.read (nextRequest limit size p.total) with
    | ([], _) => (p.extended (nextRequest limit size p.total) []).finished false
    | (byte :: more, rest) =>
      readBoundedFrom limit size (p.extended (nextRequest limit size p.total) (byte :: more)) rest
  else
    let probe := (stream.read 1).1
    (p.probed probe.length).finished (!probe.isEmpty)
termination_by stream.size
decreasing_by
  have hsize := Stream.size_read (nextRequest limit size p.total) stream
  rw [_h] at hsize
  simp only [List.length_cons] at hsize
  omega

/-- Reads a stream up to a limit, in chunks of the given size; zero counts as not given. -/
def readBounded (settings : Settings) (limit chunkSize : Option Int) (stream : Stream) :
    BoundedReading :=
  let size := match chunkSize with
    | none | some 0 => settings.chunkSize
    | some size => size
  readBoundedFrom (limit.getD settings.byteLimit) size {} stream

/-- Reads a stream of the given name, and tells when bytes are left behind. -/
def readNamed (settings : Settings) (name : String) (limit chunkSize : Option Int)
    (stream : Stream) : Logged BoundedReading :=
  let reading := readBounded settings limit chunkSize stream
  ⟨reading,
    if reading.truncated then [.inputTruncated name (limit.getD settings.byteLimit)] else []⟩

end AtMarkup
