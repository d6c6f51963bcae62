import Mathlib
import AtMarkup.Document
import AtMarkup.Proofs.Coordinates
import AtMarkup.Proofs.Descent
import AtMarkup.Proofs.Faults

/-!
# One pass over the text

A document that is read by descent is gone over once (`Markup.Descent`): the procedures end, each
turn of their loops moves the cursor forward, each tag begins behind those around it, and the cursor
comes to each character once and to the end once at most (`Scan.IsSinglePass`).

* `stopsRight_readUnified`: the whole text has been read when the outcome is a tree or is about the
  whole, and any other fault is where the reader stops.
* `single_pass`: descent comes to what reading the document comes to, and stops there.
-/

namespace AtMarkup

namespace Markup

variable {limit : Int} {p q : Progress} {here : Position}

/-! ## Where the reader stops -/

/-- A run without fault is read to its end. -/
theorem stop_read_of_run_eq_ok {text : List Char} (h : run limit p here text = .ok q) :
    (read limit p here text).stop = here.afterText text := by
  induction text generalizing p here with
  | nil => rfl
  | cons c text ih =>
    cases hstep : step limit p here c with
    | ok next =>
      rw [run_cons_of_ok hstep] at h
      rw [read, hstep]
      exact ih h
    | error fault =>
      rw [run_cons_of_error hstep] at h
      cases h

/-- A run with a fault is read up to it. -/
theorem stop_read_of_run_eq_error {text : List Char} {located : LocatedFault}
    (h : run limit p here text = .error located) :
    (read limit p here text).stop = located.position := by
  induction text generalizing p here with
  | nil => cases h
  | cons c text ih =>
    cases hstep : step limit p here c with
    | ok next =>
      rw [run_cons_of_ok hstep] at h
      rw [read, hstep]
      exact ih h
    | error fault =>
      rw [run_cons_of_error hstep] at h
      rw [read, hstep, ← Except.error.inj h]

/-- Where a reading stops: behind the text if a tree comes of it or a fault of the whole, and else
at the character with the fault. -/
def Reading.StopsRight (reading : Reading) (length : Nat) : Prop :=
  match reading.outcome with
  | .ok _ | .error ⟨.noRoot, _⟩ | .error ⟨.severalRoots, _⟩ | .error ⟨.unexpectedEnd, _⟩ =>
    reading.stop.offset = length
  | .error ⟨_, position⟩ => position = reading.stop ∧ reading.stop.offset < length

/-- A document is read to where it has to be. -/
theorem stopsRight_readUnified (limit : Int) (text : List Char) :
    (readUnified limit text).StopsRight text.length := by
  unfold Reading.StopsRight
  cases hrun : run limit .start .origin text with
  | error located =>
    have houtcome : (readUnified limit text).outcome = .error located := by
      rw [readUnified, outcome_read, hrun]
      rfl
    have hstop : located.position = (readUnified limit text).stop :=
      (stop_read_of_run_eq_error hrun).symm
    have hbelow : located.position.offset < text.length := by
      obtain ⟨offset, hoffset, hposition, -⟩ := exists_prefix_of_run_eq_error hrun
      rw [hposition, Position.offset_afterText_origin, List.length_take]
      omega
    have hlocal := isLocal_of_run hrun
    obtain ⟨fault, position⟩ := located
    rw [houtcome, ← hstop]
    cases fault with
    | noRoot | severalRoots | unexpectedEnd => cases hlocal
    | _ => exact ⟨rfl, hbelow⟩
  | ok q =>
    have houtcome : (readUnified limit text).outcome =
        finish q (Position.origin.afterText text) := by
      rw [readUnified, outcome_read, hrun]
      rfl
    have hstop : (readUnified limit text).stop.offset = text.length := by
      rw [readUnified, stop_read_of_run_eq_ok hrun, Position.offset_afterText_origin]
    rw [houtcome]
    cases hfinish : finish q (Position.origin.afterText text) with
    | ok root => exact hstop
    | error located =>
      obtain ⟨fault, position⟩ := located
      rcases cases_of_finish_eq_error hfinish with ⟨hfault | hfault, -⟩ | hfault
      all_goals
        cases hfault
        exact hstop

example : (readUnified 9 "@a\x7b\x7d\x7d tail".toList).stop = ⟨4, 0, 4⟩ := by
  cbv

end Markup

open Markup

/-- **One pass.** Whatever depth is asked for, reading the unified text of a document by descent
comes to an end, and to what reading it comes to. The text is gone over once: each turn of a loop
moves the cursor forward, each tag begins behind those around it, and the moves come to each
character in order, and to the end once at most. The cursor stops behind the last character if a
tree comes of it or the fault is one of the whole text, and else at the fault. -/
theorem single_pass (frames : Nat) (asked : Int) (text : List Char) :
    let unified := Text.unifyLineBreaks text
    let descent := parseRoot (effectiveDepth frames asked) unified
    descent.reading = readMarkup frames asked text ∧ descent.scan.IsSinglePass unified ∧
      descent.reading.StopsRight unified.length := by
  intro unified descent
  obtain ⟨hsingle, hreading⟩ := parseRoot_keeps (effectiveDepth frames asked) unified
  refine ⟨hreading, hsingle, ?_⟩
  rw [hreading]
  exact stopsRight_readUnified _ _

example : (parseRoot 9 "@a\x7b@b\x7b\x7d\x7d".toList).scan.tags =
    [[⟨3, 0, 3⟩, ⟨0, 0, 0⟩], [⟨0, 0, 0⟩]] := by
  cbv

end AtMarkup
