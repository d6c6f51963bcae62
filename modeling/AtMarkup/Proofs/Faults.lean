import Mathlib
import AtMarkup.Proofs.Compiling
import AtMarkup.Proofs.LineBreaks
import AtMarkup.Proofs.Run

/-!
# Where reading breaks off

Of the eight faults of markup five are found at a character, which no grammatical text has at that
place (`Fault.isLocal`). Reading breaks off there, and nothing behind that character has been looked
at: whatever follows, the fault stays. The other three judge a text that has been read to its end.

* `isLocal_of_step`: a step finds local faults only, one lemma for each mode of the reader.
* `exists_prefix_of_run_eq_error`: a run with a fault has it at one of its characters, and so has
  every run along a text that is the same up to and with that character.
* `cases_of_outcome_eq_error`: a document that cannot be read has a local fault, or ends inside a
  tag or without a node, or has several nodes.
* `fault_local_of_parse`: the same for documents with any line ends, given as text or as bytes.
-/

namespace AtMarkup

namespace Markup

/-! ## Local faults -/

/-- Whether a fault is found at a character, and not when the text has ended. -/
def Fault.isLocal : Fault → Bool
  | .unexpectedCharacter | .unmatchedBrace | .tooDeep _ | .badName _ | .badOption _ => true
  | .unexpectedEnd | .noRoot | .severalRoots => false

variable {limit : Int} {p : Progress} {here : Position}

/-- A fault in an option list is about a segment. -/
theorem eq_badOption_of_foldlM {segments : List (List Char)} {options : Tag.Options}
    {fault : Fault} (h : segments.foldlM addOption options = .error fault) :
    ∃ segment, fault = .badOption segment := by
  induction segments generalizing options with
  | nil => cases h
  | cons segment segments ih =>
    rw [List.foldlM_cons] at h
    cases hadd : addOption options segment with
    | ok next =>
      rw [hadd] at h
      exact ih h
    | error first =>
      rw [hadd] at h
      unfold addOption at hadd
      split at hadd
      · cases hadd
      · exact ⟨_, (Except.error.inj h).symm.trans (Except.error.inj hadd).symm⟩

/-- A step in text finds a tag that lies too deep or a brace that closes nothing. -/
theorem isLocal_of_stepText {c : Char} {fault : Fault}
    (h : stepText limit p here c = .error fault) : fault.isLocal = true := by
  unfold stepText at h
  split at h
  · cases h
  · split at h
    · split at h
      · cases h
        rfl
      · cases h
    · split at h
      · unfold closeBlock at h
        split at h
        · cases h
          rfl
        · cases h
      · cases h

/-- A step behind a name finds a character that has no place there. -/
theorem isLocal_of_stepNamed {marker : Position} {kind : String} {c : Char} {fault : Fault}
    (h : stepNamed p marker kind c = .error fault) : fault.isLocal = true := by
  unfold stepNamed at h
  split_ifs at h
  cases h
  rfl

/-- A step in a name finds that the name is none, or what a step behind a name finds. -/
theorem isLocal_of_stepName {marker : Position} {typed : List Char} {c : Char} {fault : Fault}
    (h : stepName p marker typed c = .error fault) : fault.isLocal = true := by
  unfold stepName at h
  simp only at h
  split_ifs at h
  · exact isLocal_of_stepNamed h
  · cases h
    rfl

/-- A step in an option list finds a bad option or a character that has no place there. -/
theorem isLocal_of_stepOptions {marker : Position} {kind : String} {typed : List Char} {c : Char}
    {fault : Fault} (h : stepOptions p marker kind typed c = .error fault) :
    fault.isLocal = true := by
  unfold stepOptions at h
  split at h
  · split at h
    · cases h
    · rename_i other hread
      cases h
      unfold readOptions at hread
      split at hread
      · cases hread
      · obtain ⟨segment, rfl⟩ := eq_badOption_of_foldlM hread
        rfl
  · split at h
    · cases h
      rfl
    · cases h

/-- A step behind an option list finds a character that has no place there. -/
theorem isLocal_of_stepOptioned {marker : Position} {kind : String} {options : Tag.Options}
    {c : Char} {fault : Fault} (h : stepOptioned p marker kind options c = .error fault) :
    fault.isLocal = true := by
  unfold stepOptioned at h
  split_ifs at h
  cases h
  rfl

/-- **Step.** A step finds local faults only. -/
theorem isLocal_of_step {c : Char} {fault : Fault} (h : step limit p here c = .error fault) :
    fault.isLocal = true := by
  unfold step at h
  split at h
  · exact isLocal_of_stepText h
  · cases h
  · exact isLocal_of_stepName h
  · exact isLocal_of_stepNamed h
  · exact isLocal_of_stepOptions h
  · exact isLocal_of_stepOptioned h

/-! ## Runs -/

/-- A run finds local faults only. -/
theorem isLocal_of_run {text : List Char} {located : LocatedFault}
    (h : run limit p here text = .error located) : located.fault.isLocal = true := by
  induction text generalizing p here with
  | nil => cases h
  | cons c text ih =>
    cases hstep : step limit p here c with
    | ok q =>
      rw [run_cons_of_ok hstep] at h
      exact ih h
    | error first =>
      rw [run_cons_of_error hstep] at h
      cases h
      exact isLocal_of_step hstep

/-- **Run.** A run with a fault has it at a character of the text, and every text that starts with
the same characters up to and with that one has the same fault there. -/
theorem exists_prefix_of_run_eq_error {text : List Char} {located : LocatedFault}
    (h : run limit p here text = .error located) :
    ∃ offset < text.length, located.position = here.afterText (text.take offset) ∧
      ∀ more, run limit p here (text.take (offset + 1) ++ more) = .error located := by
  induction text generalizing p here with
  | nil => cases h
  | cons c text ih =>
    cases hstep : step limit p here c with
    | ok q =>
      rw [run_cons_of_ok hstep] at h
      obtain ⟨offset, hoffset, hposition, hmore⟩ := ih h
      refine ⟨offset + 1, Nat.succ_lt_succ hoffset, hposition, fun more => ?_⟩
      rw [List.take_succ_cons, List.cons_append, run_cons_of_ok hstep]
      exact hmore more
    | error first =>
      rw [run_cons_of_error hstep] at h
      refine ⟨0, Nat.zero_lt_succ _, ?_, fun more => ?_⟩
      · rw [← Except.error.inj h]
        rfl
      · rw [List.take_succ_cons, List.cons_append, run_cons_of_error hstep, h]

/-! ## Documents -/

/-- Judging a text that has been read finds that it ends inside a tag or has no node, and then
where it stops, or that it has several nodes. -/
theorem cases_of_finish_eq_error {stop : Position} {located : LocatedFault}
    (h : finish p stop = .error located) :
    ((located.fault = .unexpectedEnd ∨ located.fault = .noRoot) ∧ located.position = stop) ∨
      located.fault = .severalRoots := by
  unfold finish at h
  split at h
  · rename_i fault htop
    obtain rfl := Except.error.inj h
    unfold topNodes at htop
    split at htop <;> cases htop
    exact .inl ⟨.inl rfl, rfl⟩
  · rename_i nodes htop
    unfold soleNode at h
    split at h
    · obtain rfl := Except.error.inj h
      exact .inl ⟨.inr rfl, rfl⟩
    · cases h
    · obtain rfl := Except.error.inj h
      exact .inr rfl

/-- A document that cannot be read has a local fault, and has it whatever follows the character
where it is, or its fault is found at the end of the text, or that is a second root. -/
theorem cases_of_outcome_eq_error {text : List Char} {located : LocatedFault}
    (h : (readUnified limit text).outcome = .error located) :
    (located.fault.isLocal = true ∧ ∃ offset < text.length,
      located.position = Position.origin.afterText (text.take offset) ∧
      ∀ more, (readUnified limit (text.take (offset + 1) ++ more)).outcome = .error located) ∨
    ((located.fault = .unexpectedEnd ∨ located.fault = .noRoot) ∧
      located.position = Position.origin.afterText text) ∨
    located.fault = .severalRoots := by
  rw [readUnified, outcome_read] at h
  cases hrun : run limit .start .origin text with
  | error first =>
    rw [hrun] at h
    obtain rfl := Except.error.inj h
    obtain ⟨offset, hoffset, hposition, hmore⟩ := exists_prefix_of_run_eq_error hrun
    refine .inl ⟨isLocal_of_run hrun, offset, hoffset, hposition, fun more => ?_⟩
    rw [readUnified, outcome_read, hmore]
    rfl
  | ok q =>
    rw [hrun] at h
    exact .inr (cases_of_finish_eq_error h)

end Markup

open Markup

/-- **Faults are local.** Let `text` be the characters of a document, their line ends unified.
Whatever depth is asked for, a fault of its markup is of one of three sorts:

* a character stands in no place of the grammar, and then any document that starts like this one,
  up to and with that character, is rejected for the same fault at the same position;
* the text ends inside a tag or without a node, and then the position is behind its last character;
* there is more than one node at the top. -/
theorem fault_local_of_parse {frames : Nat} {asked : Int} {source : Source} {located : LocatedFault}
    (h : (parse frames asked source).value = .error (.markup located)) :
    let text := Text.unifyLineBreaks source.characters
    (located.fault.isLocal = true ∧
      ∃ offset : Nat, offset < text.length ∧ located.position.offset = offset ∧
        ∀ more : String,
          (parse frames asked (.text (String.ofList (text.take (offset + 1)) ++ more))).value =
            .error (.markup located)) ∨
    ((located.fault = .unexpectedEnd ∨ located.fault = .noRoot) ∧
      located.position.offset = text.length) ∨
    located.fault = .severalRoots := by
  intro text
  have hunified : '\r' ∉ text := Text.not_mem_unifyLineBreaks _
  rcases cases_of_outcome_eq_error (parse_eq_markup_iff.mp h) with
    ⟨hlocal, offset, hoffset, hposition, hmore⟩ | ⟨hfault, hposition⟩ | hfault
  · refine .inl ⟨hlocal, offset, hoffset, ?_, fun more => parse_eq_markup_iff.mpr ?_⟩
    · rw [hposition, Position.offset_afterText_origin, List.length_take,
        Nat.min_eq_left hoffset.le]
    · have hprefix : '\r' ∉ text.take (offset + 1) :=
        fun hmem => hunified (List.mem_of_mem_take hmem)
      rw [readMarkup, Source.characters, String.toList_append, String.toList_ofList,
        Text.unifyLineBreaks_append_of_not_mem hprefix]
      exact hmore _
  · refine .inr (.inl ⟨hfault, ?_⟩)
    rw [hposition, Position.offset_afterText_origin]
  · exact .inr (.inr hfault)

/-- An option list in the second row is bad where it is closed, whatever comes instead of the rest
of the document. -/
theorem fault_local_of_parse_second_row :
    (parse 1000 7 (.text "@main\x7b\r\n @link(uri)\x7bx\x7d \x7d")).value =
        .error (.markup ⟨.badOption "uri", ⟨17, 1, 10⟩⟩) ∧
      ∀ more : String, (parse 1000 7 (.text ("@main\x7b\n @link(uri)" ++ more))).value =
        .error (.markup ⟨.badOption "uri", ⟨17, 1, 10⟩⟩) := by
  have hparse : (parse 1000 7 (.text "@main\x7b\r\n @link(uri)\x7bx\x7d \x7d")).value =
      .error (.markup ⟨.badOption "uri", ⟨17, 1, 10⟩⟩) := by
    cbv
  refine ⟨hparse, fun more => ?_⟩
  rcases fault_local_of_parse hparse with
    ⟨-, offset, -, hoffset, hmore⟩ | ⟨hfault | hfault, -⟩ | hfault
  · obtain rfl : offset = 17 := (Int.ofNat.inj hoffset).symm
    have hprefix : String.ofList ((Text.unifyLineBreaks (Source.characters
        (.text "@main\x7b\r\n @link(uri)\x7bx\x7d \x7d"))).take 18) =
        "@main\x7b\n @link(uri)" := by
      cbv
    rw [← hprefix]
    exact hmore more
  · cases hfault
  · cases hfault
  · cases hfault

end AtMarkup
