import Mathlib
import AtMarkup.Proofs.BoundedFetch
import AtMarkup.Proofs.CommandEffects
import AtMarkup.Proofs.PathText

/-!
# Errors that are not caught

A run of the command either returns a status or ends with an error that it does not catch. Which of
the two it is, and which status, depends on what is wrong, and all that can be wrong is listed here
(`failures_accounted`).

* `World.InputFault`: what keeps the command from getting its document. It is complete
  (`value_load_eq_error_iff`): the standard input, a file or a URL, and of these the last two can be
  wrong in a way that is an error of the source, or in one that is not.
* `World.Fault`: what has the command fail. Beside such faults of the input these are a level for
  the log that does not exist, and an output that cannot be shown or written.
* `Reports`: what a run that returns makes of its document.

A path is refused as none exactly if it is written with a NUL character. A fetch ends for want of a
pause only with more retries than a pause can be doubled.
-/

namespace AtMarkup

namespace Cli

/-! ## What can be wrong with the input -/

/-- The trails of the attempts to get the document at a URL, of which `last` is the last one. -/
def World.Tries (settings : Settings) (world : World) (location : String)
    (failed : List (Http.Trail world.library)) (last : Http.Trail world.library) : Prop :=
  ∃ target, world.library.read location = .ok target ∧
    Http.Pursuit (.ofSettings settings none) Http.redirectLimit location settings.userAgent target
      (Http.absentDocument location) 0 settings.fetchRetries.toNat { answers := world.answers }
      (failed ++ [last])
      (Http.fetchDocument world.library settings none location { answers := world.answers })

/-- What keeps the command from getting the document at a location. -/
inductive World.InputFault (settings : Settings) (world : World) : String → LoadError → Prop where
  /-- The standard input breaks. -/
  | stdin {error : SystemError} (hbreaks : world.stdin.Breaks settings error) :
      World.InputFault settings world "-" (.uncaught (.file (.system error none)))
  /-- A path with a NUL character is none. -/
  | noPath {location : String} (hpath : IsPathName location) (hnul : '\x00' ∈ location.toList) :
      World.InputFault settings world location (.uncaught (.file .embeddedNul))
  /-- There is nothing at a path. -/
  | noFile {location : String} {error : SystemError} {named : Option Path}
      (hpath : IsPathName location)
      (hfails : world.files.FailsToRead settings (.ofString location) (.system error named))
      (hnumber : error.number = SystemError.notFound.number) :
      World.InputFault settings world location (.source (.noFile (.ofString location)))
  /-- What there is at a path cannot be read. -/
  | unreadable {location : String} {error : SystemError} {named : Option Path}
      (hpath : IsPathName location)
      (hfails : world.files.FailsToRead settings (.ofString location) (.system error named))
      (hnumber : error.number ≠ SystemError.notFound.number) :
      World.InputFault settings world location
        (.source (.unreadable (.ofString location) (.system error named)))
  /-- There may be no attempt to get what is at a URL. -/
  | untried {location : String} (hurl : isUrl location = true)
      (hretries : settings.fetchRetries < 0) :
      World.InputFault settings world location (.source (.gaveUp location none))
  /-- A URL cannot be asked for. -/
  | noUrl {location : String} {error : Http.UrlError} (hurl : isUrl location = true)
      (hretries : 0 ≤ settings.fetchRetries) (hread : world.library.read location = .error error) :
      World.InputFault settings world location (.uncaught (.url error))
  /-- The way from a URL leads to what cannot be asked for. -/
  | refused {location : String} {failed : List (Http.Trail world.library)}
      {last : Http.Trail world.library} {error : Http.UrlError} (hurl : isUrl location = true)
      (hretries : 0 ≤ settings.fetchRetries) (htries : world.Tries settings location failed last)
      (hlast : last.IsRefused error) :
      World.InputFault settings world location (.uncaught (.url error))
  /-- The way from a URL leads to where nothing is. -/
  | absent {location : String} {failed : List (Http.Trail world.library)}
      {last : Http.Trail world.library} (hurl : isUrl location = true)
      (hretries : 0 ≤ settings.fetchRetries) (htries : world.Tries settings location failed last)
      (hlast : last.IsAbsent) :
      World.InputFault settings world location (.source (Http.absentDocument location))
  /-- All retries have failed as well. -/
  | gaveUp {location cause : String} {failed : List (Http.Trail world.library)}
      {last : Http.Trail world.library} (hurl : isUrl location = true)
      (htries : world.Tries settings location failed last)
      (hused : failed.length = settings.fetchRetries)
      (hlast : last.outcome settings.byteLimit location = .failed cause) :
      World.InputFault settings world location (.source (.gaveUp location cause))
  /-- There are retries left, but no pause before the next. -/
  | endlessPause {location : String} {failed : List (Http.Trail world.library)}
      {last : Http.Trail world.library} (hurl : isUrl location = true)
      (htries : world.Tries settings location failed last)
      (hlength : failed.length = Http.doublingLimit + 1)
      (hmore : failed.length < settings.fetchRetries) (hlast : last.Fails) :
      World.InputFault settings world location (.uncaught .endlessPause)

section

variable {settings : Settings} {world : World} {location : String}

theorem value_load_of_url (hurl : isUrl location = true) :
    (load settings world location).value =
      (Http.fetchDocument world.library settings none location
        { answers := world.answers }).1.mapError .ofFetchError := by
  have hdash : (location == "-") = false := by
    rw [beq_eq_false_iff_ne]
    rintro rfl
    exact absurd hurl (by decide)
  unfold load
  rw [hdash, hurl]
  rfl

/-- A fetch of the document at a URL that can be read tries at least once. -/
theorem exists_tries (hretries : 0 ≤ settings.fetchRetries) {target : world.library.Url}
    (hread : world.library.read location = .ok target) :
    ∃ failed last, world.Tries settings location failed last := by
  obtain ⟨trails, hpursuit⟩ :=
    Http.exists_pursuit_fetchDocument hretries hread none { answers := world.answers }
  obtain ⟨failed, last, rfl, -⟩ := hpursuit.exists_eq_append
  exact ⟨failed, last, target, hread, hpursuit⟩

theorem World.Tries.ends {failed : List (Http.Trail world.library)}
    {last : Http.Trail world.library} (h : world.Tries settings location failed last) :
    failed.length ≤ settings.fetchRetries.toNat ∧
      (failed = [] ∨ failed.length ≤ Http.doublingLimit + 1) ∧
      Http.Ends location (Http.absentDocument location) failed.length
        (settings.fetchRetries.toNat - failed.length) (last.outcome settings.byteLimit location)
        (Http.fetchDocument world.library settings none location
          { answers := world.answers }).1 := by
  obtain ⟨target, -, hpursuit⟩ := h
  obtain ⟨hleft, hdoubled, hends⟩ := hpursuit.ends_of_append
  rw [Nat.zero_add] at hdoubled hends
  exact ⟨hleft, hdoubled, hends⟩

theorem fst_fetchDocument_of_noUrl (hretries : 0 ≤ settings.fetchRetries) {error : Http.UrlError}
    (hread : world.library.read location = .error error) (c : Http.Conversation) :
    (Http.fetchDocument world.library settings none location c).1 = .error (.url error) := by
  have hcount : ∃ left, (settings.fetchRetries + 1).toNat = left + 1 :=
    ⟨settings.fetchRetries.toNat, by omega⟩
  obtain ⟨left, hleft⟩ := hcount
  unfold Http.fetchDocument Http.fetch
  rw [show (Http.Policy.ofSettings settings none).retries = settings.fetchRetries from rfl, hleft,
    hread]
  rfl

/-- With fewer retries than none there is no attempt. -/
theorem fst_fetchDocument_of_retries_neg (hretries : settings.fetchRetries < 0)
    (c : Http.Conversation) :
    (Http.fetchDocument world.library settings none location c).1 =
      .error (.source (.gaveUp location none)) := by
  have huntried : Http.fetchDocument world.library settings none location c =
      (.error (.source (.gaveUp location none)), c) := Http.fetch_of_retries_neg hretries _ _ _ c
  rw [huntried]

/-- What is wrong with the standard input is an input fault. -/
theorem value_load_stdin_eq_error_iff {error : LoadError} :
    (load settings world "-").value = .error error ↔ world.InputFault settings "-" error := by
  have hload : (load settings world "-").value =
      (world.stdin.read settings "<stdin>" none).value.mapError .ofSystemError := rfl
  rw [hload]
  constructor
  · intro h
    cases hread : (world.stdin.read settings "<stdin>" none).value with
    | ok data =>
      rw [hread] at h
      cases h
    | error fault =>
      rw [hread] at h
      obtain rfl := Except.error.inj h
      exact .stdin (Input.value_read_eq_error_iff.mp hread)
  · generalize hdash : "-" = location
    intro h
    cases h with
    | stdin hbreaks =>
      rw [Input.value_read_eq_error_iff.mpr hbreaks]
      rfl
    | noPath hpath | noFile hpath | unreadable hpath => exact absurd hdash.symm hpath.ne_stdin
    | untried hurl | noUrl hurl | refused hurl | absent hurl | gaveUp hurl | endlessPause hurl =>
      subst hdash
      exact absurd hurl (by decide)

/-- What is wrong with a file is an input fault. -/
theorem value_load_path_eq_error_iff (hpath : IsPathName location) {error : LoadError} :
    (load settings world location).value = .error error ↔
      world.InputFault settings location error := by
  have hload : (load settings world location).value =
      (readPath settings world.files (.ofString location) none).value.mapError .ofPathError := by
    rw [load_of_isPathName hpath]
    rfl
  have hnamed : '\x00' ∈ (Path.ofString location).text.toList ↔ '\x00' ∈ location.toList :=
    Path.mem_text_ofString_iff (by decide) (by decide)
  have hpathError {cause : FileError}
      (hfails : world.files.FailsToRead settings (.ofString location) cause) :
      (load settings world location).value =
        .error (.ofPathError (.ofFileError (.ofString location) cause)) := by
    rw [hload, value_readPath_eq_error_iff.mpr ⟨cause, hfails, rfl⟩]
    rfl
  constructor
  · intro h
    cases hread : (readPath settings world.files (.ofString location) none).value with
    | ok data =>
      rw [hload, hread] at h
      cases h
    | error fault =>
      obtain ⟨cause, hfails, rfl⟩ := value_readPath_eq_error_iff.mp hread
      rw [hpathError hfails] at h
      obtain rfl := Except.error.inj h
      by_cases hnul : '\x00' ∈ location.toList
      · obtain rfl := hfails.eq_embeddedNul (hnamed.mpr hnul)
        exact .noPath hpath hnul
      · obtain ⟨error, named, rfl⟩ := hfails.eq_system (hnamed.not.mpr hnul)
        by_cases hnumber : error.number = SystemError.notFound.number
        · have hsource : PathError.ofFileError (.ofString location) (.system error named) =
              .source (.noFile (.ofString location)) := if_pos hnumber
          rw [hsource]
          exact .noFile hpath hfails hnumber
        · have hsource : PathError.ofFileError (.ofString location) (.system error named) =
              .source (.unreadable (.ofString location) (.system error named)) := if_neg hnumber
          rw [hsource]
          exact .unreadable hpath hfails hnumber
  · intro h
    cases h with
    | stdin hbreaks => exact absurd rfl hpath.ne_stdin
    | noPath _ hnul =>
      exact hpathError (.unopened (FileSystem.read?_ofString_eq_embeddedNul_iff.mpr hnul))
    | noFile _ hfails hnumber =>
      rw [hpathError hfails, PathError.ofFileError, if_pos hnumber]
      rfl
    | unreadable _ hfails hnumber =>
      rw [hpathError hfails, PathError.ofFileError, if_neg hnumber]
      rfl
    | untried hurl | noUrl hurl | refused hurl | absent hurl | gaveUp hurl | endlessPause hurl =>
      cases hurl.symm.trans hpath.not_url

/-- What is wrong with a URL is an input fault. -/
theorem inputFault_of_url (hurl : isUrl location = true) {error : LoadError}
    (h : (load settings world location).value = .error error) :
    world.InputFault settings location error := by
  rw [value_load_of_url hurl] at h
  by_cases hretries : 0 ≤ settings.fetchRetries
  · cases hread : world.library.read location with
    | error error' =>
      rw [fst_fetchDocument_of_noUrl hretries hread] at h
      obtain rfl := Except.error.inj h
      exact .noUrl hurl hretries hread
    | ok target =>
      obtain ⟨failed, last, htries⟩ := exists_tries hretries hread
      obtain ⟨hleft, hdoubled, hends⟩ := htries.ends
      rcases last.outcome_cases settings.byteLimit location with
        ⟨response, hfound⟩ | habsent | ⟨error', hrefused⟩ | ⟨cause, hlast⟩
      · rw [hfound.outcome_eq] at hends
        rw [hends.eq_of_found] at h
        cases h
      · rw [habsent.outcome_eq] at hends
        rw [hends.eq_of_missing] at h
        obtain rfl := Except.error.inj h
        exact .absent hurl hretries htries habsent
      · rw [(hends.eq_url_iff error').mpr hrefused.outcome_eq] at h
        obtain rfl := Except.error.inj h
        exact .refused hurl hretries htries hrefused
      · have hfails : last.Fails := (Http.Trail.fails_iff _ _).mpr ⟨cause, hlast⟩
        rw [hlast] at hends
        rcases hends.cases_of_failed with ⟨hused, houtcome⟩ | ⟨hmore, hmade, houtcome⟩
        · rw [houtcome] at h
          obtain rfl := Except.error.inj h
          exact .gaveUp hurl htries (by omega) hlast
        · rw [houtcome] at h
          obtain rfl := Except.error.inj h
          have hsome : failed ≠ [] := by
            rintro rfl
            simp at hmade
          have hlength := hdoubled.resolve_left hsome
          exact .endlessPause hurl htries (by omega) (by omega) hfails
  · rw [fst_fetchDocument_of_retries_neg (not_le.mp hretries)] at h
    obtain rfl := Except.error.inj h
    exact .untried hurl (not_le.mp hretries)

/-- An input fault of a URL keeps the document from being had. -/
theorem World.InputFault.value_load_of_url (hurl : isUrl location = true) {error : LoadError}
    (h : world.InputFault settings location error) :
    (load settings world location).value = .error error := by
  rw [Cli.value_load_of_url hurl]
  cases h with
  | stdin => cases hurl
  | noPath hpath | noFile hpath | unreadable hpath => cases hurl.symm.trans hpath.not_url
  | untried _ hretries =>
    rw [fst_fetchDocument_of_retries_neg hretries]
    rfl
  | noUrl _ hretries hread =>
    rw [fst_fetchDocument_of_noUrl hretries hread]
    rfl
  | refused _ _ htries hlast =>
    rw [(htries.ends.2.2.eq_url_iff _).mpr hlast.outcome_eq]
    rfl
  | absent _ _ htries hlast =>
    have hends := htries.ends.2.2
    rw [hlast.outcome_eq] at hends
    rw [hends.eq_of_missing]
    rfl
  | gaveUp _ htries hused hlast =>
    have hends := htries.ends.2.2
    rw [hlast] at hends
    rcases hends.cases_of_failed with ⟨-, houtcome⟩ | ⟨hmore, -⟩
    · rw [houtcome]
      rfl
    · omega
  | endlessPause _ htries hlength hmore hlast =>
    obtain ⟨cause, hcause⟩ := (Http.Trail.fails_iff settings.byteLimit location).mp hlast
    have hends := htries.ends.2.2
    rw [hcause] at hends
    rcases hends.cases_of_failed with ⟨hused, -⟩ | ⟨-, -, houtcome⟩
    · omega
    · rw [houtcome]
      rfl

/-- **Inversion.** All that can be wrong with the input. -/
theorem value_load_eq_error_iff {error : LoadError} :
    (load settings world location).value = .error error ↔
      world.InputFault settings location error := by
  by_cases hdash : location = "-"
  · subst hdash
    exact value_load_stdin_eq_error_iff
  · cases hurl : isUrl location with
    | false => exact value_load_path_eq_error_iff ⟨hdash, hurl⟩
    | true => exact ⟨inputFault_of_url hurl, fun h => h.value_load_of_url hurl⟩

end

/-! ## How a run ends -/

/-- What has the command fail. -/
inductive World.Fault (settings : Settings) (world : World) (arguments : Arguments) :
    Uncaught → Prop where
  /-- The log is set to a level that does not exist. -/
  | log (hlevel : leastShown? settings arguments = none) :
      World.Fault settings world arguments (.unknownLevel settings.logLevel)
  /-- Something is wrong with the input that is no error of the source. -/
  | input {error : Uncaught} (hlevel : leastShown? settings arguments ≠ none)
      (hinput : world.InputFault settings arguments.input (.uncaught error)) :
      World.Fault settings world arguments error
  /-- The document is accepted, and its output cannot be delivered. -/
  | output {root : Tag} {error : Uncaught} (hlevel : leastShown? settings arguments ≠ none)
      (haccepts : world.Accepts settings arguments.input root)
      (hobstacle : world.obstacle? arguments root = some error) :
      World.Fault settings world arguments error

/-- What a run reports of its document. -/
inductive Reports (settings : Settings) (world : World) (arguments : Arguments) (report : Report) :
    Prop where
  /-- The document is accepted, which is not reported. -/
  | accepted {root : Tag} (haccepts : world.Accepts settings arguments.input root)
      (hending : report.ending = .returned 0)
  /-- The document is rejected, and the rejection is shown. -/
  | rejected {rejection : Rejection} (log : String)
      (hrejects : world.Rejects settings arguments.input rejection)
      (hending : report.ending = .returned 1)
      (hshown : report.stderr = log ++ rejection.message ++ "\n")
  /-- The document cannot be had, and the error is shown. -/
  | unavailable {error : SourceError} (log : String)
      (hfault : world.InputFault settings arguments.input (.source error))
      (hending : report.ending = .returned 2)
      (hshown : report.stderr = log ++ "Error: " ++ error.message ++ "\n")

section

variable {settings : Settings} {world : World} {arguments : Arguments} {report : Report}

/-- A run that returns reports what there is to report of its document. -/
theorem reports_or_failed (h : Comes settings world arguments report) :
    Reports settings world arguments report ∨ ∃ error, report.ending = .failed error := by
  cases h with
  | unleveled => exact .inr ⟨_, rfl⟩
  | baffled => exact .inr ⟨_, rfl⟩
  | unshown => exact .inr ⟨_, rfl⟩
  | broken => exact .inr ⟨_, rfl⟩
  | unopened => exact .inr ⟨_, rfl⟩
  | noDocument log hlevel hload =>
    exact .inl (.unavailable log (value_load_eq_error_iff.mp hload) rfl rfl)
  | rejected log hlevel hrejects => exact .inl (.rejected log hrejects rfl rfl)
  | checked log hlevel haccepts => exact .inl (.accepted haccepts rfl)
  | shown log hlevel haccepts => exact .inl (.accepted haccepts rfl)
  | written log hlevel haccepts => exact .inl (.accepted haccepts rfl)

/-- An input fault settles how a run ends. -/
theorem ending_of_inputFault (h : Comes settings world arguments report)
    (hlevel : leastShown? settings arguments ≠ none) {error : LoadError}
    (hfault : world.InputFault settings arguments.input error) :
    report.ending = match error with
      | .uncaught error => .failed error
      | .source _ => .returned 2 := by
  have hload := value_load_eq_error_iff.mpr hfault
  rw [ending_of_canDeliver h hlevel (canDeliver_of_load hload), World.ending, hload]
  cases error with
  | source error => rfl
  | uncaught error => rfl

/-- So does a rejected document. -/
theorem ending_of_rejects (h : Comes settings world arguments report)
    (hlevel : leastShown? settings arguments ≠ none) {rejection : Rejection}
    (hrejects : world.Rejects settings arguments.input rejection) :
    report.ending = .returned 1 := by
  rw [ending_of_canDeliver h hlevel (canDeliver_of_rejects hrejects), hrejects.ending_eq]

/-- A run fails exactly for a fault. -/
theorem ending_eq_failed_iff (h : Comes settings world arguments report) {error : Uncaught} :
    report.ending = .failed error ↔ world.Fault settings arguments error := by
  constructor
  · intro hfailed
    cases h with
    | unleveled hlevel =>
      obtain rfl := Ending.failed.inj hfailed
      exact .log hlevel
    | baffled log hlevel hload =>
      obtain rfl := Ending.failed.inj hfailed
      exact .input (by simp [hlevel]) (value_load_eq_error_iff.mp hload)
    | noDocument => cases hfailed
    | rejected => cases hfailed
    | checked => cases hfailed
    | shown => cases hfailed
    | written => cases hfailed
    | unshown log hlevel haccepts houtlet hshown =>
      obtain rfl := Ending.failed.inj hfailed
      refine .output (by simp [hlevel]) haccepts ?_
      simp only [World.obstacle?, houtlet, hshown, Option.map_some]
    | broken log hlevel haccepts houtlet htarget hwrite =>
      obtain rfl := Ending.failed.inj hfailed
      refine .output (by simp [hlevel]) haccepts ?_
      simp only [World.obstacle?, houtlet, htarget, hwrite, Option.map_some]
    | unopened log hlevel haccepts houtlet htarget =>
      obtain rfl := Ending.failed.inj hfailed
      refine .output (by simp [hlevel]) haccepts ?_
      simp only [World.obstacle?, houtlet, htarget]
  · intro hfault
    cases hfault with
    | log hlevel => exact ending_of_unleveled h hlevel
    | input hlevel hinput => exact ending_of_inputFault h hlevel hinput
    | output hlevel haccepts hobstacle => exact ending_of_obstacle h hlevel haccepts hobstacle

end

/-- **Main result.** On every command line that can be read, a run returns the status 0, 1 or 2 and
reports what there is to report, or it ends with an error that is not caught.

* If the document cannot be had for an error of the source, the status is 2. If it is rejected, the
  status is 1. In both cases the reason is the last that is shown. Only the log can keep a run from
  this.
* The errors that are not caught are those of `World.Fault`. -/
theorem failures_accounted (settings : Settings) (time : String) (world : World)
    {line : List String} {arguments : Arguments}
    (hline : Arguments.ofList world.edition line = .ok arguments) :
    let report := run settings time world line
    (Reports settings world arguments report ∨ ∃ error, report.ending = .failed error) ∧
    (leastShown? settings arguments ≠ none →
      ((∃ error, world.InputFault settings arguments.input (.source error)) →
        report.ending = .returned 2) ∧
      ((∃ rejection, world.Rejects settings arguments.input rejection) →
        report.ending = .returned 1)) ∧
    ∀ error, report.ending = .failed error ↔ world.Fault settings arguments error := by
  intro report
  have hcomes : Comes settings world arguments report := comes_run hline settings time
  refine ⟨reports_or_failed hcomes, fun hlevel => ⟨?_, ?_⟩, fun _ => ending_eq_failed_iff hcomes⟩
  · rintro ⟨error, hfault⟩
    exact ending_of_inputFault hcomes hlevel hfault
  · rintro ⟨rejection, hrejects⟩
    exact ending_of_rejects hcomes hlevel hrejects

/-- A path to nothing: the status is 2, and the path is shown. -/
theorem failures_accounted_no_file :
    let world : World := { edition := .late, library := .literal, files := .ofEntries ["w"] [] }
    let report := run .standard "" world ["x"]
    Arguments.ofList .late ["x"] = .ok { input := "x" } ∧ report.ending = .returned 2 ∧
      ∃ log, report.stderr = log ++ "Error: " ++ "Document not found: x" ++ "\n" := by
  intro world report
  have hline : Arguments.ofList .late ["x"] = .ok { input := "x" } := by cbv
  have hlevel : leastShown? .standard { input := "x" } ≠ none := by decide +kernel
  have hread : world.files.read? (.ofString "x") =
      .error (.system .notFound (some (.ofString "x"))) := by decide +kernel
  have hfault : world.InputFault .standard "x" (.source (.noFile (.ofString "x"))) :=
    .noFile ⟨by decide, by decide⟩ (.unopened hread) rfl
  obtain ⟨hends, hsettled, -⟩ := failures_accounted .standard "" world hline
  have hending : report.ending = .returned 2 := (hsettled hlevel).1 ⟨_, hfault⟩
  refine ⟨hline, hending, ?_⟩
  rcases hends with hreports | ⟨error, hfailed⟩
  · cases hreports with
    | accepted haccepts hending' => cases hending.symm.trans hending'
    | rejected log hrejects hending' => cases hending.symm.trans hending'
    | unavailable log hfault' hending' hshown =>
      have hsame := (value_load_eq_error_iff.mpr hfault).symm.trans
        (value_load_eq_error_iff.mpr hfault')
      obtain rfl := LoadError.source.inj (Except.error.inj hsame)
      exact ⟨log, hshown⟩
  · cases hending.symm.trans hfailed

/-- A document that is accepted, and a file for the output in a directory that is not there: the run
does not return. Nor does it for a path with a NUL character, for a URL that the library refuses, or
for a level that the log does not have. -/
theorem uncaught_for_want_of_directory :
    let library : Http.Library :=
      { Http.Library.literal with
        read := fun url => if url = "http://h:x" then .error ⟨"InvalidURL", "Invalid port: 'x'"⟩
          else .ok url }
    let world : World :=
      { edition := .late, library, files := .ofEntries ["w"] []
        stdin := { data := Text.encode "@main\x7b\x7d".toList } }
    Arguments.ofList .late ["-", "-o", "n/x"] = .ok { input := "-", output := "n/x" } ∧
      (run .standard "" world ["-", "-o", "n/x"]).ending =
        .failed (.file (.system .notFound (some (.ofString "n/x")))) ∧
      (run .standard "" world ["a\x00"]).ending = .failed (.file .embeddedNul) ∧
      (run .standard "" world ["http://h:x"]).ending =
        .failed (.url ⟨"InvalidURL", "Invalid port: 'x'"⟩) ∧
      (run { Settings.standard with logLevel := "loud" } "" world ["-"]).ending =
        .failed (.unknownLevel "loud") := by
  refine ⟨by cbv, ?_, ?_, ?_, ?_⟩
  all_goals decide +kernel

end Cli

end AtMarkup
