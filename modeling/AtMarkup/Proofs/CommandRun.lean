import Mathlib
import AtMarkup.Cli.Run
import AtMarkup.Proofs.Escaping
import AtMarkup.Proofs.WholeReading

/-!
# What the command does with a document

The command gets its document from the standard input or from a file. Within the limit it gets the
document as it is, and there is nothing to tell (`load_of_holds`). What follows is the parser's
answer and nothing else (`run_of_holds`): the message of a rejection on the standard error output,
or the HTML or the tree on the standard output, ended with a line feed. The log stays empty, for
what the parser tells is shown only at the lowest level.
-/

namespace AtMarkup

/-- The HTML of a `main` tag ends with the end of an element. -/
theorem Html.getLast?_render {escaped : Bool} {root : Tag} (h : root.kind = "main") :
    (render escaped root).toList.getLast? = some '>' := by
  have hkind : Tag.Kind.ofName? root.kind = some .main := by
    rw [h]
    rfl
  have hclosing : (shell (some .main) root.options).closing.toList.getLast? = some '>' := by
    simp [shell]
  rw [render_element hkind (by decide) (by decide), String.toList_append, List.getLast?_append,
    hclosing]
  rfl

/-- A dump ends with a line feed. -/
theorem Tag.getLast?_dump (indent : String) (tag : Tag) :
    (tag.dump indent).toList.getLast? = some '\n' := by
  have hclosing : "\x7d\n".toList.getLast? = some '\n' := by decide
  unfold dump
  simp only
  rw [String.toList_append, List.getLast?_append, hclosing]
  rfl

namespace Cli

/-! ## Getting the document -/

/-- The location is a path, and neither the standard input nor a URL. -/
structure IsPathName (location : String) : Prop where
  /-- It is not the standard input. -/
  ne_stdin : location ≠ "-"
  /-- It is no URL. -/
  not_url : isUrl location = false

/-- The document is what comes from the standard input, or from a file. -/
inductive World.Holds (world : World) (data : Bytes) : String → Prop where
  /-- It comes from the standard input. -/
  | stdin (h : world.stdin = { data }) : World.Holds world data "-"
  /-- It comes from the file at a path. -/
  | file {location : String} (hpath : IsPathName location)
      (h : world.files.read? (.ofString location) = .ok { data }) :
      World.Holds world data location

/-- From a path the document is read. -/
theorem load_of_isPathName {location : String} (hpath : IsPathName location) (settings : Settings)
    (world : World) :
    load settings world location =
      (readPath settings world.files (.ofString location) none >>= fun result =>
        pure (result.mapError .ofPathError)) := by
  have hdash : (location == "-") = false := by simpa using hpath.ne_stdin
  unfold load
  rw [hdash, hpath.not_url]
  rfl

/-- A document within the limit is got whole, and there is nothing to tell. -/
theorem load_of_holds {settings : Settings} (hsize : settings.chunkSize ≠ 0) {world : World}
    {data : Bytes} {location : String} (h : world.Holds data location)
    (hlimit : (data.length : Int) ≤ settings.byteLimit) :
    load settings world location = ⟨.ok data, []⟩ := by
  cases h with
  | stdin hstdin =>
    have hload : load settings world "-" =
        ⟨(world.stdin.read settings "<stdin>" none).value.mapError .ofSystemError,
          (world.stdin.read settings "<stdin>" none).events ++ []⟩ := rfl
    rw [hload, hstdin, read_of_length_le hsize "<stdin>" hlimit]
    rfl
  | file hpath hfile =>
    rw [load_of_isPathName hpath, readPath_of_read? hsize hfile hlimit]
    rfl

/-! ## The log -/

/-- What the parser tells is not shown above the lowest level. -/
theorem logText_parse (time : String) {least : Nat} (hleast : Severity.debug.number < least)
    (frames : Nat) (asked : Int) (source : Source) :
    logText time least (parse frames asked source).events = "" := by
  have hquiet : ∀ event ∈ (parse frames asked source).events,
      event.severity.reaches least = false := by
    unfold parse
    split
    · intro event hevent
      cases hevent
    · unfold checkRules
      split
      · intro event hevent
        cases hevent
      · intro event hevent
        rw [Logged.events_bind, Logged.events_pure, List.append_nil] at hevent
        obtain rfl := List.mem_singleton.mp hevent
        exact decide_eq_false (Nat.not_le_of_lt hleast)
  have hnone : (parse frames asked source).events.filter
      (fun event => event.severity.reaches least) = [] := by
    rw [List.filter_eq_nil_iff]
    intro event hevent
    rw [hquiet event hevent]
    exact Bool.false_ne_true
  unfold logText
  simp [hnone]

/-! ## The whole run -/

/-- What the command shows of a document that is accepted. -/
def shownText (arguments : Arguments) (compiled : Compiled) : String :=
  if arguments.check then ""
  else if arguments.tree then compiled.tree
  else compiled.html ++ "\n"

/-- The report on a document with this outcome. -/
def reportOf (arguments : Arguments) (files : FileSystem) : Except Rejection Compiled → Report
  | .ok compiled =>
    { ending := .returned 0, stdout := shownText arguments compiled, stderr := "", files }
  | .error rejection =>
    { ending := .returned 1, stdout := "", stderr := rejection.message ++ "\n", files }

/-- Output that is delivered to the standard output is what is shown. -/
theorem deliver_of_kind {arguments : Arguments} {root : Tag} (hroot : root.kind = "main")
    (houtput : arguments.output = none) :
    deliver arguments root =
      { status := 0,
        stdout := shownText arguments (Compiled.ofTag arguments.escapeText root) } := by
  have hhtml : (Html.render arguments.escapeText root).toList.getLast? = some '>' :=
    Html.getLast?_render hroot
  have htree := root.getLast?_dump ""
  unfold deliver shownText outputText Compiled.ofTag Arguments.outlet
  rw [houtput]
  cases arguments.check with
  | true => rfl
  | false =>
    cases arguments.tree with
    | true => simp [ended, htree]
    | false => simp [ended, hhtml]

/-- **The command does what the parser says.** On a document within the limit, with the output on a
standard output that can show it, and with a log from above the lowest level, the command ends with
the report on what becomes of the document. -/
theorem run_of_holds {settings : Settings} (hsize : settings.chunkSize ≠ 0) {world : World}
    {line : List String} {arguments : Arguments}
    (hline : Arguments.ofList world.edition line = .ok arguments)
    (houtput : arguments.output = none) {least : Nat}
    (hlevel : leastShown? settings arguments = some least)
    (hleast : Severity.debug.number < least) {data : Bytes}
    (hworld : world.Holds data arguments.input)
    (hlimit : (data.length : Int) ≤ settings.byteLimit)
    (hshown : ∀ text, world.unshown? text = none) (time : String) :
    run settings time world line = reportOf arguments world.files
      ((parse settings.recursionLimit settings.depth (.bytes data)).value.map
        (Compiled.ofTag arguments.escapeText)) := by
  have hquiet : logText time least [] = "" := rfl
  have hlog := logText_parse time hleast settings.recursionLimit settings.depth (.bytes data)
  unfold run runArguments
  simp only [hline, hlevel, load_of_holds hsize hworld hlimit, conclude, hquiet, hlog]
  cases hparse : (parse settings.recursionLimit settings.depth (.bytes data)).value with
  | error rejection => simp [reportOf, Conclusion.carryOut, Except.map]
  | ok root =>
    have hkind := Tag.kind_of_violations_eq_nil (parse_eq_ok_iff.mp hparse).2
    simp only
    rw [deliver_of_kind hkind houtput]
    simp [reportOf, Conclusion.carryOut, Except.map, hshown]

end Cli

end AtMarkup
