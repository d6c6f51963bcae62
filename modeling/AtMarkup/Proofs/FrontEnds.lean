import Mathlib
import AtMarkup.Proofs.CommandRun
import AtMarkup.Proofs.Compiling
import AtMarkup.Proofs.DiagnosticLines
import AtMarkup.Proofs.Utf8
import AtMarkup.Service.Site

/-!
# All front ends agree

A document can be compiled as text or as bytes, out of a file, from a server, by the command, by
the service, or by what the service calls to do its work. For a document within the limit on bytes
all of these come to the same outcome (`frontEnds_agree`): it is compiled to the same HTML and the
same tree, or it is rejected for the same faults at the same positions. `FrontEndsAgree` says for
each of them what coming to an outcome means, and `Settings.LetThrough` what has to be set for it,
which the standard settings are (`Settings.letThrough_standard`).

The ways differ in how the document gets in and how the outcome gets out, and both sides are settled
elsewhere:

* bytes are decoded to the text that they were encoded from (`Text.decode_encode`);
* a document within the limit is read whole, however it is cut (`readPath_of_read?`,
  `Http.fetchDocument_of_success`);
* the service gets every document that is neither blank nor too long (`Service.admits_routes_iff`);
* a rejection is told in lines, one for each diagnostic (`lines_message`).

Of the library that makes requests only this is used: it takes the URL, and a response from there
that is no redirect (`Http.Library.Takes`). Of the framework of the service only this: it delivers a
request that is posted to the path for documents (`Service.Framework.Posts`).
-/

namespace AtMarkup

/-! ## Settings -/

/-- Settings under which nothing but the limit on bytes keeps a document out, and the log is silent
about one that gets in. -/
structure Settings.LetThrough (settings : Settings) : Prop where
  /-- A stream is asked for something. -/
  chunkSize_ne_zero : settings.chunkSize ≠ 0
  /-- There is an attempt to fetch. -/
  fetchRetries_nonneg : 0 ≤ settings.fetchRetries
  /-- The service accepts as many characters. -/
  byteLimit_le : settings.byteLimit ≤ settings.sourceLimit
  /-- Events of the lowest level are not shown. -/
  logLevel : ∃ least, levelNamed? settings.logLevel = some least ∧ Severity.debug.number < least

theorem Settings.letThrough_standard : Settings.standard.LetThrough where
  chunkSize_ne_zero := by decide
  fetchRetries_nonneg := by decide
  byteLimit_le := by decide
  logLevel := ⟨Severity.warning.number, by decide +kernel, by decide⟩

/-! ## What the service says -/

namespace Service

/-- The name of what is wrong with a document. -/
def kindOf : Rejection → String
  | .markup _ => "syntax"
  | .rules _ => "validation"

/-- What the work of the service comes to: the HTML, and the tree if it is wanted; or the message,
the stage, and the lines of the message. -/
def outcomeOf (includeTree : Bool) : Except Rejection Compiled → Outcome
  | .ok compiled => .success compiled.html (if includeTree then some compiled.tree else none)
  | .error rejection => .failure rejection.message rejection.stage (lines rejection.message)

/-- The reply for an outcome: its status code and its body. -/
def replyOf (includeTree : Bool) : Except Rejection Compiled → Reply
  | .ok compiled =>
    ⟨200, ("html", .text compiled.html) ::
      if includeTree then [("tree", .text compiled.tree)] else []⟩
  | .error rejection =>
    ⟨422, [("error", .text rejection.message), ("kind", .text (kindOf rejection)),
      ("errors", .texts (lines rejection.message))]⟩

/-- The reply for an outcome is made of what the work comes to. -/
theorem ofOutcome_outcomeOf (includeTree : Bool) (outcome : Except Rejection Compiled) :
    Reply.ofOutcome (outcomeOf includeTree outcome) = replyOf includeTree outcome := by
  cases outcome with
  | ok compiled => cases includeTree <;> rfl
  | error rejection => cases rejection <;> rfl

end Service

/-! ## Agreement -/

/-- What each front end makes of a document, when its text is escaped or not and this is the
outcome. -/
structure FrontEndsAgree (settings : Settings) (document : String) (escaped : Bool)
    (outcome : Except Rejection Compiled) : Prop where
  /-- The document as text. -/
  text : (compile settings escaped (.text document)).value = outcome
  /-- The document as bytes. -/
  bytes : (compile settings escaped (.bytes (Text.encode document.toList))).value = outcome
  /-- A file that holds the bytes. -/
  file : ∀ {files : FileSystem} {path : Path},
    files.read? path = .ok { data := Text.encode document.toList } →
    (compileFile settings files path escaped).value = .ok outcome
  /-- A server that answers with the bytes, in whatever pieces. -/
  url : ∀ {library : Http.Library} {url : String} {target : library.Url} {location : Option String}
      {chunks : List Bytes} {later : List Http.Answer} {c : Http.Conversation},
    library.Takes url target → chunks.flatten = Text.encode document.toList →
    c.answers = .response ⟨200, location, chunks⟩ :: later →
    (Http.compileUrl library settings url escaped c).1 = .ok outcome
  /-- The work of the service. -/
  process : ∀ includeTree, (Service.process settings ⟨document, escaped, includeTree⟩).value =
    Service.outcomeOf includeTree outcome
  /-- The command, with the bytes on its standard input or in a file, and with a standard output
  that can show every text. -/
  command : ∀ {world : Cli.World} {line : List String} {arguments : Cli.Arguments} (time : String),
    Cli.Arguments.ofList world.edition line = .ok arguments → arguments.escapeText = escaped →
    arguments.verbose = false → arguments.output = none →
    world.Holds (Text.encode document.toList) arguments.input →
    (∀ text, world.unshown? text = none) →
    Cli.run settings time world line = Cli.reportOf arguments world.files outcome
  /-- The service, unless the document is blank. -/
  service : Text.isBlankText document.toList = false →
    ∀ {framework : Service.Framework} {call : framework.Call} (includeTree : Bool),
    framework.Posts "/api/compile" ⟨document, escaped, includeTree⟩ call →
    (Service.respond framework settings call).value = .ok (Service.replyOf includeTree outcome)
  /-- A rejection has diagnostics, and they are the lines of its message. -/
  diagnostics : ∀ {rejection : Rejection}, outcome = .error rejection →
    rejection.diagnostics ≠ [] ∧
      rejection.diagnostics.map Diagnostic.text = lines rejection.message

section

variable {settings : Settings} {document : String} {escaped : Bool}

/-- The bytes of a document have its characters. -/
theorem characters_encode (document : String) :
    (Source.bytes (Text.encode document.toList)).characters =
      (Source.text document).characters := by
  rw [Source.characters, Source.characters, Text.decode_encode]

/-- A file with the bytes of a document is compiled like the document. -/
theorem compileFile_of_read? (hsize : settings.chunkSize ≠ 0) {files : FileSystem} {path : Path}
    (hfile : files.read? path = .ok { data := Text.encode document.toList })
    (hlimit : ((Text.encode document.toList).length : Int) ≤ settings.byteLimit) :
    (compileFile settings files path escaped).value =
      .ok (compile settings escaped (.text document)).value := by
  unfold compileFile
  rw [readPath_of_read? hsize hfile hlimit, Logged.value_bind,
    ← compile_congr (characters_encode document)]
  rfl

/-- A document that a server gives is compiled like the document. -/
theorem compileUrl_of_success (hretries : 0 ≤ settings.fetchRetries) {library : Http.Library}
    {url : String} {target : library.Url} {location : Option String} {chunks : List Bytes}
    {later : List Http.Answer} {c : Http.Conversation}
    (hlimit : ((Text.encode document.toList).length : Int) ≤ settings.byteLimit)
    (htakes : library.Takes url target) (hchunks : chunks.flatten = Text.encode document.toList)
    (hanswers : c.answers = .response ⟨200, location, chunks⟩ :: later) :
    (Http.compileUrl library settings url escaped c).1 =
      .ok (compile settings escaped (.text document)).value := by
  rw [← hchunks] at hlimit
  obtain ⟨hbody, -⟩ := Http.fetchDocument_of_success hretries htakes hlimit hanswers
  unfold Http.compileUrl
  cases hcase : Http.fetchDocument library settings none url c with
  | mk result after =>
    rw [hcase] at hbody
    obtain rfl : result = _ := hbody
    rw [← compile_congr (characters_encode document), hchunks]

/-- What becomes of a request is the outcome of compiling its document. -/
theorem value_process (settings : Settings) (document : String) (escaped includeTree : Bool) :
    (Service.process settings ⟨document, escaped, includeTree⟩).value =
      Service.outcomeOf includeTree (compile settings escaped (.text document)).value := by
  unfold Service.process
  rw [Logged.value_bind]
  simp only
  rw [value_compile]
  cases hparse : (parse settings.recursionLimit settings.depth (.text document)).value with
  | ok root => rfl
  | error rejection =>
    show Service.Outcome.failure _ _ (rejection.diagnostics.map Diagnostic.text) =
      Service.Outcome.failure _ _ (lines rejection.message)
    rw [lines_message hparse]

/-- A call with a document is answered with the outcome of compiling it. -/
theorem respond_of_posts (hblank : Text.isBlankText document.toList = false)
    (hlength : (document.length : Int) ≤ settings.sourceLimit) {framework : Service.Framework}
    {call : framework.Call} {includeTree : Bool}
    (hposts : framework.Posts "/api/compile" ⟨document, escaped, includeTree⟩ call) :
    (Service.respond framework settings call).value =
      .ok (Service.replyOf includeTree (compile settings escaped (.text document)).value) := by
  have hdelivered : framework.deliver (Service.routes settings) call =
      .compile ⟨document, escaped, includeTree⟩ :=
    hposts (Service.routes settings) rfl (Service.admits_routes_iff.mpr ⟨hlength, hblank⟩)
  unfold Service.respond
  rw [hdelivered, ← Service.ofOutcome_outcomeOf, ← value_process]
  rfl

end

/-- **All front ends agree.** A document within the limit on bytes comes to one outcome, whichever
way it is compiled. -/
theorem frontEnds_agree {settings : Settings} (hsettings : settings.LetThrough) {document : String}
    (h : ((Text.encode document.toList).length : Int) ≤ settings.byteLimit) (escaped : Bool) :
    ∃ outcome, FrontEndsAgree settings document escaped outcome := by
  refine ⟨(compile settings escaped (.text document)).value, ?_⟩
  constructor
  case text => rfl
  case bytes => rw [compile_congr (characters_encode document)]
  case file =>
    intro files path hfile
    exact compileFile_of_read? hsettings.chunkSize_ne_zero hfile h
  case url =>
    intro library url target location chunks later c htakes hchunks hanswers
    exact compileUrl_of_success hsettings.fetchRetries_nonneg h htakes hchunks hanswers
  case process =>
    intro includeTree
    exact value_process settings document escaped includeTree
  case command =>
    intro world line arguments time hline hescaped hverbose houtput hworld hshown
    obtain ⟨least, hlevel, hleast⟩ := hsettings.logLevel
    have hleastShown : Cli.leastShown? settings arguments = some least := by
      rw [Cli.leastShown?, hverbose]
      exact hlevel
    rw [Cli.run_of_holds hsettings.chunkSize_ne_zero hline houtput hleastShown hleast hworld h
      hshown time, hescaped, value_compile, parse_congr (characters_encode document)]
  case service =>
    intro hblank framework call includeTree hposts
    have hlength : (document.length : Int) ≤ settings.sourceLimit := by
      have hbytes := Text.length_le_length_encode document.toList
      have hlimits := hsettings.byteLimit_le
      rw [String.length_toList] at hbytes
      omega
    exact respond_of_posts hblank hlength hposts
  case diagnostics =>
    intro rejection hrejected
    rw [value_compile] at hrejected
    cases hparse : (parse settings.recursionLimit settings.depth (.text document)).value with
    | ok root =>
      rw [hparse] at hrejected
      cases hrejected
    | error other =>
      rw [hparse] at hrejected
      obtain rfl := Except.error.inj hrejected
      exact ⟨diagnostics_ne_nil_of_parse hparse, (lines_message hparse).symm⟩

/-- A document with a character of two bytes is accepted: the command shows its tree, the service
its HTML, and it does not matter that a server cuts the character in two. Another one is rejected
for an option that goes over a line break, which does not break the line of the message. -/
theorem frontEnds_agree_two_bytes :
    let accepted := "@main\x7bä\x7d"
    let rejected := "@main(ä\nb)\x7b\x7d"
    let message := "Syntax Error: invalid tag option format `ä\\nb` (line 2, column 2)"
    let world := fun document : String =>
      ({ edition := .late, library := .literal, files := .ofEntries ["w"] []
         stdin := { data := Text.encode document.toList } } : Cli.World)
    let call := fun document : String =>
      (⟨"POST", "/api/compile", some ⟨document, true, false⟩⟩ : Service.Framework.LiteralCall)
    let conversation : Http.Conversation :=
      { answers := [.response ⟨200, none,
          ["@main\x7b".toList.flatMap String.utf8EncodeChar ++ [195], [164, 125]]⟩] }
    ((Text.encode accepted.toList).length : Int) ≤ Settings.standard.byteLimit ∧
    ((Text.encode rejected.toList).length : Int) ≤ Settings.standard.byteLimit ∧
    ∃ compiled rejection,
      FrontEndsAgree .standard accepted true (.ok compiled) ∧
      FrontEndsAgree .standard rejected true (.error rejection) ∧
      Cli.run .standard "" (world accepted) ["--tree", "--escape-text", "-"] =
        { ending := .returned 0, files := .ofEntries ["w"] []
          stdout := "@main() \x7b\n    @text() \x7b\n      \"ä\"\n    \x7d\n\x7d\n" } ∧
      Cli.run .standard "" (world rejected) ["--escape-text", "-"] =
        { ending := .returned 1, files := .ofEntries ["w"] [], stderr := message ++ "\n" } ∧
      (Http.compileUrl .literal .standard "http://h/" true conversation).1 = .ok (.ok compiled) ∧
      (Service.respond .literal .standard (call accepted)).value =
        .ok ⟨200, [("html", .text "<div class=\"main-tag\">ä</div>")]⟩ ∧
      (Service.respond .literal .standard (call rejected)).value =
        .ok ⟨422, [("error", .text message), ("kind", .text "syntax"),
          ("errors", .texts [message])]⟩ := by
  intro accepted rejected message world call conversation
  have hwithin : ((Text.encode accepted.toList).length : Int) ≤ Settings.standard.byteLimit := by
    decide +kernel
  have hwithin' : ((Text.encode rejected.toList).length : Int) ≤ Settings.standard.byteLimit := by
    decide +kernel
  obtain ⟨outcome, hagree⟩ := frontEnds_agree Settings.letThrough_standard hwithin true
  obtain ⟨outcome', hagree'⟩ := frontEnds_agree Settings.letThrough_standard hwithin' true
  let root : Tag := ⟨"main", .empty, "", ⟨0, 0, 0⟩, [.textLeaf "ä" ⟨6, 0, 6⟩]⟩
  let rejection : Rejection := .markup ⟨.badOption "ä\nb", ⟨9, 1, 1⟩⟩
  have hparse : (parse 1000 100 (.text "@main\x7bä\x7d")).value = .ok root := by
    cbv
  have hparse' : (parse 1000 100 (.text "@main(ä\nb)\x7b\x7d")).value = .error rejection := by
    cbv
  obtain rfl : .ok (Compiled.ofTag true root) = outcome := by
    rw [← hagree.text, value_compile]
    exact (congrArg (Except.map (Compiled.ofTag true)) hparse).symm
  obtain rfl : .error rejection = outcome' := by
    rw [← hagree'.text, value_compile]
    exact (congrArg (Except.map (Compiled.ofTag true)) hparse').symm
  have htree : root.dump "" = "@main() \x7b\n    @text() \x7b\n      \"ä\"\n    \x7d\n\x7d\n" := by
    cbv
  have hhtml : Html.render true root = "<div class=\"main-tag\">ä</div>" := by cbv
  have hmessage : rejection.message = message := by decide
  have hlines : lines message = [message] := by decide +kernel
  have hline : Cli.Arguments.ofList .late ["--tree", "--escape-text", "-"] =
      .ok { input := "-", tree := true, escapeText := true } := by
    cbv
  have hline' : Cli.Arguments.ofList .late ["--escape-text", "-"] =
      .ok { input := "-", escapeText := true } := by
    cbv
  have htext : Text.isBlankText accepted.toList = false := by decide +kernel
  have htext' : Text.isBlankText rejected.toList = false := by decide +kernel
  have hposts (document : String) : Service.Framework.literal.Posts "/api/compile"
      ⟨document, true, false⟩ (call document) := Service.Framework.posts_literal _ _
  refine ⟨hwithin, hwithin', _, _, hagree, hagree', ?_, ?_, ?_, ?_, ?_⟩
  · rw [hagree.command "" hline rfl rfl rfl (.stdin rfl) fun _ => rfl]
    simp [Cli.reportOf, Cli.shownText, Compiled.ofTag, htree, world]
  · rw [hagree'.command "" hline' rfl rfl rfl (.stdin rfl) fun _ => rfl]
    simp [Cli.reportOf, hmessage, world]
  · exact hagree.url (Http.Library.takes_literal _) (by decide +kernel) rfl
  · rw [hagree.service htext false (hposts accepted), ← hhtml]
    rfl
  · rw [hagree'.service htext' false (hposts rejected)]
    simp [Service.replyOf, Service.kindOf, hmessage, hlines, rejection]

end AtMarkup
