import Mathlib
import AtMarkup.Proofs.Run
import AtMarkup.Proofs.Scans

/-!
# Descent keeps to the reader

The procedures of `Markup.Descent` call each other and hand on a cursor, and `Markup.read` is one
loop over the characters. Here each procedure is set against the reader: while a procedure goes over
its part of the text, the reader goes from one state to another (`Passage.KeepsTo`), and both find
the same fault at the same place. In the same walk each procedure is shown to go over its part once.

* A loop over characters of a kind passes what the reader types (`keepsTo_goOn`), whatever the state
  in which it types it.
* A header leads to the brace that opens a block (`keepsTo_parseHeader`).
* A tag and a block lead behind the brace that closes the block, or the block to the end of the text
  (`keepsTo_parseTag`, `keepsTo_parseBlock`). They call each other with fewer moves left each time,
  and the proof goes the same way.
* `parseRoot_keeps` puts that together for a whole text.
-/

namespace AtMarkup

namespace Markup

variable {limit : Int} {text : List Char} {p q : Progress} {cursor : Cursor} {scan here : Scan}

/-! ## What is read from a cursor on -/

/-- What the reader comes to that takes the character that a cursor stands on, and what is ahead. -/
def readAt (limit : Int) (p : Progress) (cursor : Cursor) : Reading :=
  match cursor.current with
  | none => ⟨finish p cursor.position, cursor.position⟩
  | some c => read limit p cursor.position (c :: cursor.ahead)

/-- Behind a move the reader takes what was ahead. -/
theorem readAt_advance :
    readAt limit p cursor.advance = read limit p cursor.nextPosition cursor.ahead := by
  cases hahead : cursor.ahead with
  | nil =>
    rw [Cursor.advance_of_nil hahead]
    rfl
  | cons c rest =>
    rw [Cursor.advance_of_cons hahead]
    rfl

/-- On nothing, the reader judges what has been read. -/
theorem readAt_of_none (h : cursor.current = none) :
    readAt limit p cursor = ⟨finish p cursor.position, cursor.position⟩ := by
  rw [readAt, h]

/-- A step without fault takes the character. -/
theorem readAt_of_ok {c : Char} (h : cursor.current = some c)
    (hstep : step limit p cursor.position c = .ok q) :
    readAt limit p cursor = readAt limit q cursor.advance := by
  rw [readAt_advance, Cursor.nextPosition_of_current h, readAt, h]
  simp only [read, hstep]

/-- A fault is where the reader stops. -/
theorem readAt_of_error {c : Char} {fault : Fault} (h : cursor.current = some c)
    (hstep : step limit p cursor.position c = .error fault) :
    readAt limit p cursor = ⟨.error ⟨fault, cursor.position⟩, cursor.position⟩ := by
  rw [readAt, h]
  simp only [read, hstep]

/-- From states in which the character does the same, the same is read. -/
theorem readAt_congr {c : Char} (h : cursor.current = some c)
    (hstep : step limit p cursor.position c = step limit q cursor.position c) :
    readAt limit p cursor = readAt limit q cursor := by
  simp only [readAt, h, read, hstep]

/-! ## Passages that keep to the reader -/

/-- The passage goes over its part of the text once. Its fault is the one that the reading ends
with, at the same place, and what it reads is as it should be. -/
structure Passage.KeepsTo {α : Type} {left : Nat} (text : List Char) (reading : Reading)
    (good : α → Cursor → Prop) (passage : Passage α left) : Prop where
  /-- Each character is passed once. -/
  single : passage.scan.IsSinglePass text
  /-- The faults are the same. -/
  fault : ∀ fault, passage.result = .error fault →
    reading = ⟨.error ⟨fault, passage.scan.position⟩, passage.scan.position⟩
  /-- What is read. -/
  value : ∀ value, passage.result = .ok value → good value passage.scan.cursor

namespace Passage

variable {α β : Type} {left more : Nat} {reading : Reading} {good : α → Cursor → Prop}
  {passage : Passage α left}

theorem keepsTo_done {value : α} (h : scan.IsSinglePass text) (hgood : good value scan.cursor) :
    (done value scan).KeepsTo text reading good where
  single := h
  fault := by
    intro fault hfault
    cases hfault
  value := by
    rintro _ ⟨⟩
    exact hgood

theorem keepsTo_raised {fault : Fault} (h : scan.IsSinglePass text)
    (hreading : reading = ⟨.error ⟨fault, scan.position⟩, scan.position⟩) :
    (raised fault scan : Passage α scan.left).KeepsTo text reading good where
  single := h
  fault := by
    rintro _ ⟨⟩
    exact hreading
  value := by
    intro value hvalue
    cases hvalue

theorem KeepsTo.within (h : passage.KeepsTo text reading good) (hmore : left ≤ more) :
    (passage.within hmore).KeepsTo text reading good :=
  ⟨h.single, h.fault, h.value⟩

/-- What is read may be known less well. -/
theorem KeepsTo.mono {weaker : α → Cursor → Prop} (h : passage.KeepsTo text reading good)
    (hweaker : ∀ value here, good value here → weaker value here) :
    passage.KeepsTo text reading weaker :=
  ⟨h.single, h.fault, fun value hvalue => hweaker value _ (h.value value hvalue)⟩

/-- A turn that is over with a passage moved forward if the passage starts further on. -/
theorem KeepsTo.turned (h : passage.KeepsTo text reading good) (loop : Loop) {scan : Scan}
    (hscan : scan.IsSinglePass text) (hleft : left < scan.left) :
    (passage.turned loop scan.position).KeepsTo text reading good where
  single := h.single.turned loop (hscan.offset_lt h.single (passage.further.trans_lt hleft))
  fault := h.fault
  value := h.value

/-- A passage that goes on keeps to the reading if what it goes on with does. -/
theorem KeepsTo.andThen {better : β → Cursor → Prop}
    {next : α → (scan : Scan) → scan.left ≤ left → Passage β scan.left}
    (h : passage.KeepsTo text reading good)
    (hnext : ∀ value here further, here.IsSinglePass text → good value here.cursor →
      (next value here further).KeepsTo text reading better) :
    (passage.andThen next).KeepsTo text reading better := by
  unfold Passage.andThen
  split
  · rename_i value hvalue
    exact (hnext value _ passage.further h.single (h.value value hvalue)).within _
  · rename_i fault hfault
    refine ⟨h.single, ?_, ?_⟩
    · rintro _ ⟨⟩
      exact h.fault fault hfault
    · intro value hvalue
      cases hvalue

end Passage

/-! ## Headers -/

/-- What the loop over a kind of characters comes to: it has passed a run of them, and stands on a
character of another kind, `stop`. -/
def PassesTo (kind : Char → Bool) (start : Cursor) (passed : List Char) (stop : Char)
    (here : Cursor) : Prop :=
  here.current = some stop ∧ kind stop = false ∧ start.remaining = passed ++ here.remaining

/-- A loop over the characters of a kind keeps to a reader that types them. -/
theorem keepsTo_goOn {loop : Loop} {kind : Char → Bool} (state : List Char → Progress)
    (hstep : ∀ typed here c, kind c = true →
      step limit (state typed) here c = .ok (state (c :: typed)))
    (hend : ∀ typed stop, finish (state typed) stop = .error ⟨.unexpectedEnd, stop⟩)
    (hscan : scan.IsSinglePass text) (typed : List Char) :
    (goOn loop kind scan).KeepsTo text (readAt limit (state typed) scan.cursor)
      fun stop here => ∃ passed, PassesTo kind scan.cursor passed stop here ∧
        readAt limit (state typed) scan.cursor =
          readAt limit (state (passed.reverse ++ typed)) here := by
  fun_induction goOn loop kind scan generalizing typed with
  | case1 scan h =>
    apply Passage.keepsTo_raised hscan
    rw [readAt_of_none h, hend]
    rfl
  | case2 scan c h hkind ih =>
    have hleft := Scan.left_pos_of_current h
    have hnext := hscan.advance hleft
    have hforward : scan.position.offset < scan.advance.position.offset :=
      hscan.offset_lt hnext (by rw [Scan.left_advance]; omega)
    rw [readAt_of_ok h (hstep typed _ c hkind)]
    apply ((ih (hnext.turned loop hforward) (c :: typed)).mono ?_).within
    rintro stop here ⟨passed, ⟨hcurrent, hstop, hremaining⟩, hreading⟩
    refine ⟨c :: passed, ⟨hcurrent, hstop, ?_⟩, ?_⟩
    · rw [Cursor.remaining_of_current h, List.cons_append, ← hremaining]
      exact congrArg (c :: ·) scan.cursor.remaining_advance.symm
    · rw [List.reverse_cons, List.append_assoc]
      exact hreading
  | case3 scan c h hkind =>
    apply Passage.keepsTo_done hscan
    exact ⟨[], ⟨h, by simpa using hkind, rfl⟩, rfl⟩

variable {marker : Position} {kind : String} {options : Tag.Options}

/-- Skipping blanks keeps to a reader that is not changed by them. -/
theorem keepsTo_skipBlanks
    (hstep : ∀ here c, Text.isBlank c = true → step limit p here c = .ok p)
    (hend : ∀ stop, finish p stop = .error ⟨.unexpectedEnd, stop⟩)
    (hscan : scan.IsSinglePass text) :
    (skipBlanks scan).KeepsTo text (readAt limit p scan.cursor) fun c here =>
      here.current = some c ∧ Text.isBlank c = false ∧
        readAt limit p scan.cursor = readAt limit p here := by
  have hloop : (skipBlanks scan).KeepsTo text (readAt limit p scan.cursor) _ :=
    keepsTo_goOn (fun _ => p) (fun _ => hstep) (fun _ => hend) hscan []
  apply hloop.mono
  rintro c here ⟨passed, ⟨hcurrent, hblank, -⟩, hreading⟩
  exact ⟨hcurrent, hblank, hreading⟩

/-- Between the parentheses, the options are read that the reader types. -/
theorem keepsTo_parseOptions (hscan : scan.IsSinglePass text) (hcurrent : scan.current = some '(') :
    (parseOptions text scan).KeepsTo text
      (readAt limit { p with mode := .named marker kind } scan.cursor) fun options here =>
        here.current = some ')' ∧
          readAt limit { p with mode := .named marker kind } scan.cursor =
            readAt limit { p with mode := .optioned marker kind options } here.advance := by
  have hopen : readAt limit { p with mode := .named marker kind } scan.cursor =
      readAt limit { p with mode := .options marker kind [] } scan.advance.cursor :=
    readAt_of_ok hcurrent rfl
  have hnext := hscan.advance (Scan.left_pos_of_current hcurrent)
  have htyped (typed : List Char) (here : Position) (c : Char)
      (hc : (c != ')' && !isForbiddenInOptions c) = true) :
      step limit { p with mode := .options marker kind typed } here c =
        .ok { p with mode := .options marker kind (c :: typed) } := by
    simp only [Bool.and_eq_true, bne_iff_ne, Bool.not_eq_true'] at hc
    simp [step, stepOptions, hc]
  rw [hopen]
  apply ((keepsTo_goOn _ htyped (fun _ _ => rfl) hnext []).within _).andThen
  rintro stop here - hhere ⟨passed, ⟨hstop, hkind, hremaining⟩, hreading⟩
  rw [hreading, List.append_nil]
  have hslice := hscan.slice_eq hhere hcurrent hstop hremaining
  by_cases hclose : stop = ')'
  · subst hclose
    rw [if_pos rfl, hslice]
    cases hread : readOptions passed with
    | ok options =>
      apply Passage.keepsTo_done hhere
      refine ⟨hstop, readAt_of_ok hstop ?_⟩
      simp [step, stepOptions, hread]
    | error fault =>
      apply Passage.keepsTo_raised hhere
      apply readAt_of_error hstop
      simp [step, stepOptions, hread]
  · rw [if_neg hclose]
    apply Passage.keepsTo_raised hhere
    apply readAt_of_error hstop
    have hforbidden : isForbiddenInOptions stop = true := by
      simpa [hclose] using hkind
    simp [step, stepOptions, hclose, hforbidden]

/-- What may follow a name, and what does, is read as the reader does that knows the name. -/
theorem keepsTo_parseGivenOptions {c : Char} (hscan : scan.IsSinglePass text)
    (hcurrent : scan.current = some c) (hblank : Text.isBlank c = false) :
    (parseGivenOptions text c scan).KeepsTo text
      (readAt limit { p with mode := .named marker kind } scan.cursor) fun (options, stop) here =>
        here.current = some stop ∧
          ∃ q,
            readAt limit { p with mode := .named marker kind } scan.cursor = readAt limit q here ∧
              step limit q here.position stop =
                if stop = '{' then .ok (p.openBlock marker kind options)
                else .error .unexpectedCharacter := by
  unfold parseGivenOptions
  split_ifs with hopen
  · subst hopen
    apply (keepsTo_parseOptions hscan hcurrent).andThen
    rintro options closing - hclosing ⟨hclose, hreading⟩
    have hblanks (here : Position) (c : Char) (hc : Text.isBlank c = true) :
        step limit { p with mode := .optioned marker kind options } here c =
          .ok { p with mode := .optioned marker kind options } := by
      simp [step, stepOptioned, hc]
    have hnext := hclosing.advance (Scan.left_pos_of_current hclose)
    rw [hreading]
    apply ((keepsTo_skipBlanks hblanks (fun _ => rfl) hnext).within _).andThen
    rintro stop here - hhere ⟨hstop, hblank, hreading⟩
    apply Passage.keepsTo_done hhere
    refine ⟨hstop, _, hreading, ?_⟩
    simp only [step, stepOptioned, hblank, Bool.false_eq_true, if_false]
    rfl
  · apply Passage.keepsTo_done hscan
    refine ⟨hcurrent, _, rfl, ?_⟩
    simp only [step, stepNamed, hblank, hopen, Bool.false_eq_true, if_false]
    rfl

/-- What follows a name is read up to the brace that opens the block. -/
theorem keepsTo_parseOpening (hscan : scan.IsSinglePass text) :
    (parseOpening text scan).KeepsTo text
      (readAt limit { p with mode := .named marker kind } scan.cursor) fun options here =>
        here.current = some '{' ∧
          readAt limit { p with mode := .named marker kind } scan.cursor =
            readAt limit (p.openBlock marker kind options) here.advance := by
  have hblanks (here : Position) (c : Char) (hc : Text.isBlank c = true) :
      step limit { p with mode := .named marker kind } here c =
        .ok { p with mode := .named marker kind } := by
    simp [step, stepNamed, hc]
  apply (keepsTo_skipBlanks hblanks (fun _ => rfl) hscan).andThen
  rintro c next - hnext ⟨hc, hblank, hreading⟩
  rw [hreading]
  apply (keepsTo_parseGivenOptions hnext hc hblank).andThen
  rintro ⟨options, stop⟩ here - hhere ⟨hstop, q, hreading, hstep⟩
  simp only
  rw [hreading]
  split_ifs at hstep ⊢ with hbrace
  · subst hbrace
    exact Passage.keepsTo_done hhere ⟨hstop, readAt_of_ok hstop hstep⟩
  · exact Passage.keepsTo_raised hhere (readAt_of_error hstop hstep)

/-- A header is read from its marker to the brace that opens the block of its tag. -/
theorem keepsTo_parseHeader {around : List Position} (hmode : p.mode = .text)
    (haround : p.enclosing.length = around.length) (hscan : scan.IsSinglePass text)
    (hcurrent : scan.current = some '@') :
    (parseHeader limit text around scan).KeepsTo text (readAt limit p scan.cursor)
      fun (kind, options) here => here.current = some '{' ∧
        readAt limit p scan.cursor =
          readAt limit (p.flush.openBlock scan.position kind options) here.advance := by
  have hstep : step limit p scan.position '@' = if limit < around.length + 1 then
      .error (.tooDeep limit) else .ok { p.flush with mode := .name scan.position [] } := by
    rw [step, hmode, ← haround]
    rfl
  unfold parseHeader
  split_ifs with hdeep
  · rw [if_pos hdeep] at hstep
    exact Passage.keepsTo_raised hscan (readAt_of_error hcurrent hstep)
  rw [if_neg hdeep] at hstep
  have hnext := hscan.advance (Scan.left_pos_of_current hcurrent)
  have htyped (typed : List Char) (here : Position) (c : Char) (hc : (!endsName c) = true) :
      step limit { p.flush with mode := .name scan.position typed } here c =
        .ok { p.flush with mode := .name scan.position (c :: typed) } := by
    rw [Bool.not_eq_true'] at hc
    simp [step, stepName, hc]
  have hopen : readAt limit p scan.cursor =
      readAt limit { p.flush with mode := .name scan.position [] } scan.advance.cursor :=
    readAt_of_ok hcurrent hstep
  rw [hopen]
  apply ((keepsTo_goOn _ htyped (fun _ _ => rfl) hnext []).within _).andThen
  rintro stop here - hhere ⟨name, ⟨hstop, hends, hremaining⟩, hreading⟩
  have hslice := hscan.slice_eq hhere hcurrent hstop hremaining
  rw [Bool.not_eq_false'] at hends
  rw [List.append_nil] at hreading
  simp only [hslice]
  rw [hreading]
  split_ifs with hname
  · have hnamed :
        readAt limit { p.flush with mode := .name scan.position name.reverse } here.cursor =
          readAt limit { p.flush with mode := .named scan.position (String.ofList name) }
            here.cursor := by
      apply readAt_congr hstop
      simp only [step, stepName, hends, List.isEmpty_reverse, List.all_reverse, hname, if_true,
        List.reverse_reverse]
      rfl
    rw [hnamed]
    apply (keepsTo_parseOpening hhere).andThen
    rintro options behind - hbehind hopened
    exact Passage.keepsTo_done hbehind hopened
  · apply Passage.keepsTo_raised hhere
    apply readAt_of_error hstop
    simp [step, stepName, hends, hname]

/-! ## Tags and blocks -/

/-- The tags that begin at these markers, innermost first, are one in the other, and the place
`here` is in all of them. -/
structure AreAround (markers : List Position) (here : Position) : Prop where
  /-- Each begins behind the one around it. -/
  nested : markers.Pairwise fun inner outer => outer.offset < inner.offset
  /-- None begins further on. -/
  before : ∀ marker ∈ markers, marker.offset ≤ here.offset

/-- Further on, the tags are still around. -/
theorem AreAround.mono {markers : List Position} {place further : Position}
    (h : AreAround markers place) (hle : place.offset ≤ further.offset) :
    AreAround markers further :=
  ⟨h.nested, fun marker hmem => (h.before marker hmem).trans hle⟩

/-- A tag that begins further on is in them, and around what follows. -/
theorem AreAround.cons {markers : List Position} {place marker : Position}
    (h : AreAround markers place) (hlt : place.offset < marker.offset) :
    AreAround (marker :: markers) marker where
  nested := List.pairwise_cons.mpr
    ⟨fun outer hmem => (h.before outer hmem).trans_lt hlt, h.nested⟩
  before := List.forall_mem_cons.mpr
    ⟨le_rfl, fun outer hmem => (h.before outer hmem).trans hlt.le⟩

/-- Where the open tags begin, innermost first. -/
def Progress.markers (p : Progress) : List Position :=
  p.enclosing.map OpenTag.marker

/-- What the reader comes to behind a block of these nodes that ends at `here`: it goes on in the
block around, or judges the nodes if there is none. -/
def readBehind (limit : Int) (enclosing : List OpenTag) (nodes : List Tag) (here : Cursor) :
    Reading :=
  match enclosing with
  | [] => ⟨soleNode here.position nodes, here.position⟩
  | tag :: outer =>
    readAt limit
      { nodes := ⟨tag.kind, tag.options, "", tag.marker, nodes⟩ :: tag.earlier, enclosing := outer }
      here.advance

/-- A closing brace ends the innermost block, and the reader goes on behind it. -/
theorem readAt_eq_readBehind (hmode : p.mode = .text) (hopen : p.enclosing ≠ [])
    (hcurrent : cursor.current = some '}') :
    readAt limit p cursor = readBehind limit p.enclosing p.flushedNodes.reverse cursor := by
  obtain ⟨tag, outer, henclosing⟩ := List.exists_cons_of_ne_nil hopen
  rw [henclosing]
  exact readAt_of_ok hcurrent (step_text_close hmode henclosing)

/-- At the end of the text, the outermost block is over, and no other is. -/
theorem keepsTo_endBlock (hmode : p.mode = .text ∨ ∃ backslash, p.mode = .escaped backslash)
    (hscan : scan.IsSinglePass text) (hcurrent : scan.current = none) :
    (endBlock p.markers p.nodes p.pending scan).KeepsTo text (readAt limit p scan.cursor)
      fun nodes here => (p.enclosing ≠ [] → here.current = some '}') ∧
        readAt limit p scan.cursor = readBehind limit p.enclosing nodes here := by
  have hfinish : finish p scan.cursor.position = if p.enclosing.isEmpty then
      soleNode scan.cursor.position p.flushedNodes.reverse
      else .error ⟨.unexpectedEnd, scan.cursor.position⟩ := by
    unfold finish topNodes
    rcases hmode with hmode | ⟨backslash, hmode⟩
    all_goals
      rw [hmode]
      cases p.enclosing <;> rfl
  unfold endBlock
  rw [readAt_of_none hcurrent, hfinish]
  cases henclosing : p.enclosing with
  | nil =>
    rw [Progress.markers, henclosing]
    exact Passage.keepsTo_done hscan ⟨fun h => absurd rfl h, rfl⟩
  | cons tag outer =>
    rw [Progress.markers, henclosing]
    exact Passage.keepsTo_raised hscan rfl

mutual

/-- **Tag.** A tag is read from its marker to the brace that closes its block, and becomes the next
node of the block around. -/
theorem keepsTo_parseTag (p : Progress) (scan : Scan) (hmode : p.mode = .text)
    {start : Position} (haround : AreAround p.markers start)
    (hstart : start.offset < scan.position.offset) (hscan : scan.IsSinglePass text)
    (hcurrent : scan.current = some '@') :
    (parseTag limit text p.markers scan).KeepsTo text (readAt limit p scan.cursor)
      fun tag here => here.current = some '}' ∧ readAt limit p scan.cursor =
        readAt limit { nodes := tag :: p.flushedNodes, enclosing := p.enclosing } here.advance := by
  have hinner := haround.cons hstart
  have hheader : (parseHeader limit text p.markers (scan.entered p.markers)).KeepsTo text
      (readAt limit p scan.cursor) fun (kind, options) here => here.current = some '{' ∧
        readAt limit p scan.cursor =
          readAt limit (p.flush.openBlock scan.position kind options) here.advance :=
    keepsTo_parseHeader hmode (List.length_map _).symm (hscan.entered hinner.nested) hcurrent
  unfold parseTag
  apply hheader.andThen
  rintro ⟨kind, options⟩ here further hhere ⟨hbrace, hreading⟩
  have hwithin := hinner.mono (hscan.offset_le hhere further)
  have hblock := keepsTo_parseBlock (p.flush.openBlock scan.position kind options) here rfl hwithin
    hhere (Scan.left_pos_of_current hbrace)
  rw [hreading]
  apply hblock.andThen
  rintro children behind - hbehind ⟨hclose, hreading⟩
  exact Passage.keepsTo_done hbehind ⟨hclose (List.cons_ne_nil _ _), hreading⟩
termination_by 2 * scan.left + 1
decreasing_by
  have hfurther : here.left ≤ scan.left := further
  omega

/-- **Block.** A block is read up to the brace that closes it, or, if it is the outermost, to the
end of the text. -/
theorem keepsTo_parseBlock (p : Progress) (scan : Scan) (hmode : p.mode = .text)
    (haround : AreAround p.markers scan.position) (hscan : scan.IsSinglePass text)
    (hleft : 0 < scan.left) :
    (parseBlock limit text p.markers p.nodes p.pending scan).KeepsTo text
      (readAt limit p scan.advance.cursor) fun nodes here =>
        (p.enclosing ≠ [] → here.current = some '}') ∧
          readAt limit p scan.advance.cursor = readBehind limit p.enclosing nodes here := by
  have hhere := hscan.advance hleft
  have hless : scan.advance.left < scan.left := by
    rw [Scan.left_advance]
    omega
  have hforward := hscan.offset_lt hhere hless
  unfold parseBlock
  simp only
  split
  · rename_i hend
    exact (keepsTo_endBlock (.inl hmode) (hhere.turned .block hforward) hend).within _
  rename_i c hcurrent
  split_ifs with hescape hmarker hclose houtermost
  · subst hescape
    have hbehind := hhere.advance (Scan.left_pos_of_current hcurrent)
    have hforward' : scan.position.offset < scan.advance.advance.position.offset :=
      hscan.offset_lt hbehind (Scan.left_advance_le.trans_lt hless)
    have hescaped : readAt limit p scan.advance.cursor =
        readAt limit { p with mode := .escaped scan.advance.position }
          scan.advance.advance.cursor :=
      readAt_of_ok hcurrent (step_text_escape hmode)
    rw [hescaped]
    split
    · rename_i hend
      exact (keepsTo_endBlock (p := { p with mode := .escaped scan.advance.position })
        (.inr ⟨_, rfl⟩) (hbehind.turned .block hforward') hend).within _
    · rename_i escaped hcurrent'
      rw [readAt_of_ok hcurrent' rfl]
      exact (keepsTo_parseBlock (p.collect (escapedCharacter escaped) scan.advance.position)
        (scan.advance.advance.turned .block scan.position) rfl (haround.mono hforward'.le)
        (hbehind.turned .block hforward') (Scan.left_pos_of_current hcurrent')).within _
  · subst hmarker
    have htag := (keepsTo_parseTag p scan.advance hmode haround hforward hhere hcurrent).turned
      .block hscan hless
    apply (htag.andThen _).within
    rintro tag behind further hbehind ⟨hclose, hreading⟩
    have hwithin := haround.mono (hscan.offset_le hbehind (further.trans hless.le))
    have hblock := keepsTo_parseBlock { nodes := tag :: p.flushedNodes, enclosing := p.enclosing }
      behind rfl hwithin hbehind (Scan.left_pos_of_current hclose)
    rw [hreading]
    exact hblock
  · subst hclose
    have hempty : p.enclosing = [] := by
      simpa [Progress.markers] using houtermost
    have hstep : step limit p scan.advance.position '}' = .error .unmatchedBrace := by
      rw [step, hmode]
      show closeBlock p = _
      rw [closeBlock, hempty]
    exact (Passage.keepsTo_raised (hhere.turned .block hforward)
      (readAt_of_error hcurrent hstep)).within _
  · subst hclose
    have hopen : p.enclosing ≠ [] := by
      simpa [Progress.markers] using houtermost
    exact (Passage.keepsTo_done (hhere.turned .block hforward)
      ⟨fun _ => hcurrent, readAt_eq_readBehind hmode hopen hcurrent⟩).within _
  · rw [readAt_of_ok hcurrent (step_text_of_ne hmode hescape hmarker hclose)]
    exact (keepsTo_parseBlock (p.collect (plainCharacter c) scan.advance.position)
      (scan.advance.turned .block scan.position) rfl (haround.mono hforward.le)
      (hhere.turned .block hforward) (Scan.left_pos_of_current hcurrent)).within _
termination_by 2 * scan.left

end

/-! ## The whole text -/

/-- What comes of a descent as what comes of reading. -/
def Descent.reading (descent : Descent) : Reading :=
  ⟨descent.outcome, descent.scan.position⟩

/-- A text is gone over once, and comes to what the reader makes of it. -/
theorem parseRoot_keeps (limit : Int) (text : List Char) :
    (parseRoot limit text).scan.IsSinglePass text ∧
      (parseRoot limit text).reading = readUnified limit text := by
  have hreading : readAt limit .start (Scan.start text).advance.cursor = readUnified limit text :=
    readAt_advance
  have hblock : (parseBlock limit text [] [] .empty (.start text)).KeepsTo text
      (readAt limit .start (Scan.start text).advance.cursor) _ :=
    keepsTo_parseBlock .start (.start text) rfl ⟨List.Pairwise.nil, List.forall_mem_nil _⟩
      (Scan.IsSinglePass.start text) (Nat.succ_pos _)
  rw [hreading] at hblock
  unfold parseRoot Descent.reading
  simp only
  split
  · rename_i nodes hnodes
    exact ⟨hblock.single, (hblock.value nodes hnodes).2.symm⟩
  · rename_i fault hfault
    exact ⟨hblock.single, (hblock.fault fault hfault).symm⟩

end Markup

end AtMarkup
