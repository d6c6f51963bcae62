import Mathlib
import AtMarkup.Document
import AtMarkup.Proofs.Faults
import AtMarkup.Proofs.Run

/-!
# The reader accepts exactly the grammar

`Run.lean` shows that the reader takes whatever the grammar spells. Here is the other half, that
a text which the reader takes to its end is spelled by the grammar, and the two together.

* `Completes limit p here text`: from `p` the text is passed without a fault, and may end there.
* From the middle of a header, a text that completes goes on as a header must
  (`exists_name_of_completes` and the three lemmas behind it, one for each mode of the reader),
  so behind an `@` there is a whole header (`exists_header_of_completes`).
* **Soundness** (`startsWithItems_of_completes`): in the text of a block, a text that completes
  starts with items. Behind them stands the brace that closes the block or, at the top, nothing
  or a last backslash. The induction is on the length of the text: a tag needs the hypothesis
  twice, for its block and for what follows it.
* **Both halves** (`topNodes_run_iff`, `outcome_readUnified_eq_ok_iff`): the nodes that the reader
  finds are the nodes of the document, and no other text is accepted.

A document may be nothing but text, and then no tag can lie too deep, not even under a limit below
zero. This is why bounds on `Tag.nesting` are stated with `Int.toNat`.
-/

namespace AtMarkup.Markup

open Grammar

variable {limit : Int} {p : Progress} {here : Position}

/-! ## Texts that complete -/

/-- The text is passed without a fault, and a document may end behind it. -/
def Completes (limit : Int) (p : Progress) (here : Position) (text : List Char) : Prop :=
  ∃ q nodes, run limit p here text = .ok q ∧ topNodes q = .ok nodes

/-- The first character is passed, and the rest completes. -/
theorem completes_cons_iff {c : Char} {rest : List Char} :
    Completes limit p here (c :: rest) ↔
      ∃ q, step limit p here c = .ok q ∧ Completes limit q (here.after c) rest := by
  unfold Completes
  cases h : step limit p here c with
  | ok q =>
    rw [run_cons_of_ok h]
    simp
  | error fault =>
    rw [run_cons_of_error h]
    simp

/-- What stands behind a part that is passed completes as well. -/
theorem completes_of_append {a b : List Char} {q : Progress} (hrun : run limit p here a = .ok q)
    (h : Completes limit p here (a ++ b)) : Completes limit q (here.afterText a) b := by
  unfold Completes at h
  rwa [run_append_of_ok hrun] at h

/-- A document ends in text or behind a backslash, with no tag open. -/
theorem mode_of_topNodes {nodes : List Tag} (h : topNodes p = .ok nodes) :
    (p.mode = .text ∨ ∃ backslash, p.mode = .escaped backslash) ∧ p.enclosing = [] ∧
      nodes = p.flushedNodes.reverse := by
  unfold topNodes at h
  split at h
  · rename_i hmode henclosing
    exact ⟨.inl hmode, henclosing, (Except.ok.inj h).symm⟩
  · rename_i backslash hmode henclosing
    exact ⟨.inr ⟨backslash, hmode⟩, henclosing, (Except.ok.inj h).symm⟩
  · cases h

/-- The empty text completes in text or behind a backslash only. -/
theorem mode_of_completes_nil (h : Completes limit p here []) :
    (p.mode = .text ∨ ∃ backslash, p.mode = .escaped backslash) ∧ p.enclosing = [] := by
  obtain ⟨q, nodes, hrun, hnodes⟩ := h
  rw [run_nil, Except.ok.injEq] at hrun
  subst hrun
  exact ⟨(mode_of_topNodes hnodes).1, (mode_of_topNodes hnodes).2.1⟩

/-! ## Headers -/

/-- Behind an option list there are blanks and the brace. -/
theorem exists_gap_of_completes_optioned {marker : Position} {kind : String}
    {options : Tag.Options} {text : List Char}
    (h : Completes limit { p with mode := .optioned marker kind options } here text) :
    ∃ gap rest, IsGap gap ∧ text = gap ++ '{' :: rest := by
  induction text generalizing here with
  | nil => simpa using (mode_of_completes_nil h).1
  | cons c text ih =>
    obtain ⟨q, hstep, hrest⟩ := completes_cons_iff.mp h
    simp only [step, stepOptioned] at hstep
    split at hstep
    · rename_i hblank
      cases hstep
      obtain ⟨gap, rest, hgap, rfl⟩ := ih hrest
      exact ⟨c :: gap, rest, by simpa [IsGap, hblank] using hgap, rfl⟩
    · split at hstep
      · rename_i hbrace
        subst hbrace
        exact ⟨[], text, rfl, rfl⟩
      · cases hstep

/-- Inside the parentheses there are options, and then the list is closed. -/
theorem exists_options_of_completes {marker : Position} {kind : String} {typed text : List Char}
    (h : Completes limit { p with mode := .options marker kind typed } here text) :
    ∃ body rest options there, IsOptionBody body ∧ text = body ++ ')' :: rest ∧
      readOptions (typed.reverse ++ body) = .ok options ∧
      Completes limit { p with mode := .optioned marker kind options } there rest := by
  induction text generalizing here typed with
  | nil => simpa using (mode_of_completes_nil h).1
  | cons c text ih =>
    obtain ⟨q, hstep, hrest⟩ := completes_cons_iff.mp h
    simp only [step, stepOptions] at hstep
    split at hstep
    · rename_i hclose
      subst hclose
      split at hstep
      · rename_i options hread
        cases hstep
        exact ⟨[], text, options, _, by simp [IsOptionBody], rfl, by simpa using hread, hrest⟩
      · cases hstep
    · rename_i hclose
      split at hstep
      · cases hstep
      · rename_i hallowed
        cases hstep
        obtain ⟨body, rest, options, there, hbody, rfl, hread, hrest⟩ := ih hrest
        refine ⟨c :: body, rest, options, there, ?_, rfl, ?_, hrest⟩
        · intro d hd
          rcases List.mem_cons.mp hd with rfl | hd
          · simp only [isForbiddenInOptions, Bool.or_eq_true, beq_iff_eq, not_or] at hallowed
            simp only [tagSigns, List.mem_cons, List.not_mem_nil, or_false, not_or]
            exact ⟨hallowed.1.1.1, hallowed.1.1.2, hallowed.1.2, hclose, hallowed.2⟩
          · exact hbody d hd
        · simpa using hread

/-- Behind a name there are blanks, and then the brace or an option list. -/
theorem exists_gap_of_completes_named {marker : Position} {kind : String} {text : List Char}
    (h : Completes limit { p with mode := .named marker kind } here text) :
    ∃ gap rest, IsGap gap ∧ (text = gap ++ '{' :: rest ∨ (text = gap ++ '(' :: rest ∧
      ∃ there, Completes limit { p with mode := .options marker kind [] } there rest)) := by
  induction text generalizing here with
  | nil => simpa using (mode_of_completes_nil h).1
  | cons c text ih =>
    obtain ⟨q, hstep, hrest⟩ := completes_cons_iff.mp h
    simp only [step, stepNamed] at hstep
    split at hstep
    · rename_i hblank
      cases hstep
      obtain ⟨gap, rest, hgap, hcases⟩ := ih hrest
      refine ⟨c :: gap, rest, by simpa [IsGap, hblank] using hgap, ?_⟩
      rcases hcases with rfl | ⟨rfl, hoptions⟩
      · exact .inl rfl
      · exact .inr ⟨rfl, hoptions⟩
    · split at hstep
      · rename_i hopen
        subst hopen
        cases hstep
        exact ⟨[], text, rfl, .inr ⟨rfl, _, hrest⟩⟩
      · split at hstep
        · rename_i hbrace
          subst hbrace
          exact ⟨[], text, rfl, .inl rfl⟩
        · cases hstep

/-- Behind an `@` there is a name. -/
theorem exists_name_of_completes {marker : Position} {typed text : List Char}
    (h : Completes limit { p with mode := .name marker typed } here text) :
    ∃ word rest there, IsName (typed.reverse ++ word) ∧ text = word ++ rest ∧
      Completes limit { p with mode := .named marker (String.ofList (typed.reverse ++ word)) }
        there rest := by
  induction text generalizing here typed with
  | nil => simpa using (mode_of_completes_nil h).1
  | cons c text ih =>
    obtain ⟨q, hstep, hrest⟩ := completes_cons_iff.mp h
    by_cases hend : endsName c = true
    · have hname : IsName typed.reverse := by
        simp only [step, stepName, hend, if_true] at hstep
        split at hstep
        · rename_i hgood
          rw [Bool.and_eq_true, List.all_eq_true] at hgood
          refine ⟨by simpa using hgood.1, fun d hd => ?_⟩
          exact (isNameCharacter_iff d).mp (hgood.2 d (List.mem_reverse.mp hd))
        · cases hstep
      refine ⟨[], c :: text, here, by simpa using hname, rfl, ?_⟩
      unfold Completes at h ⊢
      rw [List.append_nil, ← run_name_of_endsName hname hend]
      exact h
    · simp only [step, stepName, hend] at hstep
      cases hstep
      obtain ⟨word, rest, there, hname, rfl, hnamed⟩ := ih hrest
      rw [List.reverse_cons, List.append_assoc] at hname hnamed
      exact ⟨c :: word, rest, there, hname, rfl, hnamed⟩

/-- In text, an `@` is passed under the limit only. -/
theorem step_text_marker_cases {q : Progress} (hmode : p.mode = .text)
    (h : step limit p here '@' = .ok q) :
    ((p.enclosing.length + 1 : Nat) : Int) ≤ limit ∧
      q = { p.flush with mode := .name here [] } := by
  rw [step, hmode] at h
  simp only [stepText] at h
  rw [if_neg (by decide)] at h
  simp only [if_true] at h
  split at h
  · cases h
  · exact ⟨by omega, (Except.ok.inj h).symm⟩

/-- Behind an `@` there is a whole header, under the limit. -/
theorem exists_header_of_completes {text : List Char} (hmode : p.mode = .text)
    (h : Completes limit p here ('@' :: text)) :
    ∃ header rest kind options, Header header kind options ∧ '@' :: text = header ++ rest ∧
      ((p.enclosing.length + 1 : Nat) : Int) ≤ limit := by
  obtain ⟨q, hstep, hname⟩ := completes_cons_iff.mp h
  obtain ⟨hdepth, rfl⟩ := step_text_marker_cases hmode hstep
  obtain ⟨name, behind, there, hword, rfl, hnamed⟩ := exists_name_of_completes hname
  rw [List.reverse_nil, List.nil_append] at hword hnamed
  obtain ⟨gap, rest, hgap, rfl | ⟨rfl, there, hoptions⟩⟩ := exists_gap_of_completes_named hnamed
  · refine ⟨_, rest, _, _, .bare hword hgap, ?_, hdepth⟩
    simp
  · obtain ⟨body, rest, options, there, hbody, rfl, hread, hoptioned⟩ :=
      exists_options_of_completes hoptions
    obtain ⟨behind, rest, hbehind, rfl⟩ := exists_gap_of_completes_optioned hoptioned
    refine ⟨_, rest, _, _,
      .optioned hword hgap ((readOptions_eq_ok_iff hbody).mp hread) hbehind, ?_, hdepth⟩
    simp

/-! ## Blocks -/

/-- A character that is no sign is a unit. -/
theorem textUnit_plain {c : Char} (hescape : c ≠ '\\') (hmarker : c ≠ '@') (hclose : c ≠ '}') :
    TextUnit [c] (plainCharacter c) := by
  unfold plainCharacter
  split
  · rename_i hbreak
    rw [hbreak]
    exact .lineFeed
  · rename_i hbreak
    exact .plain (by simp [hescape, hmarker, hclose, hbreak])

/-- A backslash and any character are a unit. -/
theorem textUnit_escaped (c : Char) : TextUnit ['\\', c] (escapedCharacter c) := by
  unfold escapedCharacter
  split
  · rename_i hn
    rw [hn]
    exact .escapedBreak
  · split
    · rename_i hbreak
      rw [hbreak]
      exact .escapedLineFeed
    · rename_i hn hbreak
      exact .escaped (by simp [hn, hbreak])

/-- What may stand behind the items of a block: the brace that closes it, or at the top nothing or
a last backslash. -/
def Follows (p : Progress) (rest : List Char) : Prop :=
  (p.enclosing = [] ∧ (rest = [] ∨ rest = ['\\'])) ∨ (p.enclosing ≠ [] ∧ ∃ tail, rest = '}' :: tail)

/-- The text starts with items that fit under the limit, and goes on as it must. -/
def StartsWithItems (limit : Int) (p : Progress) (here : Position) (text : List Char) : Prop :=
  ∃ body rest items, text = body ++ rest ∧ Items here body items ∧
    Fits limit p.enclosing.length items ∧ Follows p rest

/-- No items are enough, where the text goes on as it must at once. -/
theorem StartsWithItems.of_follows {text : List Char} (h : Follows p text) :
    StartsWithItems limit p here text :=
  ⟨[], text, [], rfl, .nil here, .nil limit _, h⟩

/-- A unit may stand in front. -/
theorem StartsWithItems.cons_unit {unit rest : List Char} {c : Char} (hunit : TextUnit unit c)
    (h : StartsWithItems limit (p.collect c here) (here.afterText unit) rest) :
    StartsWithItems limit p here (unit ++ rest) := by
  obtain ⟨body, rest, items, rfl, hitems, hfits, hfollows⟩ := h
  refine ⟨unit ++ body, rest, _, ?_, .unit hunit hitems, hfits.cons_character c here, hfollows⟩
  rw [List.append_assoc]

/-- Behind a header there is a whole block, and items again, if shorter texts that complete start
with items. -/
theorem StartsWithItems.of_header {header behind : List Char} {kind : String}
    {options : Tag.Options} (hheader : Header header kind options) (hmode : p.mode = .text)
    (hdepth : ((p.enclosing.length + 1 : Nat) : Int) ≤ limit)
    (h : Completes limit p here (header ++ behind))
    (ih : ∀ {q : Progress} {there : Position} {text : List Char}, text.length ≤ behind.length →
      q.mode = .text → Completes limit q there text → StartsWithItems limit q there text) :
    StartsWithItems limit p here (header ++ behind) := by
  have hopened := completes_of_append (run_header hheader hmode hdepth) h
  obtain ⟨body, rest, inner, rfl, hinner, hfitsInner, hend⟩ := ih (Nat.le_refl _) rfl hopened
  obtain ⟨tail, rfl⟩ : ∃ tail, rest = '}' :: tail := by
    rcases hend with ⟨hnil, -⟩ | ⟨-, htail⟩
    · exact absurd hnil (List.cons_ne_nil _ _)
    · exact htail
  have hwhole := run_tag hheader hmode hdepth (run_items hinner rfl hfitsInner)
  have hshape : header ++ (body ++ '}' :: tail) = header ++ body ++ ['}'] ++ tail := by
    simp
  have hshorter : tail.length ≤ (body ++ '}' :: tail).length := by
    rw [List.length_append, List.length_cons]
    omega
  rw [hshape] at h
  obtain ⟨others, rest, items, rfl, hitems, hfits, hfollows⟩ :=
    ih hshorter rfl (completes_of_append hwhole h)
  refine ⟨header ++ body ++ ['}'] ++ others, rest, _, ?_, .tag hheader hinner hitems,
    .cons_tag hdepth hfitsInner hfits, hfollows⟩
  rw [hshape, List.append_assoc _ others]

/-- **Soundness.** In the text of a block, a text that completes starts with items that fit under
the limit. -/
theorem startsWithItems_of_completes {text : List Char} (hmode : p.mode = .text)
    (h : Completes limit p here text) : StartsWithItems limit p here text := by
  induction hlength : text.length using Nat.strong_induction_on generalizing text p here with
  | _ n ih =>
    cases text with
    | nil => exact .of_follows (.inl ⟨(mode_of_completes_nil h).2, .inl rfl⟩)
    | cons c text =>
      rw [List.length_cons] at hlength
      by_cases hescape : c = '\\'
      · subst hescape
        obtain ⟨q, hstep, hescaped⟩ := completes_cons_iff.mp h
        rw [step_text_escape hmode, Except.ok.injEq] at hstep
        subst hstep
        cases text with
        | nil => exact .of_follows (.inl ⟨(mode_of_completes_nil hescaped).2, .inr rfl⟩)
        | cons d text =>
          rw [List.length_cons] at hlength
          have hrest := completes_of_append (a := ['\\', d]) (run_escaped hmode d) h
          exact .cons_unit (textUnit_escaped d) (ih text.length (by omega) rfl hrest rfl)
      by_cases hmarker : c = '@'
      · subst hmarker
        obtain ⟨header, behind, kind, options, hheader, htext, hdepth⟩ :=
          exists_header_of_completes hmode h
        have hpositive : 0 < header.length := hheader.length_pos
        have hlengths := congrArg List.length htext
        rw [List.length_cons, List.length_append] at hlengths
        rw [htext] at h ⊢
        refine .of_header hheader hmode hdepth h fun {q there text} hle hmode h => ?_
        exact ih text.length (by omega) hmode h rfl
      by_cases hclose : c = '}'
      · subst hclose
        obtain ⟨q, hstep, -⟩ := completes_cons_iff.mp h
        refine .of_follows (.inr ⟨fun hnil => ?_, text, rfl⟩)
        rw [step, hmode] at hstep
        simp [stepText, closeBlock, hnil] at hstep
      · obtain ⟨q, hstep, hrest⟩ := completes_cons_iff.mp h
        rw [step_text_of_ne hmode hescape hmarker hclose, Except.ok.injEq] at hstep
        subst hstep
        have hunit := textUnit_plain hescape hmarker hclose
        exact .cons_unit hunit (ih text.length (by omega) rfl hrest rfl)

/-! ## Documents -/

/-- A tag among the items has no content. -/
theorem content_of_mem_items {text : List Char} {items : List Item} (h : Items here text items)
    {tag : Tag} (htag : .tag tag ∈ items) : tag.content = "" := by
  induction h with
  | nil here => cases htag
  | unit hunit hrest ih => exact ih (by simpa using htag)
  | tag hheader hbody hrest ihbody ihrest =>
    rcases List.mem_cons.mp htag with heq | hmem
    · rw [Item.tag.inj heq]
    · exact ihrest hmem

/-- At the top of a document the items fit exactly if no node is nested deeper than the limit. -/
theorem fits_zero_iff {text : List Char} {items : List Item} (h : Items here text items) :
    Fits limit 0 items ↔ ∀ node ∈ nodes items, node.nesting ≤ limit.toNat := by
  constructor
  · intro hfits node hnode
    refine nesting_le_of_mem_nodes (fun tag htag => ?_) hnode
    have := hfits tag htag
    omega
  · intro hnodes tag htag
    have hbound := hnodes tag (mem_nodesAfter htag [])
    have hone := Tag.one_le_nesting (content_of_mem_items h htag)
    omega

/-- With no tag open, a text may end in text or behind a backslash. -/
theorem topNodes_eq_ok (hmode : p.mode = .text ∨ ∃ backslash, p.mode = .escaped backslash)
    (henclosing : p.enclosing = []) : topNodes p = .ok p.flushedNodes.reverse := by
  obtain ⟨mode, pending, finished, enclosing⟩ := p
  simp only at hmode henclosing
  subst henclosing
  rcases hmode with rfl | ⟨backslash, rfl⟩ <;> rfl

/-- The nodes of a document are the ones that its items give the reader. -/
theorem flushedNodes_start (items : List Item) :
    (items.foldl Progress.absorb .start).flushedNodes.reverse = nodes items := by
  rw [flushedNodes_foldl_absorb_of_empty rfl, Progress.start, List.append_nil,
    List.reverse_reverse]

/-- A backslash behind the items of a document is dropped. -/
theorem run_dangling {text : List Char} {items : List Item} (h : Items .origin text items)
    (hfits : Fits limit 0 items) :
    ∃ q, run limit .start .origin (text ++ ['\\']) = .ok q ∧ topNodes q = .ok (nodes items) := by
  rw [run_append_of_ok (run_items h rfl hfits),
    run_cons_of_ok (step_text_escape (mode_foldl_absorb rfl items))]
  refine ⟨_, rfl, (topNodes_eq_ok (.inr ⟨_, rfl⟩) ?_).trans ?_⟩
  · exact enclosing_foldl_absorb .start items
  · exact congrArg Except.ok (flushedNodes_start items)

/-- The reader comes to the end of a document, and finds its nodes. -/
theorem run_of_document {text : List Char} {top : List Tag} (h : Document text top)
    (hnesting : ∀ node ∈ top, node.nesting ≤ limit.toNat) :
    ∃ q, run limit .start .origin text = .ok q ∧ topNodes q = .ok top := by
  cases h with
  | whole h =>
    refine ⟨_, run_items h rfl ((fits_zero_iff h).mpr hnesting), ?_⟩
    rw [topNodes_eq_ok (.inl (mode_foldl_absorb rfl _)) (enclosing_foldl_absorb .start _),
      flushedNodes_start]
  | dangling h => exact run_dangling h ((fits_zero_iff h).mpr hnesting)

/-- **Both halves.** The reader comes to the end of a text and finds these nodes exactly if the
text is a document with these nodes, none of them nested deeper than the limit. -/
theorem topNodes_run_iff {text : List Char} {top : List Tag} :
    (∃ q, run limit .start .origin text = .ok q ∧ topNodes q = .ok top) ↔
      Document text top ∧ ∀ node ∈ top, node.nesting ≤ limit.toNat := by
  constructor
  · rintro ⟨q, hrun, hnodes⟩
    obtain ⟨body, rest, items, rfl, hitems, hfits, hfollows⟩ :=
      startsWithItems_of_completes rfl ⟨q, top, hrun, hnodes⟩
    have hdocument : Document (body ++ rest) (nodes items) := by
      rcases hfollows with ⟨-, rfl | rfl⟩ | ⟨hne, -⟩
      · rw [List.append_nil]
        exact .whole hitems
      · exact .dangling hitems
      · exact absurd rfl hne
    have hbound := (fits_zero_iff hitems).mp hfits
    obtain ⟨q', hrun', hnodes'⟩ := run_of_document hdocument hbound
    rw [hrun, Except.ok.injEq] at hrun'
    rw [← hrun', hnodes, Except.ok.injEq] at hnodes'
    rw [hnodes']
    exact ⟨hdocument, hbound⟩
  · rintro ⟨hdocument, hbound⟩
    exact run_of_document hdocument hbound

/-! ## Outcomes -/

/-- A fault that judges a whole text by the number of its nodes. -/
def IsCountFault (fault : Fault) : Prop :=
  fault = .noRoot ∨ fault = .severalRoots

/-- A run finds no such fault, since what it finds is found at a character. -/
theorem not_isCountFault_of_run {text : List Char} {fault : Fault} {position : Position}
    (h : run limit p here text = .error ⟨fault, position⟩) : ¬ IsCountFault fault := by
  have hlocal : fault.isLocal = true := isLocal_of_run h
  rintro (rfl | rfl) <;> cases hlocal

/-- A document that fits is judged by the number of its nodes. -/
theorem outcome_readUnified_of_document {text : List Char} {top : List Tag}
    (h : Document text top) (hnesting : ∀ node ∈ top, node.nesting ≤ limit.toNat) :
    (readUnified limit text).outcome = soleNode (Position.origin.afterText text) top := by
  obtain ⟨q, hrun, hnodes⟩ := run_of_document h hnesting
  rw [readUnified, outcome_read, hrun]
  show finish q _ = _
  rw [finish, hnodes]

/-- A text is a document that fits, or it has a fault that is not about the number of nodes. -/
theorem document_or_fault (limit : Int) (text : List Char) :
    (∃ top, Document text top ∧ (∀ node ∈ top, node.nesting ≤ limit.toNat) ∧
      (readUnified limit text).outcome = soleNode (Position.origin.afterText text) top) ∨
    ∃ fault position, (readUnified limit text).outcome = .error ⟨fault, position⟩ ∧
      ¬ IsCountFault fault := by
  cases hrun : run limit .start .origin text with
  | error located =>
    refine .inr ⟨located.fault, located.position, ?_, not_isCountFault_of_run hrun⟩
    rw [readUnified, outcome_read, hrun]
    rfl
  | ok q =>
    cases hnodes : topNodes q with
    | ok top =>
      obtain ⟨hdocument, hnesting⟩ := topNodes_run_iff.mp ⟨q, hrun, hnodes⟩
      exact .inl ⟨top, hdocument, hnesting, outcome_readUnified_of_document hdocument hnesting⟩
    | error fault =>
      refine .inr ⟨fault, Position.origin.afterText text, ?_, ?_⟩
      · rw [readUnified, outcome_read, hrun]
        show finish q _ = _
        rw [finish, hnodes]
      · unfold topNodes at hnodes
        split at hnodes <;> cases hnodes
        simp [IsCountFault]

/-- One node is the root, and nothing else is. -/
theorem eq_of_soleNode_eq_ok {stop : Position} {top : List Tag} {root : Tag}
    (h : soleNode stop top = .ok root) : top = [root] := by
  cases top with
  | nil => cases h
  | cons first others =>
    cases others with
    | nil => exact congrArg (fun node => [node]) (Except.ok.inj h)
    | cons second others => cases h

/-- There is no root only where there is no node. -/
theorem eq_nil_of_soleNode_eq_noRoot {stop position : Position} {top : List Tag}
    (h : soleNode stop top = .error ⟨.noRoot, position⟩) : top = [] := by
  cases top with
  | nil => rfl
  | cons first others => cases others <;> cases h

/-- There are several roots only where there are two nodes, and the second is reported. -/
theorem exists_of_soleNode_eq_severalRoots {stop position : Position} {top : List Tag}
    (h : soleNode stop top = .error ⟨.severalRoots, position⟩) :
    ∃ first second others, top = first :: second :: others ∧ second.position = position := by
  cases top with
  | nil => cases h
  | cons first others =>
    cases others with
    | nil => cases h
    | cons second others =>
      refine ⟨first, second, others, rfl, ?_⟩
      cases h
      rfl

/-- The reader gives a root exactly if the text is a document with that one node, and it fits. -/
theorem outcome_readUnified_eq_ok_iff {text : List Char} {root : Tag} :
    (readUnified limit text).outcome = .ok root ↔
      Document text [root] ∧ root.nesting ≤ limit.toNat := by
  constructor
  · intro h
    rcases document_or_fault limit text with ⟨top, hdocument, hnesting, hsole⟩ | ⟨_, _, hfault, -⟩
    · obtain rfl := eq_of_soleNode_eq_ok (hsole.symm.trans h)
      exact ⟨hdocument, hnesting root List.mem_cons_self⟩
    · rw [h] at hfault
      cases hfault
  · rintro ⟨hdocument, hnesting⟩
    exact outcome_readUnified_of_document hdocument (by simpa using hnesting)

/-- **The reader accepts exactly the grammar.** Whatever depth is asked for, it gives a root
exactly if the text, its line ends unified, is a document with that one node and no tag of it lies
deeper than the limit. Otherwise it tells that there is no node exactly for the documents without
any, and that there are several, at the second one, exactly for the documents with more. -/
theorem outcome_readMarkup_iff_document (frames : Nat) (asked : Int) (text : List Char) :
    (∀ root, (readMarkup frames asked text).outcome = .ok root ↔
      Document (Text.unifyLineBreaks text) [root] ∧
        root.nesting ≤ (effectiveDepth frames asked).toNat) ∧
    ((∃ position, (readMarkup frames asked text).outcome = .error ⟨.noRoot, position⟩) ↔
      Document (Text.unifyLineBreaks text) []) ∧
    ∀ position, (readMarkup frames asked text).outcome = .error ⟨.severalRoots, position⟩ ↔
      ∃ first second others, Document (Text.unifyLineBreaks text) (first :: second :: others) ∧
        (∀ node ∈ first :: second :: others, node.nesting ≤ (effectiveDepth frames asked).toNat) ∧
        second.position = position := by
  refine ⟨fun root => outcome_readUnified_eq_ok_iff, ⟨?_, ?_⟩, fun position => ⟨?_, ?_⟩⟩
  · rintro ⟨position, h⟩
    rw [readMarkup] at h
    rcases document_or_fault (effectiveDepth frames asked) (Text.unifyLineBreaks text) with
      ⟨top, hdocument, -, hsole⟩ | ⟨fault, _, hfault, hcount⟩
    · obtain rfl := eq_nil_of_soleNode_eq_noRoot (hsole.symm.trans h)
      exact hdocument
    · rw [h] at hfault
      cases hfault
      exact absurd (.inl rfl) hcount
  · intro hdocument
    exact ⟨_, outcome_readUnified_of_document hdocument (by simp)⟩
  · intro h
    rw [readMarkup] at h
    rcases document_or_fault (effectiveDepth frames asked) (Text.unifyLineBreaks text) with
      ⟨top, hdocument, hnesting, hsole⟩ | ⟨fault, _, hfault, hcount⟩
    · obtain ⟨first, second, others, rfl, hposition⟩ :=
        exists_of_soleNode_eq_severalRoots (hsole.symm.trans h)
      exact ⟨first, second, others, hdocument, hnesting, hposition⟩
    · rw [h] at hfault
      cases hfault
      exact absurd (.inr rfl) hcount
  · rintro ⟨first, second, others, hdocument, hnesting, rfl⟩
    exact outcome_readUnified_of_document hdocument hnesting

end AtMarkup.Markup
