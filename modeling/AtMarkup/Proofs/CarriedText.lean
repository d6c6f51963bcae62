import Mathlib
import AtMarkup.Proofs.Compiling
import AtMarkup.Proofs.Escaping
import AtMarkup.Proofs.ReadBack

/-!
# Any text can be carried

A text without carriage returns is written into a document with `quote`, compiled with escaping,
and taken out of the HTML again: break elements back to line breaks (`readBreaks`), then references
back to characters (`unescape`). What comes out is the text with its spacing compressed
(`compile_quoted`).

* Read: a `main` tag around a quoted text is a document with one leaf or none, whatever the text
  (`readMarkup_quoted`). This is said of the grammar only; that the reader agrees is known.
* Shown: escaped text holds no `<`, so that every `<br/>` in it stands for a line break of the
  text, and undoing the breaks before the references is the right order (`unescape_readBreaks`).
  A text that spells `<br/>`, `&amp;` or `\n` itself is no exception.
-/

namespace AtMarkup

open Grammar Markup

/-! ## Reading -/

/-- A run of characters has only its leaf for a node. -/
theorem nodes_characters (run : List (Char × Position)) :
    nodes (characters run) = (Grammar.leaf? run).toList := by
  have h := nodesAfter_characters [] run []
  rw [List.append_nil, List.nil_append] at h
  rw [nodes, h, nodesAfter]

/-- The leaf of a run that is not blank holds its characters, compressed. -/
theorem exists_leaf?_eq {run : List (Char × Position)} {text : List Char}
    (hrun : run.map Prod.fst = text) (hblank : Text.isBlankText text = false) :
    ∃ position, Grammar.leaf? run =
      some (Tag.textLeaf (String.ofList (Text.compressSpaces text)) position) := by
  cases run with
  | nil =>
    subst hrun
    cases hblank
  | cons first rest =>
    rw [List.map_cons] at hrun
    refine ⟨first.2, ?_⟩
    rw [Grammar.leaf?, hrun, hblank]
    rfl

/-- A document that is a `main` tag around a quoted text. -/
def mainAround (text : List Char) : List Char :=
  "@main\x7b".toList ++ quote text ++ ['\x7d']

/-- Around a text without carriage returns there is none either. -/
theorem not_mem_mainAround {text : List Char} (h : '\r' ∉ text) : '\r' ∉ mainAround text := by
  unfold mainAround
  simp [not_mem_quote h]

/-- The header of a `main` tag without options. -/
def mainHeader : List Char :=
  "@main\x7b".toList

/-- Such a header opens a `main` tag. -/
theorem header_main : Header mainHeader "main" .empty := by
  have hname : IsName "main".toList := by decide
  exact .bare hname isGap_nil

/-- The tag around a quoted text has the leaf of that text, and is nested once. -/
theorem document_mainAround (text : List Char) :
    ∃ run : List (Char × Position), run.map Prod.fst = text ∧
      Document (mainAround text) [⟨"main", .empty, "", .origin, nodes (characters run)⟩] := by
  have hunit : ∀ c ∈ text, TextUnit (quoteCharacter c) c := by
    intro c _
    exact textUnit_quoteCharacter c
  obtain ⟨run, hrun, hitems⟩ := exists_run hunit (Position.origin.afterText "@main\x7b".toList)
  rw [List.map_id'] at hrun
  have hbody := hitems (.nil _)
  rw [List.append_nil, List.append_nil] at hbody
  have hall := Items.tag header_main hbody (.nil _)
  rw [List.append_nil] at hall
  exact ⟨run, hrun, .whole hall⟩

/-- A `main` tag around a quoted text is read as one with the leaf of that text. -/
theorem readMarkup_quoted {text : List Char} (hreturn : '\r' ∉ text) {frames : Nat} {asked : Int}
    (hasked : 1 ≤ effectiveDepth frames asked) :
    ∃ run : List (Char × Position), run.map Prod.fst = text ∧
      (readMarkup frames asked (mainAround text)).outcome =
        .ok ⟨"main", .empty, "", .origin, (Grammar.leaf? run).toList⟩ := by
  obtain ⟨run, hrun, hdocument⟩ := document_mainAround text
  refine ⟨run, hrun, ?_⟩
  rw [readMarkup_of_unified (not_mem_mainAround hreturn), ← nodes_characters]
  apply outcome_readUnified_eq_ok_iff.mpr
  refine ⟨hdocument, ?_⟩
  have hchildren : ∀ child ∈ nodes (characters run), child.nesting ≤ 0 := by
    intro child hchild
    apply nesting_le_of_mem_nodes _ hchild
    intro tag htag
    simp [characters] at htag
  set root : Tag := ⟨"main", .empty, "", .origin, nodes (characters run)⟩
  have hcontent : root.content = "" := rfl
  have hnesting := (Tag.nesting_le_succ_iff hcontent).mpr hchildren
  omega

/-! ## Showing -/

namespace Html

/-- Undoes the break elements, and nothing else. -/
def readBreaks : List Char → List Char
  | '<' :: 'b' :: 'r' :: '/' :: '>' :: rest => '\n' :: readBreaks rest
  | c :: rest => c :: readBreaks rest
  | [] => []

/-- What does not start with `<` starts with no break element. -/
theorem readBreaks_cons {c : Char} (h : c ≠ '<') (rest : List Char) :
    readBreaks (c :: rest) = c :: readBreaks rest := by
  conv_lhs => unfold readBreaks
  split <;> simp_all

/-- A character that is shown is read back, unless it is a `<`. -/
theorem readBreaks_breakCharacter {c : Char} (h : c ≠ '<') (rest : List Char) :
    readBreaks (breakCharacter c ++ rest) = c :: readBreaks rest := by
  unfold breakCharacter
  split
  · rename_i hbreak
    rw [hbreak]
    rfl
  · exact readBreaks_cons h rest

/-- Text without a `<` is read back from its breaks. -/
theorem readBreaks_flatMap {text : List Char} (h : '<' ∉ text) :
    readBreaks (text.flatMap breakCharacter) = text := by
  induction text with
  | nil => rfl
  | cons c text ih =>
    rw [List.mem_cons, not_or] at h
    rw [List.flatMap_cons, readBreaks_breakCharacter (Ne.symm h.1), ih h.2]

/-- A text is read back from what is shown of its leaf: the breaks first, then the references. -/
theorem unescape_readBreaks (content : String) :
    unescape (readBreaks (textLeaf true content).toList) = content.toList := by
  have hshown : (textLeaf true content).toList =
      (content.toList.flatMap escapeCharacter).flatMap breakCharacter := by
    simp [textLeaf, withBreaks, escape]
  have hopen : '<' ∉ content.toList.flatMap escapeCharacter := by
    intro hmem
    obtain ⟨c, -, hc⟩ := List.mem_flatMap.mp hmem
    exact not_mem_escapeCharacter c (by decide) hc
  rw [hshown, readBreaks_flatMap hopen, unescape_escape]

/-- A `main` tag is shown as a division around its children. -/
theorem render_main (escaped : Bool) (position : Position) (children : List Tag) :
    render escaped ⟨"main", .empty, "", position, children⟩ =
      "<div class=\"main-tag\">" ++ String.join (children.map (render escaped)) ++ "</div>" := by
  have hkind : Tag.Kind.ofName? "main" = some .main := by decide
  rw [render_element hkind (by decide) (by decide)]
  simp [shell]

/-- A leaf is shown as its content. -/
theorem render_textLeaf (escaped : Bool) (content : String) (position : Position) :
    render escaped (Tag.textLeaf content position) = textLeaf escaped content := by
  have hkind : Tag.Kind.ofName? (Tag.textLeaf content position).kind = some .text := rfl
  rw [render, hkind]
  rfl

end Html

/-! ## The rules -/

/-- A `main` tag with nothing but text leaves in it keeps all rules. -/
theorem violations_main_of_leaves {position : Position} {children : List Tag}
    (h : ∀ child ∈ children, ∃ content place, child = Tag.textLeaf content place) :
    (Tag.mk "main" .empty "" position children).violations = [] := by
  have hwalk : ∀ node ∈ (Tag.mk "main" .empty "" position children).walk,
      node.broken (Rule.ofTag node) = [] := by
    intro node hnode
    rcases Tag.mem_walk_iff.mp hnode with rfl | ⟨child, hchild, hbelow⟩
    · rfl
    · obtain ⟨content, place, rfl⟩ := h child hchild
      rw [Tag.walk] at hbelow
      obtain rfl : node = Tag.textLeaf content place := by simpa [Tag.textLeaf] using hbelow
      rfl
  have hroot : (Tag.mk "main" .empty "" position children).broken [.rootIsMain] = [] := rfl
  rw [Tag.violations, hroot, List.nil_append]
  exact List.flatMap_eq_nil_iff.mpr hwalk

/-! ## Carrying -/

/-- Nodes of a run of characters are text leaves. -/
theorem exists_eq_textLeaf_of_mem {run : List (Char × Position)} {leaf : Tag}
    (h : leaf ∈ (Grammar.leaf? run).toList) :
    ∃ content position, leaf = Tag.textLeaf content position := by
  rw [Option.mem_toList] at h
  cases hblank : Text.isBlankText (run.map Prod.fst) with
  | true =>
    rw [leaf?_of_isBlankText hblank] at h
    cases h
  | false =>
    obtain ⟨position, hleaf⟩ := exists_leaf?_eq rfl hblank
    rw [hleaf] at h
    exact ⟨_, position, (Option.some.inj h).symm⟩

/-- A quoted text in a `main` tag is compiled to what is shown of its leaf, in a division. -/
theorem exists_compile_quoted {text : String} (h : '\r' ∉ text.toList) :
    ∃ run : List (Char × Position), run.map Prod.fst = text.toList ∧ ∃ tree,
      (compile .standard true
          (.text ("@main\x7b" ++ String.ofList (quote text.toList) ++ "\x7d"))).value =
        .ok ⟨"<div class=\"main-tag\">" ++
          String.join ((Grammar.leaf? run).toList.map (Html.render true)) ++ "</div>", tree⟩ := by
  have hdepth : 1 ≤ effectiveDepth Settings.standard.recursionLimit Settings.standard.depth := by
    decide
  obtain ⟨run, hrun, hread⟩ := readMarkup_quoted h hdepth
  have hcharacters : (Source.text ("@main\x7b" ++ String.ofList (quote text.toList) ++
      "\x7d")).characters = mainAround text.toList := by
    unfold Source.characters mainAround
    simp
  set root : Tag := ⟨"main", .empty, "", .origin, (Grammar.leaf? run).toList⟩
  have hrules : root.violations = [] := by
    apply violations_main_of_leaves
    intro leaf hleaf
    exact exists_eq_textLeaf_of_mem hleaf
  have hparse := parse_eq_ok_iff.mpr ⟨hcharacters ▸ hread, hrules⟩
  refine ⟨run, hrun, root.dump "", ?_⟩
  rw [value_compile, hparse, ← Html.render_main true .origin]
  rfl

/-- **Any text can be carried.** A text without carriage returns, quoted and put into a `main` tag,
is compiled. A blank text leaves nothing in the HTML, and any other is taken out of it again with
its spacing compressed. -/
theorem compile_quoted {text : String} (h : '\r' ∉ text.toList) :
    ∃ shown tree,
      (compile .standard true
          (.text ("@main\x7b" ++ String.ofList (quote text.toList) ++ "\x7d"))).value =
        .ok ⟨"<div class=\"main-tag\">" ++ shown ++ "</div>", tree⟩ ∧
      (Text.isBlankText text.toList = true → shown = "") ∧
      (Text.isBlankText text.toList = false →
        Html.unescape (Html.readBreaks shown.toList) = Text.compressSpaces text.toList) := by
  obtain ⟨run, hrun, tree, hcompile⟩ := exists_compile_quoted h
  refine ⟨_, tree, hcompile, ?_, ?_⟩
  · intro hblank
    rw [← hrun] at hblank
    rw [leaf?_of_isBlankText hblank]
    rfl
  · intro hblank
    obtain ⟨position, hleaf⟩ := exists_leaf?_eq hrun hblank
    have hjoin : String.join ((Grammar.leaf? run).toList.map (Html.render true)) =
        Html.textLeaf true (String.ofList (Text.compressSpaces text.toList)) := by
      rw [hleaf, Option.toList_some, List.map_singleton, Html.render_textLeaf]
      simp [String.join]
    rw [hjoin, Html.unescape_readBreaks, String.toList_ofList]

/-- A text that spells a break element, a reference, an escape and the signs of the grammar, and
has line breaks and spacing of its own, is carried. -/
theorem compile_quoted_signs :
    ∃ text shown tree, text = "<br/>\t &amp;\\n\n@b\x7b\x7d  '\"" ∧ '\r' ∉ text.toList ∧
      (compile .standard true
          (.text ("@main\x7b" ++ String.ofList (quote text.toList) ++ "\x7d"))).value =
        .ok ⟨"<div class=\"main-tag\">" ++ shown ++ "</div>", tree⟩ ∧
      Html.unescape (Html.readBreaks shown.toList) =
        "<br/> &amp;\\n\n@b\x7b\x7d '\"".toList := by
  have hreturn : '\r' ∉ "<br/>\t &amp;\\n\n@b\x7b\x7d  '\"".toList := by decide
  obtain ⟨shown, tree, hcompile, -, hshown⟩ := compile_quoted hreturn
  refine ⟨_, shown, tree, rfl, hreturn, hcompile, ?_⟩
  rw [hshown rfl]
  rfl

end AtMarkup
