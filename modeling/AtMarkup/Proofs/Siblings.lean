import Mathlib
import AtMarkup.Proofs.CarriedText
import AtMarkup.Proofs.Relocation

/-!
# Siblings do not interfere

What a block holds may be written behind what another block holds, if that is nothing or ends with a
tag. The nodes are then those of the one block and behind them those of the other, each where it now
stands (`siblings_concatenate`).

* `nodesAfter_append_tag`: a tag parts the nodes before it from those behind it. Text would not: the
  runs on both sides of a cut are one run, and one leaf.
* `exists_last_node`: where a text ends in a closing brace, its last node is a tag that it closes,
  or the leaf of a run with that brace in it, escaped. So a last node without content is the tag.
* `exists_items_of_mainBlock`: a `main` tag around a text that can be read has the items of the text
  in it. That the brace behind the text is the one that closes the tag needs the whole document: if
  an earlier one did, the rest would end in a brace and have a node of its own.
* `carries_furtherIn`: behind another text, each place of a text is so many characters further on.
-/

namespace AtMarkup

open Grammar Markup

/-! ## Where nodes are parted -/

namespace Grammar

variable {here : Position} {a b text : List Char} {items others : List Item}

/-- The empty text is spelled out as no items. -/
theorem Items.eq_nil (h : Items here text items) (htext : text = []) : items = [] := by
  cases h with
  | nil here => rfl
  | unit hunit hrest => exact absurd (List.append_eq_nil_iff.mp htext).1 hunit.ne_nil
  | tag hheader hbody hrest => simp at htext

/-- Items behind items. -/
theorem Items.append (ha : Items here a items) (hb : Items (here.afterText a) b others) :
    Items here (a ++ b) (items ++ others) := by
  induction ha with
  | nil here => exact hb
  | unit hunit hrest ih =>
    rw [Position.afterText_append] at hb
    rw [List.append_assoc]
    exact .unit hunit (ih hb)
  | tag hheader hbody hrest ihbody ihrest =>
    rw [Position.afterText_append] at hb
    rw [List.append_assoc]
    exact .tag hheader hbody (ihrest hb)

/-- A tag parts the nodes before it from those behind it. -/
theorem nodesAfter_append_tag (run : List (Char × Position)) (before : List Item) (tag : Tag)
    (behind : List Item) :
    nodesAfter run (before ++ .tag tag :: behind) =
      nodesAfter run (before ++ [.tag tag]) ++ nodes behind := by
  induction before generalizing run with
  | nil => simp [nodesAfter, nodes, leaf?]
  | cons item before ih =>
    cases item with
    | character c position => exact ih _
    | tag other => simp only [List.cons_append, nodesAfter, ih, List.append_assoc]

/-- A unit that ends in a brace stands for the brace. -/
theorem TextUnit.eq_brace {unit : List Char} {c : Char} (h : TextUnit unit c)
    (hlast : unit.getLast? = some '}') : c = '}' := by
  cases h with
  | plain hc => exact Option.some.inj hlast
  | escaped hc => exact Option.some.inj hlast
  | lineFeed | escapedBreak | escapedLineFeed => cases hlast

/-- Where a text ends in a brace, its last node is a leaf, or it is a tag and the last item. -/
theorem exists_last_node (h : Items here text items) (hlast : text.getLast? = some '}')
    (run : List (Char × Position)) :
    ∃ node, (nodesAfter run items).getLast? = some node ∧
      (node.HasContent ∨ ∃ before, items = before ++ [.tag node]) := by
  induction h generalizing run with
  | nil here => cases hlast
  | @unit here unit rest c items hunit hrest ih =>
    cases rest with
    | nil =>
      obtain rfl := hrest.eq_nil rfl
      rw [List.append_nil] at hlast
      obtain rfl := hunit.eq_brace hlast
      have hblank : Text.isBlankText ((run ++ [('}', here)]).map Prod.fst) = false := by
        have hbrace : Text.isBlankText ['}'] = false := by decide
        rw [List.map_append, Text.isBlankText_append, List.map_singleton, hbrace, Bool.and_false]
      obtain ⟨position, hleaf⟩ := exists_leaf?_eq rfl hblank
      refine ⟨_, ?_, .inl (isTextLeaf_of_leaf? hleaf).1⟩
      rw [nodesAfter, nodesAfter, hleaf]
      rfl
    | cons d rest =>
      rw [List.getLast?_append_of_ne_nil unit (List.cons_ne_nil d rest)] at hlast
      obtain ⟨node, hnode, hends⟩ := ih hlast (run ++ [(c, here)])
      refine ⟨node, hnode, hends.imp_right ?_⟩
      rintro ⟨before, rfl⟩
      exact ⟨_ :: before, rfl⟩
  | @tag here header body rest kind options inner items hheader hbody hrest ihbody ihrest =>
    cases rest with
    | nil =>
      obtain rfl := hrest.eq_nil rfl
      refine ⟨_, ?_, .inr ⟨[], rfl⟩⟩
      simp [nodesAfter, leaf?]
    | cons d rest =>
      rw [List.getLast?_append_of_ne_nil _ (List.cons_ne_nil d rest)] at hlast
      obtain ⟨node, hnode, hends⟩ := ihrest hlast []
      refine ⟨node, ?_, hends.imp_right ?_⟩
      · rw [nodesAfter, List.getLast?_append, List.getLast?_cons, hnode]
        rfl
      · rintro ⟨before, rfl⟩
        exact ⟨_ :: before, rfl⟩

/-- A text is empty, or it ends with the brace that closes the last of its nodes. An escaped brace
would not do, since the last node would be a text leaf, and that has content. -/
def EndsWithTag (text : List Char) (children : List Tag) : Prop :=
  text = [] ∨
    text.getLast? = some '}' ∧ ∃ last, children.getLast? = some last ∧ ¬ last.HasContent

/-- Behind a text that ends with a tag, the nodes of other items are nodes of their own. -/
theorem nodes_append_of_endsWithTag (h : Items here text items)
    (hend : EndsWithTag text (nodes items)) (others : List Item) :
    nodes (items ++ others) = nodes items ++ nodes others := by
  rcases hend with rfl | ⟨hlast, last, hnode, hcontent⟩
  · obtain rfl := h.eq_nil rfl
    rfl
  · obtain ⟨node, hnode', hcontent' | ⟨before, rfl⟩⟩ := exists_last_node h hlast []
    · obtain rfl := Option.some.inj (hnode.symm.trans hnode')
      exact absurd hcontent' hcontent
    · rw [List.append_assoc]
      exact nodesAfter_append_tag [] before node others

end Grammar

/-! ## Around a block -/

/-- A document that is a `main` tag around a text. -/
def mainBlock (text : List Char) : List Char :=
  mainHeader ++ text ++ ['}']

/-- Around a text without carriage returns there is none either. -/
theorem not_mem_mainBlock {text : List Char} (h : '\r' ∉ text) : '\r' ∉ mainBlock text := by
  have hheader : '\r' ∉ mainHeader := by decide
  unfold mainBlock
  simp [h, hheader]

/-- Where the text in the `main` tag starts. -/
def blockStart : Position :=
  Position.origin.afterText mainHeader

/-- A `main` tag at the start of a document. -/
def mainTag (children : List Tag) : Tag :=
  ⟨"main", .empty, "", .origin, children⟩

namespace Markup

variable {limit : Int} {text : List Char} {root : Tag}

/-- Items in a `main` tag are a document. -/
theorem document_mainBlock {items : List Item} (h : Items blockStart text items) :
    Document (mainBlock text) [mainTag (nodes items)] := by
  have hall := Items.tag header_main h (.nil _)
  rw [List.append_nil] at hall
  exact .whole hall

/-- Where a `main` tag around a text completes, it is read as a `main` tag and items behind it. -/
theorem exists_items_of_completes (h : Completes limit .start .origin (mainBlock text)) :
    ∃ body inner behind others, text ++ ['}'] = body ++ '}' :: behind ∧
      Items blockStart body inner ∧ Items (blockStart.afterText (body ++ ['}'])) behind others ∧
      Fits limit 0 (.tag (mainTag (nodes inner)) :: others) := by
  obtain ⟨_, _, _, _, -, -, hdepth⟩ := exists_header_of_completes rfl h
  have hshape : mainBlock text = mainHeader ++ (text ++ ['}']) := List.append_assoc _ _ _
  have hopened := h
  rw [hshape] at hopened
  obtain ⟨body, rest, inner, hbody, hinner, hfits, hfollows⟩ :=
    startsWithItems_of_completes rfl
      (completes_of_append (run_header header_main rfl hdepth) hopened)
  obtain ⟨tail, rfl⟩ : ∃ tail, rest = '}' :: tail := by
    rcases hfollows with ⟨hnil, -⟩ | ⟨-, htail⟩
    · cases hnil
    · exact htail
  have hwhole : mainBlock text = mainHeader ++ body ++ ['}'] ++ tail := by
    rw [hshape, hbody]
    simp
  rw [hwhole] at h
  have hmain := run_tag header_main rfl hdepth (run_items hinner rfl hfits)
  obtain ⟨behind, rest, others, rfl, hothers, hfitsOthers, hend⟩ :=
    startsWithItems_of_completes rfl (completes_of_append hmain h)
  rw [List.append_assoc, Position.afterText_append] at hothers
  rcases hend with ⟨-, rfl | rfl⟩ | ⟨hne, -⟩
  · rw [List.append_nil] at hbody
    exact ⟨body, inner, behind, others, hbody, hinner, hothers,
      .cons_tag hdepth hfits hfitsOthers⟩
  · -- The text would end in a backslash, and it ends in a brace.
    have hlast := congrArg List.getLast? hbody
    rw [← List.cons_append, ← List.append_assoc, List.getLast?_concat, List.getLast?_concat]
      at hlast
    cases hlast
  · exact absurd rfl hne

/-- A `main` tag around a text that can be read has the items of the text in it: the brace behind
the text is the one that closes the tag. -/
theorem exists_items_of_mainBlock (h : (readUnified limit (mainBlock text)).outcome = .ok root) :
    ∃ items, Items blockStart text items ∧ root = mainTag (nodes items) := by
  obtain ⟨hdocument, hnesting⟩ := outcome_readUnified_eq_ok_iff.mp h
  obtain ⟨q, hrun, htop⟩ := topNodes_run_iff.mpr ⟨hdocument, by simpa using hnesting⟩
  obtain ⟨body, inner, behind, others, hbody, hinner, hothers, hfits⟩ :=
    exists_items_of_completes ⟨q, [root], hrun, htop⟩
  have hall := Items.tag header_main hinner hothers
  have hwhole : mainHeader ++ body ++ ['}'] ++ behind = mainBlock text := by
    rw [mainBlock, List.append_assoc _ text, hbody]
    simp
  rw [hwhole] at hall
  have hnodes : nodes (.tag (mainTag (nodes inner)) :: others) = [root] := by
    rw [run_items hall rfl hfits, Except.ok.injEq] at hrun
    rw [← hrun, topNodes_eq_ok (.inl (mode_foldl_absorb rfl _)) (enclosing_foldl_absorb .start _),
      flushedNodes_start, Except.ok.injEq] at htop
    exact htop
  obtain ⟨hroot, hothersNodes⟩ : mainTag (nodes inner) = root ∧ nodes others = [] := by
    simpa [nodes, nodesAfter, leaf?] using hnodes
  obtain rfl : behind = [] := by
    by_contra hne
    have hlast : behind.getLast? = some '}' := by
      rw [← List.getLast?_cons_of_ne_nil hne,
        ← List.getLast?_append_of_ne_nil body (List.cons_ne_nil '}' behind), ← hbody,
        List.getLast?_concat]
    obtain ⟨node, hnode, -⟩ := exists_last_node hothers hlast []
    rw [← nodes, hothersNodes] at hnode
    cases hnode
  exact ⟨inner, List.append_cancel_right hbody ▸ hinner, hroot.symm⟩

end Markup

/-! ## Two blocks in one -/

/-- The position so many characters further on in a text. -/
def Position.furtherIn (text : List Char) (count : Nat) (position : Position) : Position :=
  .ofOffset text (position.offset.toNat + count)

/-- Behind another text in a `main` tag, a text stands so many characters further on. -/
theorem carries_furtherIn (a b : List Char) :
    Carries (Position.furtherIn (mainBlock (a ++ b)) a.length) blockStart (blockStart.afterText a)
      b := by
  rintro before ⟨behind, rfl⟩
  have hoffset : ((blockStart.afterText before).offset.toNat + a.length) =
      (mainHeader ++ a ++ before).length := by
    rw [blockStart, Position.offset_afterText, Position.offset_afterText_origin, List.length_append,
      List.length_append]
    omega
  have hshape : mainBlock (a ++ (before ++ behind)) =
      mainHeader ++ a ++ before ++ (behind ++ ['}']) := by
    simp [mainBlock]
  have hplace : Position.ofOffset (mainBlock (a ++ (before ++ behind)))
      (mainHeader ++ a ++ before).length =
        Position.origin.afterText (mainHeader ++ a ++ before) := by
    rw [hshape, ← Position.afterText_take (List.prefix_append _ _).length_le,
      List.take_left]
  rw [Position.furtherIn, hoffset, hplace, Position.afterText_append, Position.afterText_append,
    blockStart]

/-- A `main` tag whose children are those of two others is nested no deeper than the deeper one. -/
theorem nesting_mainTag_append_le {children others : List Tag} {bound : Nat}
    (hchildren : (mainTag children).nesting ≤ bound) (hothers : (mainTag others).nesting ≤ bound) :
    (mainTag (children ++ others)).nesting ≤ bound := by
  have hpositive : 1 ≤ bound := (Tag.one_le_nesting rfl).trans hchildren
  obtain ⟨below, rfl⟩ := Nat.exists_eq_add_of_le' hpositive
  rw [Tag.nesting_le_succ_iff rfl] at hchildren hothers ⊢
  intro child hchild
  rcases List.mem_append.mp hchild with hmem | hmem
  · exact hchildren child hmem
  · exact hothers child hmem

/-- Nor is it deeper for its children standing elsewhere. -/
theorem nesting_mainTag_relocated (f : Position → Position) (children : List Tag) :
    (mainTag (children.map (Tag.relocated f))).nesting = (mainTag children).nesting := by
  have hbelow : (children.map (Tag.relocated f)).map Tag.nesting = children.map Tag.nesting := by
    rw [List.map_map]
    exact List.map_congr_left fun child _ => child.nesting_relocated f
  rw [Tag.nesting, mainTag, hbelow, Tag.nesting, mainTag]

/-- **Main result.** Let two texts without carriage returns be read in a `main` tag each, the first
one empty or ending with a tag. Then the one behind the other is read in a `main` tag, under the
same limit. What is in it are the nodes of the first, as they are, and behind them those of the
second, each so many characters further on as the first has. -/
theorem siblings_concatenate {frames : Nat} {asked : Int} {a b : List Char}
    (ha : '\r' ∉ a) (hb : '\r' ∉ b)
    {first second : Tag} (hfirst : (readMarkup frames asked (mainBlock a)).outcome = .ok first)
    (hsecond : (readMarkup frames asked (mainBlock b)).outcome = .ok second)
    (hend : EndsWithTag a first.children) :
    (readMarkup frames asked (mainBlock (a ++ b))).outcome =
      .ok (mainTag (first.children ++
        second.children.map (Tag.relocated (.furtherIn (mainBlock (a ++ b)) a.length)))) := by
  have hab : '\r' ∉ a ++ b := by
    simp [ha, hb]
  rw [readMarkup_of_unified (not_mem_mainBlock ha)] at hfirst
  rw [readMarkup_of_unified (not_mem_mainBlock hb)] at hsecond
  rw [readMarkup_of_unified (not_mem_mainBlock hab)]
  obtain ⟨items, hitems, rfl⟩ := exists_items_of_mainBlock hfirst
  obtain ⟨others, hothers, rfl⟩ := exists_items_of_mainBlock hsecond
  have hall := hitems.append (hothers.relocated (carries_furtherIn a b))
  have hnodes := nodes_append_of_endsWithTag hitems hend
    (others.map (Item.relocated (.furtherIn (mainBlock (a ++ b)) a.length)))
  rw [nodes_relocated] at hnodes
  have hdocument := document_mainBlock hall
  rw [hnodes] at hdocument
  apply outcome_readUnified_eq_ok_iff.mpr
  refine ⟨hdocument, ?_⟩
  apply nesting_mainTag_append_le
  · exact (outcome_readUnified_eq_ok_iff.mp hfirst).2
  · rw [nesting_mainTag_relocated]
    exact (outcome_readUnified_eq_ok_iff.mp hsecond).2

/-- A tag, and behind it text with a line break and a tag in the second row: there the column is
counted from the line break, also behind the other tag. -/
theorem siblings_concatenate_second_row :
    ∃ first second : Tag,
      (readMarkup 1000 9 (mainBlock "@b\x7bx\x7d".toList)).outcome = .ok first ∧
      (readMarkup 1000 9 (mainBlock "y\n @i\x7b\x7d".toList)).outcome = .ok second ∧
      EndsWithTag "@b\x7bx\x7d".toList first.children ∧
      (readMarkup 1000 9 (mainBlock ("@b\x7bx\x7d".toList ++ "y\n @i\x7b\x7d".toList))).outcome =
        .ok (mainTag (first.children ++
          [.textLeaf "y " ⟨11, 0, 11⟩, ⟨"i", .empty, "", ⟨14, 1, 1⟩, []⟩])) := by
  have hfirst : (readMarkup 1000 9 (mainBlock "@b\x7bx\x7d".toList)).outcome =
      .ok (mainTag [⟨"b", .empty, "", ⟨6, 0, 6⟩, [.textLeaf "x" ⟨9, 0, 9⟩]⟩]) := by
    cbv
  have hsecond : (readMarkup 1000 9 (mainBlock "y\n @i\x7b\x7d".toList)).outcome =
      .ok (mainTag [.textLeaf "y " ⟨6, 0, 6⟩, ⟨"i", .empty, "", ⟨9, 1, 1⟩, []⟩]) := by
    cbv
  have hend : EndsWithTag "@b\x7bx\x7d".toList
      [⟨"b", .empty, "", ⟨6, 0, 6⟩, [.textLeaf "x" ⟨9, 0, 9⟩]⟩] :=
    .inr ⟨by decide, _, rfl, fun h => h rfl⟩
  have hboth := siblings_concatenate (by decide) (by decide) hfirst hsecond hend
  refine ⟨_, _, hfirst, hsecond, hend, hboth.trans ?_⟩
  cbv

end AtMarkup
