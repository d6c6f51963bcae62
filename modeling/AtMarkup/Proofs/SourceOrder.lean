import Mathlib
import AtMarkup.Proofs.Coordinates

/-!
# Nodes and the text that they come from

`Coordinates.lean` shows that every node of a document comes from its text. Here is where in the
text it stands, and in which order.

* **Tags** (`exists_kind_behind_marker`): a tag stands at its `@`, and its kind is written behind.
* **Text leaves** (`position_of_first_leaf`, `exists_source_of_leaf_behind`): a leaf stands where
  its run starts, blanks included. That is behind the brace that opens the block or behind the one
  that closes the tag before the leaf; a blank run in front of that tag has left nothing behind.
* **Order** (`pairwise_offset_of_items`): in the order of a walk each node stands behind the one
  before. The induction is on the derivation of the items; that parts of a text that follow each
  other have offsets that do is `offset_bounds_of_mem`.
* `placed_in_order_of_parse`: all of this for accepted documents, and the order of the rules that
  are reported for the others.
-/

namespace AtMarkup

open Grammar Position

/-! ## Where a node stands -/

/-- The node and its leaves stand where the text says. What makes a text leaf is its content: a tag
that is written with the name `text` is a tag as any other. -/
structure Tag.IsPlaced (text : List Char) (node : Tag) : Prop where
  /-- The node stands at a character of the text. -/
  stands : node.position.StandsIn .origin text
  /-- A tag stands at an `@`, and just its kind is written behind that. -/
  marker : ¬ node.HasContent → ∃ c rest,
    text.drop node.position.offset.toNat = '@' :: (node.kind.toList ++ c :: rest) ∧
      (Text.isBlank c = true ∨ c = '(' ∨ c = '{')
  /-- A leaf that is the first child stands just behind the brace that opens the block. -/
  first : ∀ leaf later, node.children = leaf :: later → leaf.HasContent →
    ∃ opening, Header (opening ++ ['{']) node.kind node.options ∧
      Between .origin text node.position leaf.position (opening ++ ['{'])
  /-- Any other leaf stands just behind the brace that closes the tag before it. -/
  behind : ∀ earlier previous leaf later, node.children = earlier ++ previous :: leaf :: later →
    leaf.HasContent → ∃ inside, IsSourceOf (inside ++ ['}']) previous ∧
      Between .origin text previous.position leaf.position (inside ++ ['}'])

namespace Grammar

variable {here : Position} {text : List Char} {items : List Item} {run : List (Char × Position)}

/-- Behind the `@` of a header stands the kind, and what follows it ends it. -/
theorem Header.exists_kind {header : List Char} {kind : String} {options : Tag.Options}
    (h : Header header kind options) : ∃ c rest, header = '@' :: (kind.toList ++ c :: rest) ∧
      (Text.isBlank c = true ∨ c = '(' ∨ c = '{') := by
  have hstop : ∀ c : Char, Markup.endsName c = true →
      Text.isBlank c = true ∨ c = '(' ∨ c = '{' := by
    intro c hc
    simp only [Markup.endsName, Bool.or_eq_true, beq_iff_eq] at hc
    tauto
  cases h with
  | bare hname hgap =>
    have hbrace : Markup.endsName '{' = true := rfl
    obtain ⟨c, rest, hcons, hend⟩ := Markup.exists_cons_behind_name hgap hbrace []
    refine ⟨c, rest, ?_, hstop c hend⟩
    rw [String.toList_ofList, ← hcons, List.append_assoc]
  | optioned hname hgap htext hbehind =>
    have hparenthesis : Markup.endsName '(' = true := rfl
    obtain ⟨c, rest, hcons, hend⟩ := Markup.exists_cons_behind_name hgap hparenthesis _
    refine ⟨c, rest, ?_, hstop c hend⟩
    rw [String.toList_ofList, ← hcons, List.append_assoc]

/-- A header ends with the brace that opens the block. -/
theorem Header.exists_opening {header : List Char} {kind : String} {options : Tag.Options}
    (h : Header header kind options) : ∃ opening, header = opening ++ ['{'] := by
  cases h with
  | @bare name gap _ _ => exact ⟨'@' :: (name ++ gap), rfl⟩
  | @optioned name gap text behind _ _ _ _ _ =>
    exact ⟨'@' :: (name ++ gap ++ '(' :: (text ++ ')' :: behind)), by simp⟩

/-- A tag stands at an `@` that its kind is written behind. -/
theorem exists_kind_behind_marker {node : Tag} {stop : Position} {source : List Char}
    (hpart : Between .origin text node.position stop source) (hsource : IsSourceOf source node) :
    ∃ c rest, text.drop node.position.offset.toNat = '@' :: (node.kind.toList ++ c :: rest) ∧
      (Text.isBlank c = true ∨ c = '(' ∨ c = '{') := by
  obtain ⟨header, body, inner, rfl, hheader, -⟩ := hsource.exists_header
  obtain ⟨c, rest, rfl, hstop⟩ := hheader.exists_kind
  obtain ⟨before, behind, rfl, hposition, -⟩ := hpart
  have hoffset : node.position.offset.toNat = before.length := by
    rw [hposition, offset_afterText_origin, Int.toNat_natCast]
  refine ⟨c, rest ++ body ++ '}' :: behind, ?_, hstop⟩
  rw [hoffset, List.append_assoc before, List.drop_left]
  simp

/-- The leaf of a run stands where the run starts. -/
theorem position_of_leaf?_eq_some {leaf : Tag} (h : leaf? run = some leaf) (here : Position) :
    leaf.position = (run.head?.map Prod.snd).getD here := by
  obtain ⟨c, start, rest, content, rfl, -, rfl⟩ := exists_start_of_leaf?_eq_some h
  rfl

/-- A text leaf in front of all nodes stands where the run before the items starts, or the items
if there is no run. -/
theorem position_of_first_leaf (h : Items here text items) {leaf : Tag} {later : List Tag}
    (hnodes : nodesAfter run items = leaf :: later) (hleaf : leaf.HasContent) :
    leaf.position = (run.head?.map Prod.snd).getD here := by
  induction h generalizing run with
  | nil here =>
    cases hsome : leaf? run with
    | none => simp [nodesAfter, hsome] at hnodes
    | some first =>
      simp only [nodesAfter, hsome, Option.toList_some, List.cons.injEq] at hnodes
      exact position_of_leaf?_eq_some (hnodes.1 ▸ hsome) _
  | unit hunit hrest ih =>
    rw [ih hnodes]
    cases run <;> rfl
  | tag hheader hbody hrest ihbody ihrest =>
    rw [nodesAfter] at hnodes
    cases hsome : leaf? run with
    | none =>
      simp only [hsome, Option.toList_none, List.nil_append, List.cons.injEq] at hnodes
      exact absurd (hnodes.1 ▸ rfl) hleaf
    | some first =>
      simp only [hsome, Option.toList_some, List.cons_append, List.cons.injEq] at hnodes
      exact position_of_leaf?_eq_some (hnodes.1 ▸ hsome) _

/-- A text leaf behind another node stands just behind the brace that closes that node. -/
theorem exists_source_of_leaf_behind (h : Items here text items) {earlier later : List Tag}
    {previous leaf : Tag} (hnodes : nodesAfter run items = earlier ++ previous :: leaf :: later)
    (hleaf : leaf.HasContent) :
    ∃ inside, IsSourceOf (inside ++ ['}']) previous ∧
      Between here text previous.position leaf.position (inside ++ ['}']) := by
  induction h generalizing run earlier with
  | nil here =>
    have hlength := congrArg List.length hnodes
    rw [nodesAfter] at hlength
    cases hsome : leaf? run <;> simp [hsome] at hlength
    omega
  | unit hunit hrest ih =>
    obtain ⟨inside, hsource, hpart⟩ := ih hnodes
    exact ⟨inside, hsource, hpart.append_right⟩
  | @tag here header body rest kind options inner items hheader hbody hrest ihbody ihrest =>
    -- The leaf of the run is not the one asked for: a tag follows it.
    have hbehind : ∀ before, ⟨kind, options, "", here, nodes inner⟩ :: nodesAfter [] items =
        before ++ previous :: leaf :: later → ∃ inside, IsSourceOf (inside ++ ['}']) previous ∧
          Between here (header ++ body ++ ['}'] ++ rest) previous.position leaf.position
            (inside ++ ['}']) := by
      intro before hlist
      cases before with
      | nil =>
        rw [List.nil_append, List.cons.injEq] at hlist
        obtain ⟨hprevious, hlater⟩ := hlist
        subst hprevious
        refine ⟨header ++ body, isSourceOf_mk hheader hbody, ?_⟩
        rw [position_of_first_leaf hrest hlater hleaf]
        exact between_self _ rest
      | cons first before =>
        rw [List.cons_append, List.cons.injEq] at hlist
        obtain ⟨inside, hsource, hpart⟩ := ihrest hlist.2
        exact ⟨inside, hsource, hpart.append_right⟩
    rw [nodesAfter] at hnodes
    cases hsome : leaf? run with
    | none =>
      rw [hsome, Option.toList_none, List.nil_append] at hnodes
      exact hbehind earlier hnodes
    | some first =>
      rw [hsome, Option.toList_some, List.singleton_append] at hnodes
      cases earlier with
      | nil =>
        rw [List.nil_append, List.cons.injEq, List.cons.injEq] at hnodes
        exact absurd (hnodes.2.1 ▸ rfl) hleaf
      | cons other earlier =>
        rw [List.cons_append, List.cons.injEq] at hnodes
        exact hbehind earlier hnodes.2

/-- Every node of a document stands where the text says. -/
theorem isPlaced_of_document {top : List Tag} (h : Document text top) :
    ∀ root ∈ top, ∀ node ∈ root.walk, node.IsPlaced text := by
  intro root hroot node hnode
  have hcomes := comesFrom_of_document h root hroot node hnode
  cases hcomes with
  | run _ hstart => exact absurd hstart List.not_mem_nil
  | leaf hcontent hstart =>
    exact {
      stands := hstart
      marker := fun hnot => absurd hcontent hnot
      first := fun leaf later hchildren => absurd hchildren.symm (List.cons_ne_nil leaf later)
      behind := fun earlier previous leaf later hchildren =>
        absurd hchildren.symm (List.append_ne_nil_of_right_ne_nil _ (List.cons_ne_nil _ _)) }
  | tag hpart hsource =>
    obtain ⟨header, body, inner, rfl, hheader, hbody, -, hchildren⟩ := hsource.exists_header
    have hheaderPart : Between .origin text node.position (node.position.afterText header)
        header := by
      refine hpart.trans ?_
      rw [List.append_assoc]
      exact between_self header _
    refine {
      stands := hpart.standsIn (by simp)
      marker := fun _ => exists_kind_behind_marker hpart hsource
      first := fun leaf later hleaves hleaf => ?_
      behind := fun earlier previous leaf later hleaves hleaf => ?_ }
    · obtain ⟨opening, rfl⟩ := hheader.exists_opening
      refine ⟨opening, hheader, ?_⟩
      rw [position_of_first_leaf hbody (hchildren.symm.trans hleaves) hleaf]
      exact hheaderPart
    · obtain ⟨inside, hprevious, hinner⟩ :=
        exists_source_of_leaf_behind hbody (hchildren.symm.trans hleaves) hleaf
      exact ⟨inside, hprevious, hpart.trans (hinner.append_right.append_left ['}'])⟩

/-! ## Order -/

/-- The nodes of items stand within their text. -/
theorem offset_bounds_of_mem (h : Items here text items) {node : Tag}
    (hnode : node ∈ (nodes items).flatMap Tag.walk) :
    here.offset ≤ node.position.offset ∧
      node.position.offset < here.offset + text.length := by
  obtain ⟨root, hroot, hnode⟩ := List.mem_flatMap.mp hnode
  exact (comesFrom_of_items h [] root hroot node hnode).standsIn.offset_bounds

/-- The leaf of a run has itself for its only node. -/
theorem flatMap_walk_leaf? (run : List (Char × Position)) :
    (leaf? run).toList.flatMap Tag.walk = (leaf? run).toList := by
  cases hsome : leaf? run with
  | none => rfl
  | some leaf =>
    obtain ⟨content, start, -, rfl⟩ := exists_of_leaf?_eq_some hsome
    rw [Option.toList_some, List.flatMap_singleton, Tag.walk_textLeaf]

/-- Runs have at most one leaf. -/
theorem pairwise_leaf? (run : List (Char × Position)) (R : Tag → Tag → Prop) :
    (leaf? run).toList.Pairwise R := by
  cases leaf? run with
  | none => exact .nil
  | some leaf => exact List.pairwise_singleton R leaf

/-- The leaf of a run stands in the run. -/
theorem position_mem_of_mem_leaf? {node : Tag} (h : node ∈ (leaf? run).toList) :
    node.position ∈ run.map Prod.snd := by
  obtain ⟨c, start, rest, content, rfl, -, rfl⟩ :=
    exists_start_of_leaf?_eq_some (Option.mem_toList.mp h)
  exact List.mem_cons_self

/-- In the order of a walk each node of the items stands behind the one before, and the first of
them behind the leaf of the run before the items. -/
theorem pairwise_offset_of_items (h : Items here text items)
    (hrun : ∀ position ∈ run.map Prod.snd, position.offset < here.offset) :
    ((nodesAfter run items).flatMap Tag.walk).Pairwise
      fun a b => a.position.offset < b.position.offset := by
  induction h generalizing run with
  | nil here =>
    rw [nodesAfter, flatMap_walk_leaf?]
    exact pairwise_leaf? run _
  | @unit here unit rest c items hunit hrest ih =>
    have hlength := List.length_pos_iff.mpr hunit.ne_nil
    refine ih fun position hposition => ?_
    rw [offset_afterText]
    rw [List.map_append, List.mem_append, List.map_singleton, List.mem_singleton] at hposition
    rcases hposition with hposition | rfl
    · have := hrun position hposition
      omega
    · omega
  | @tag here header body rest kind options inner items hheader hbody hrest ihbody ihrest =>
    have hleaf : ∀ node ∈ (leaf? run).toList, node.position.offset < here.offset :=
      fun node hnode => hrun _ (position_mem_of_mem_leaf? hnode)
    have hinner : ∀ node ∈ (nodes inner).flatMap Tag.walk,
        here.offset < node.position.offset ∧
          node.position.offset < here.offset + (header ++ body).length := by
      intro node hnode
      have hpositive := hheader.length_pos
      have hbounds := offset_bounds_of_mem hbody hnode
      rw [offset_afterText] at hbounds
      rw [List.length_append]
      omega
    have hlater : ∀ node ∈ (nodes items).flatMap Tag.walk,
        here.offset + (header ++ body).length < node.position.offset := by
      intro node hnode
      have hbound := (offset_bounds_of_mem hrest hnode).1
      rw [offset_afterText, List.length_append, List.length_singleton] at hbound
      omega
    have htag : ∀ node ∈ (nodes inner).flatMap Tag.walk ++ (nodes items).flatMap Tag.walk,
        here.offset < node.position.offset := by
      intro node hnode
      rcases List.mem_append.mp hnode with hnode | hnode
      · exact (hinner node hnode).1
      · have := hlater node hnode
        omega
    rw [nodesAfter, List.flatMap_append, flatMap_walk_leaf?, List.flatMap_cons, Tag.walk,
      List.cons_append]
    refine List.pairwise_append.mpr ⟨pairwise_leaf? run _, List.pairwise_cons.mpr ⟨htag, ?_⟩, ?_⟩
    · refine List.pairwise_append.mpr ⟨ihbody (by simp), ihrest (by simp), fun a ha b hb => ?_⟩
      exact (hinner a ha).2.trans (hlater b hb)
    · intro leaf hmem node hnode
      rcases List.mem_cons.mp hnode with rfl | hnode
      · exact hleaf leaf hmem
      · exact (hleaf leaf hmem).trans (htag node hnode)

/-- In the order of a walk each node of a document stands behind the one before. -/
theorem pairwise_offset_of_document {top : List Tag} (h : Document text top) :
    (top.flatMap Tag.walk).Pairwise fun a b => a.position.offset < b.position.offset := by
  cases h with
  | whole h => exact pairwise_offset_of_items h (by simp)
  | dangling h => exact pairwise_offset_of_items h (by simp)

end Grammar

/-- If the nodes of a tree stand in the order of a walk, then its broken rules are reported in
the order in which they stand. -/
theorem Tag.pairwise_offset_violations {root : Tag}
    (h : root.walk.Pairwise fun a b => a.position.offset < b.position.offset) :
    root.violations.Pairwise fun a b => a.position.offset ≤ b.position.offset := by
  have hself : ∀ (tag : Tag) (rules : List Rule),
      (tag.broken rules).Pairwise fun a b => a.position.offset ≤ b.position.offset := by
    refine fun tag rules => List.pairwise_of_forall_mem_list fun a ha b hb => ?_
    rw [position_of_mem_broken ha, position_of_mem_broken hb]
  have hroot : ∀ node ∈ root.walk, root.position.offset ≤ node.position.offset := by
    intro node hnode
    rw [walk] at h hnode
    rcases List.mem_cons.mp hnode with rfl | hnode
    · exact Int.le_refl _
    · exact ((List.pairwise_cons.mp h).1 node hnode).le
  rw [violations]
  refine List.pairwise_append.mpr ⟨hself root _, List.pairwise_flatMap.mpr ⟨?_, ?_⟩, ?_⟩
  · exact fun node _ => hself node _
  · refine h.imp fun hlt a ha b hb => ?_
    rw [position_of_mem_broken ha, position_of_mem_broken hb]
    exact hlt.le
  · intro a ha b hb
    obtain ⟨node, hnode, hmem⟩ := List.mem_flatMap.mp hb
    rw [position_of_mem_broken ha, position_of_mem_broken hmem]
    exact hroot node hnode

/-! ## Documents -/

/-- **Nodes stand where the text says, and in its order.** Let `text` be the characters of a
document, their line ends unified. If the document is accepted, then its root is a tag, every node
and its leaves are placed as `Tag.IsPlaced` tells, and along a walk the offsets strictly increase.
If it is rejected for rules that it breaks, then the offsets of these never decrease. -/
theorem placed_in_order_of_parse (frames : Nat) (asked : Int) (source : Source) :
    let text := Text.unifyLineBreaks source.characters
    (∀ root, (parse frames asked source).value = .ok root →
      ¬ root.HasContent ∧ (∀ node ∈ root.walk, node.IsPlaced text) ∧
        root.walk.Pairwise fun a b => a.position.offset < b.position.offset) ∧
    ∀ violations, (parse frames asked source).value = .error (.rules violations) →
      violations.Pairwise fun a b => a.position.offset ≤ b.position.offset := by
  intro text
  have horder : ∀ root, (readMarkup frames asked source.characters).outcome = .ok root →
      root.walk.Pairwise fun a b => a.position.offset < b.position.offset := by
    intro root h
    have := Grammar.pairwise_offset_of_document (Markup.outcome_readUnified_eq_ok_iff.mp h).1
    rwa [List.flatMap_singleton] at this
  refine ⟨fun root h => ?_, fun violations h => ?_⟩
  · obtain ⟨hread, hrules⟩ := parse_eq_ok_iff.mp h
    obtain ⟨hdocument, -⟩ := Markup.outcome_readUnified_eq_ok_iff.mp hread
    refine ⟨fun hcontent => ?_, ?_, horder root hread⟩
    · have hkind := Tag.kind_of_violations_eq_nil hrules
      rw [((isSound_of_readMarkup hread).1 root root.mem_walk_self |>.leaf hcontent).kind] at hkind
      exact absurd hkind (by decide)
    · exact Grammar.isPlaced_of_document hdocument root List.mem_cons_self
  · obtain ⟨root, hread, rfl, -⟩ := parse_eq_rules_iff.mp h
    exact Tag.pairwise_offset_violations (horder root hread)

/-- A document with two blank runs, which have no leaf, and a leaf behind its second tag; and a root
of another kind with two tags that each break a rule. -/
theorem placed_in_order_of_parse_two_tags :
    (∃ root, (parse 1000 9 (.text "@main\x7b\r\n @b\x7bx\x7d \r@c\x7b\x7d d\x7d")).value =
        .ok root ∧
      root.walk.map (fun node => (node.kind, node.position)) =
        [("main", ⟨0, 0, 0⟩), ("b", ⟨8, 1, 1⟩), ("text", ⟨11, 1, 4⟩), ("c", ⟨15, 2, 0⟩),
          ("text", ⟨19, 2, 4⟩)] ∧
      (∀ node ∈ root.walk,
        node.IsPlaced "@main\x7b\n @b\x7bx\x7d \n@c\x7b\x7d d\x7d".toList) ∧
      root.walk.Pairwise fun a b => a.position.offset < b.position.offset) ∧
    ∃ violations, (parse 1000 9 (.text "@a\x7b@link\x7b\x7d@image\x7b\x7d\x7d")).value =
        .error (.rules violations) ∧ violations.map (·.position.offset) = [0, 3, 10] ∧
      violations.Pairwise fun a b => a.position.offset ≤ b.position.offset := by
  have hroot : (parse 1000 9 (.text "@main\x7b\r\n @b\x7bx\x7d \r@c\x7b\x7d d\x7d")).value =
      .ok ⟨"main", .empty, "", ⟨0, 0, 0⟩, [⟨"b", .empty, "", ⟨8, 1, 1⟩, [.textLeaf "x" ⟨11, 1, 4⟩]⟩,
        ⟨"c", .empty, "", ⟨15, 2, 0⟩, []⟩, .textLeaf " d" ⟨19, 2, 4⟩]⟩ := by
    cbv
  have hrules : (parse 1000 9 (.text "@a\x7b@link\x7b\x7d@image\x7b\x7d\x7d")).value =
      .error (.rules [⟨.rootIsMain, ⟨0, 0, 0⟩⟩, ⟨.given "uri", ⟨3, 0, 3⟩⟩,
        ⟨.given "uri", ⟨10, 0, 10⟩⟩]) := by
    cbv
  obtain ⟨-, hplaced, horder⟩ := (placed_in_order_of_parse 1000 9 _).1 _ hroot
  refine ⟨⟨_, hroot, by cbv, hplaced, horder⟩, ⟨_, hrules, rfl, ?_⟩⟩
  exact (placed_in_order_of_parse 1000 9 _).2 _ hrules

end AtMarkup
