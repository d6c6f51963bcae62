import Mathlib
import AtMarkup.Proofs.WellFormed

/-!
# Coordinates

The reader carries a position along, one character at a time. What that position should be can be
said of the text alone: `Position.ofOffset text offset` counts the line feeds in front of the offset
and the characters behind the last of them.

* `Position.afterText_take`: passing the first characters of a text leads to the position that
  their number has in it.
* `Position.StandsIn` and `Position.Between`: a position is that of some character of a text, and
  two positions are the ends of some part of it. The text itself may start anywhere, so that what
  holds of its parts can be put together (`append_left`, `append_right`).
* `comesFrom_of_items`: every node of a document is a leaf that starts at some character or a tag
  that has a part of the text for its source (`Grammar.ComesFrom`). The induction is on the
  derivation of its items; the characters of a run that has no leaf yet are carried along.
* `coordinates_exact_of_parse`: the positions of nodes, faults and broken rules, and what
  diagnostics show of them.
-/

namespace AtMarkup

namespace Position

/-! ## Rows and columns -/

/-- Where the row starts that a text ends in: behind its last line feed, or where the text
starts. -/
def rowStart (before : List Char) : Nat :=
  match (before.idxsOf '\n').getLast? with
  | none => 0
  | some lastBreak => lastBreak + 1

/-- The position of an offset in a text: its row is the number of line feeds before it, and its
column is how far it is from the start of its row. -/
def ofOffset (text : List Char) (offset : Nat) : Position :=
  let before := text.take offset
  ⟨offset, before.count '\n', offset - rowStart before⟩

/-- A line feed starts a row behind it, and any other character leaves the start of the row. -/
theorem rowStart_append_singleton (before : List Char) (c : Char) :
    rowStart (before ++ [c]) = if c = '\n' then before.length + 1 else rowStart before := by
  rw [rowStart, List.idxsOf_append, List.getLast?_append]
  by_cases hc : c = '\n' <;> simp [hc, rowStart]

/-- Passing a text from the origin on counts its line feeds and what is behind the last of them. -/
theorem afterText_origin (before : List Char) :
    origin.afterText before =
      ⟨before.length, before.count '\n', before.length - rowStart before⟩ := by
  induction before using List.reverseRecOn with
  | nil => rfl
  | append_singleton before c ih =>
    rw [afterText_append, ih, afterText_cons, afterText_nil, after, rowStart_append_singleton]
    by_cases hc : c = '\n'
    · simp [hc, nextRow]
    · simp only [if_neg hc, nextColumn, List.length_append, List.count_append, mk.injEq,
        List.length_singleton, List.count_singleton, beq_eq_false_iff_ne.mpr hc,
        Bool.false_eq_true, if_false]
      refine ⟨?_, ?_, ?_⟩ <;> omega

/-- Passing the first characters of a text leads to the position that their number has in it. -/
theorem afterText_take {text : List Char} {offset : Nat} (h : offset ≤ text.length) :
    origin.afterText (text.take offset) = ofOffset text offset := by
  rw [afterText_origin, List.length_take, Nat.min_eq_left h, ofOffset]

/-- Passing a whole text leads to the position of its length. -/
theorem afterText_eq_ofOffset_length (text : List Char) :
    origin.afterText text = ofOffset text text.length := by
  rw [← afterText_take (Nat.le_refl _), List.take_length]

/-! ## Positions of characters -/

/-- The position is that of a character of the text, whose first character stands at `here`. -/
def StandsIn (position here : Position) (text : List Char) : Prop :=
  ∃ before c behind, text = before ++ c :: behind ∧ position = here.afterText before

variable {position here : Position} {a b : List Char}

/-- The first character of a text stands where the text starts. -/
theorem standsIn_self {text : List Char} (h : text ≠ []) : here.StandsIn here text := by
  obtain ⟨c, behind, rfl⟩ := List.exists_cons_of_ne_nil h
  exact ⟨[], c, behind, rfl, rfl⟩

/-- What stands in the first part of a text stands in the text. -/
theorem StandsIn.append_left (h : position.StandsIn here a) (b : List Char) :
    position.StandsIn here (a ++ b) := by
  obtain ⟨before, c, behind, rfl, rfl⟩ := h
  exact ⟨before, c, behind ++ b, by simp, rfl⟩

/-- What stands in the last part of a text stands in the text. -/
theorem StandsIn.append_right (h : position.StandsIn (here.afterText a) b) :
    position.StandsIn here (a ++ b) := by
  obtain ⟨before, c, behind, rfl, rfl⟩ := h
  exact ⟨a ++ before, c, behind, by simp, (afterText_append here a before).symm⟩

/-- What stands in a text has an offset between the two ends of it. -/
theorem StandsIn.offset_bounds {text : List Char} (h : position.StandsIn here text) :
    here.offset ≤ position.offset ∧ position.offset < here.offset + text.length := by
  obtain ⟨before, c, behind, rfl, rfl⟩ := h
  rw [offset_afterText, List.length_append, List.length_cons]
  omega

/-- What stands in a text that starts at the origin has the position of an offset in it. -/
theorem StandsIn.exists_offset {text : List Char} (h : position.StandsIn origin text) :
    ∃ offset < text.length, position = ofOffset text offset := by
  obtain ⟨before, c, behind, rfl, rfl⟩ := h
  refine ⟨before.length, by simp, ?_⟩
  rw [← afterText_take (by simp), List.take_left]

/-! ## Parts of a text -/

/-- Between two positions of a text stands a given part of it. The first character of the text
stands at `here`. -/
def Between (here : Position) (text : List Char) (start stop : Position) (part : List Char) :
    Prop :=
  ∃ before behind, text = before ++ part ++ behind ∧ start = here.afterText before ∧
    stop = start.afterText part

variable {start stop : Position} {part : List Char}

/-- A text starts with its first part. -/
theorem between_self (part behind : List Char) :
    Between here (part ++ behind) here (here.afterText part) part :=
  ⟨[], behind, rfl, rfl, rfl⟩

/-- A part of the first part of a text is a part of the text. -/
theorem Between.append_left (h : Between here a start stop part) (b : List Char) :
    Between here (a ++ b) start stop part := by
  obtain ⟨before, behind, rfl, rfl, rfl⟩ := h
  exact ⟨before, behind ++ b, by simp, rfl, rfl⟩

/-- A part of the last part of a text is a part of the text. -/
theorem Between.append_right (h : Between (here.afterText a) b start stop part) :
    Between here (a ++ b) start stop part := by
  obtain ⟨before, behind, rfl, rfl, rfl⟩ := h
  exact ⟨a ++ before, behind, by simp, (afterText_append here a before).symm, rfl⟩

/-- A part of any part of a text is a part of the text. -/
theorem Between.trans {text inner : List Char} {first last : Position}
    (h : Between here text start stop part) (hinner : Between start part first last inner) :
    Between here text first last inner := by
  obtain ⟨before, behind, rfl, rfl, -⟩ := h
  exact hinner.append_right.append_left behind

/-- A part that has characters starts at one of the text. -/
theorem Between.standsIn {text : List Char} (h : Between here text start stop part)
    (hpart : part ≠ []) : start.StandsIn here text := by
  obtain ⟨before, behind, rfl, rfl, -⟩ := h
  exact (standsIn_self hpart).append_right.append_left behind

end Position

/-- A text leaf has itself for its only node. -/
theorem Tag.walk_textLeaf (content : String) (position : Position) :
    (textLeaf content position).walk = [textLeaf content position] := by
  rw [walk]
  rfl

/-! ## Nodes -/

namespace Grammar

/-- A unit of text has characters. -/
theorem TextUnit.ne_nil {unit : List Char} {c : Char} (h : TextUnit unit c) : unit ≠ [] := by
  cases h <;> exact List.cons_ne_nil _ _

/-- The leaf of a run stands where the run starts. -/
theorem exists_start_of_leaf?_eq_some {run : List (Char × Position)} {node : Tag}
    (h : leaf? run = some node) :
    ∃ c start rest content, run = (c, start) :: rest ∧ content ≠ "" ∧
      node = Tag.textLeaf content start := by
  obtain ⟨content, position, hcontent, rfl⟩ := exists_of_leaf?_eq_some h
  cases run with
  | nil => cases h
  | cons first rest =>
    obtain ⟨c, start⟩ := first
    simp only [leaf?] at h
    split at h
    · cases h
    · obtain rfl : start = position := congrArg Tag.position (Option.some.inj h)
      exact ⟨c, start, rest, content, rfl, hcontent, rfl⟩

/-- The text is the source of a tag, from its `@` to the brace that closes its block. -/
def IsSourceOf (source : List Char) (tag : Tag) : Prop :=
  Items tag.position source [.tag tag]

/-- A header, what a block holds and a brace are the source of a tag. -/
theorem isSourceOf_mk {here : Position} {header body : List Char} {kind : String}
    {options : Tag.Options} {inner : List Item} (hheader : Header header kind options)
    (hbody : Items (here.afterText header) body inner) :
    IsSourceOf (header ++ body ++ ['}']) ⟨kind, options, "", here, nodes inner⟩ := by
  rw [IsSourceOf, ← List.append_nil (header ++ body ++ ['}'])]
  exact .tag hheader hbody (.nil _)

/-- Where a node comes from, in a text that starts at `here` behind a run of characters. -/
inductive ComesFrom (here : Position) (text : List Char) (run : List (Char × Position)) :
    Tag → Prop where
  /-- From the run before the text. -/
  | run {content : String} {start : Position} (hcontent : content ≠ "")
      (hstart : start ∈ run.map Prod.snd) : ComesFrom here text run (.textLeaf content start)
  /-- From characters of the text. -/
  | leaf {content : String} {start : Position} (hcontent : content ≠ "")
      (hstart : start.StandsIn here text) : ComesFrom here text run (.textLeaf content start)
  /-- From a part of the text. -/
  | tag {tag : Tag} {stop : Position} {source : List Char}
      (hpart : Position.Between here text tag.position stop source)
      (hsource : IsSourceOf source tag) : ComesFrom here text run tag

variable {here : Position} {a b text : List Char} {run : List (Char × Position)} {node : Tag}
  {items : List Item}

/-- What comes from the first part of a text comes from the text. -/
theorem ComesFrom.append_left (h : ComesFrom here a [] node) (b : List Char)
    (run : List (Char × Position)) : ComesFrom here (a ++ b) run node := by
  cases h with
  | run _ hstart => exact absurd hstart List.not_mem_nil
  | leaf hcontent hstart => exact .leaf hcontent (hstart.append_left b)
  | tag hpart hsource => exact .tag (hpart.append_left b) hsource

/-- What comes from the last part of a text comes from the text. -/
theorem ComesFrom.append_right (h : ComesFrom (here.afterText a) b [] node)
    (run : List (Char × Position)) : ComesFrom here (a ++ b) run node := by
  cases h with
  | run _ hstart => exact absurd hstart List.not_mem_nil
  | leaf hcontent hstart => exact .leaf hcontent hstart.append_right
  | tag hpart hsource => exact .tag hpart.append_right hsource

/-- A unit makes the run longer, and is itself a part of the text. -/
theorem ComesFrom.unit {unit rest : List Char} {c : Char} (hunit : TextUnit unit c)
    (h : ComesFrom (here.afterText unit) rest (run ++ [(c, here)]) node) :
    ComesFrom here (unit ++ rest) run node := by
  cases h with
  | run hcontent hstart =>
    rw [List.map_append, List.mem_append, List.map_singleton, List.mem_singleton] at hstart
    rcases hstart with hrun | rfl
    · exact .run hcontent hrun
    · exact .leaf hcontent ((Position.standsIn_self hunit.ne_nil).append_left rest)
  | leaf hcontent hstart => exact .leaf hcontent hstart.append_right
  | tag hpart hsource => exact .tag hpart.append_right hsource

/-- The leaf of a run comes from the run. -/
theorem comesFrom_of_leaf?_eq_some {leaf : Tag} (h : leaf? run = some leaf)
    (hnode : node ∈ leaf.walk) : ComesFrom here text run node := by
  obtain ⟨c, start, rest, content, rfl, hcontent, rfl⟩ := exists_start_of_leaf?_eq_some h
  rw [Tag.walk_textLeaf, List.mem_singleton] at hnode
  subst hnode
  exact .run hcontent List.mem_cons_self

/-- Every node of the items, and of the run before them, comes from there. -/
theorem comesFrom_of_items (h : Items here text items) (run : List (Char × Position)) :
    ∀ root ∈ nodesAfter run items, ∀ node ∈ root.walk, ComesFrom here text run node := by
  induction h generalizing run with
  | nil here =>
    intro root hroot node hnode
    rw [nodesAfter, Option.mem_toList] at hroot
    exact comesFrom_of_leaf?_eq_some hroot hnode
  | unit hunit hrest ih =>
    exact fun root hroot node hnode => .unit hunit (ih _ root hroot node hnode)
  | @tag here header body rest kind options inner items hheader hbody hrest ihbody ihrest =>
    intro root hroot node hnode
    rw [nodesAfter, List.mem_append, Option.mem_toList, List.mem_cons] at hroot
    rcases hroot with hleaf | rfl | hroot
    · exact comesFrom_of_leaf?_eq_some hleaf hnode
    · rcases Tag.mem_walk_iff.mp hnode with rfl | ⟨child, hchild, hnode⟩
      · exact .tag (Position.between_self (header ++ body ++ ['}']) rest)
          (isSourceOf_mk hheader hbody)
      · have hinner := (ihbody [] child hchild node hnode).append_right (a := header) []
        rw [List.append_assoc (header ++ body)]
        exact hinner.append_left _ run
    · exact (ihrest [] root hroot node hnode).append_right run

/-- The source of a tag is a header, what its block holds, and a brace. -/
theorem IsSourceOf.exists_header {source : List Char} {tag : Tag} (h : IsSourceOf source tag) :
    ∃ header body inner, source = header ++ body ++ ['}'] ∧ Header header tag.kind tag.options ∧
      Items (tag.position.afterText header) body inner ∧ tag.content = "" ∧
      tag.children = nodes inner := by
  obtain ⟨position, hposition⟩ : ∃ position, position = tag.position := ⟨_, rfl⟩
  rw [IsSourceOf, ← hposition] at h
  cases h with
  | @tag _ header body rest kind options inner _ hheader hbody hrest =>
    cases hrest
    exact ⟨header, body, inner, List.append_nil _, hheader, hbody, rfl, rfl⟩

/-- What comes from a text stands at a character of it. -/
theorem ComesFrom.standsIn (h : ComesFrom here text [] node) :
    node.position.StandsIn here text := by
  cases h with
  | run _ hstart => exact absurd hstart List.not_mem_nil
  | leaf _ hstart => exact hstart
  | tag hpart hsource =>
    obtain ⟨header, body, inner, rfl, -⟩ := hsource.exists_header
    exact hpart.standsIn (by simp)

/-- Every node of a document comes from its text. -/
theorem comesFrom_of_document {top : List Tag} (h : Document text top) :
    ∀ root ∈ top, ∀ node ∈ root.walk, ComesFrom .origin text [] node := by
  intro root hroot node hnode
  cases h with
  | whole h => exact comesFrom_of_items h [] root hroot node hnode
  | dangling h => exact (comesFrom_of_items h [] root hroot node hnode).append_left _ []

end Grammar

namespace Markup

open Grammar

/-! ## Faults -/

/-- A second root is reported where it stands. -/
theorem standsIn_of_severalRoots {limit : Int} {text : List Char} {position : Position}
    (h : (readUnified limit text).outcome = .error ⟨.severalRoots, position⟩) :
    position.StandsIn .origin text := by
  rcases document_or_fault limit text with
    ⟨top, hdocument, -, hsole⟩ | ⟨fault, other, hfault, hcount⟩
  · obtain ⟨first, second, others, rfl, rfl⟩ :=
      exists_of_soleNode_eq_severalRoots (hsole.symm.trans h)
    exact (comesFrom_of_document hdocument second (by simp) second second.mem_walk_self).standsIn
  · rw [h] at hfault
    cases hfault
    exact absurd (.inr rfl) hcount

/-- A fault is at a character of the document or behind the last one. -/
theorem exists_offset_of_outcome_eq_error {limit : Int} {text : List Char}
    {located : LocatedFault} (h : (readUnified limit text).outcome = .error located) :
    ∃ offset ≤ text.length, located.position = .ofOffset text offset := by
  rcases cases_of_outcome_eq_error h with
    ⟨-, offset, hoffset, hposition, -⟩ | ⟨-, hposition⟩ | hfault
  · exact ⟨offset, hoffset.le, hposition.trans (Position.afterText_take hoffset.le)⟩
  · exact ⟨_, Nat.le_refl _, hposition.trans (Position.afterText_eq_ofOffset_length text)⟩
  · obtain ⟨fault, position⟩ := located
    obtain rfl : fault = .severalRoots := hfault
    obtain ⟨offset, hoffset, hposition⟩ := (standsIn_of_severalRoots h).exists_offset
    exact ⟨offset, hoffset.le, hposition⟩

end Markup

/-! ## Documents -/

/-- A node breaks its rules where it stands. -/
theorem Tag.position_of_mem_broken {tag : Tag} {rules : List Rule} {violation : Violation}
    (h : violation ∈ tag.broken rules) : violation.position = tag.position := by
  obtain ⟨rule, -, rfl⟩ := List.mem_map.mp h
  rfl

/-- A rule is reported as broken where the node stands that breaks it. -/
theorem Tag.exists_of_mem_violations {root : Tag} {violation : Violation}
    (h : violation ∈ root.violations) :
    ∃ node ∈ root.walk, violation.position = node.position := by
  rw [violations, List.mem_append, List.mem_flatMap] at h
  rcases h with hroot | ⟨node, hnode, hmem⟩
  · exact ⟨root, root.mem_walk_self, position_of_mem_broken hroot⟩
  · exact ⟨node, hnode, position_of_mem_broken hmem⟩

/-- The diagnostic is about a place: it has its position, and the line and the column that it shows
are the row and the column of the place, counted from one. -/
structure Diagnostic.IsAt (d : Diagnostic) (place : Position) : Prop where
  /-- The position is that of the place. -/
  position : d.position = place
  /-- The line is one more than the row. -/
  line : d.position.line = place.row + 1
  /-- The column is one more, too. -/
  column : d.position.lineColumn = place.column + 1
  /-- Both are shown. -/
  text : d.text = d.stage.label ++ ": " ++ d.detail ++ " (line " ++ toString (place.row + 1) ++
    ", column " ++ toString (place.column + 1) ++ ")"

/-- A diagnostic is about the place of its position. -/
theorem Diagnostic.isAt_of_position_eq {d : Diagnostic} {place : Position}
    (h : d.position = place) : d.IsAt place := by
  subst h
  exact ⟨rfl, rfl, rfl, rfl⟩

/-- A node of what is read stands at a character of the document. -/
theorem exists_offset_of_readMarkup {frames : Nat} {asked : Int} {text : List Char}
    {root node : Tag} (h : (readMarkup frames asked text).outcome = .ok root)
    (hnode : node ∈ root.walk) :
    ∃ offset < (Text.unifyLineBreaks text).length,
      node.position = .ofOffset (Text.unifyLineBreaks text) offset := by
  obtain ⟨hdocument, -⟩ := Markup.outcome_readUnified_eq_ok_iff.mp h
  have hnode := Grammar.comesFrom_of_document hdocument root List.mem_cons_self node hnode
  exact hnode.standsIn.exists_offset

/-- **Every reported coordinate is exact.** Let `text` be the characters of a document, their line
ends unified. Whatever depth is asked for, each node of an accepted document stands at the position
of an offset in the text, and so does each node that breaks a rule; a fault of the markup stands
there or behind the last character. Diagnostics show the line and column of that position. -/
theorem coordinates_exact_of_parse (frames : Nat) (asked : Int) (source : Source) :
    let text := Text.unifyLineBreaks source.characters
    (∀ root, (parse frames asked source).value = .ok root →
      ∀ node ∈ root.walk, ∃ offset < text.length, node.position = .ofOffset text offset) ∧
    (∀ located, (parse frames asked source).value = .error (.markup located) →
      ∃ offset ≤ text.length, located.diagnostic.IsAt (.ofOffset text offset)) ∧
    ∀ violations, (parse frames asked source).value = .error (.rules violations) →
      ∀ violation ∈ violations, ∃ offset < text.length,
        violation.diagnostic.IsAt (.ofOffset text offset) := by
  intro text
  refine ⟨fun root h node hnode => ?_, fun located h => ?_, fun violations h violation hmem => ?_⟩
  · exact exists_offset_of_readMarkup (parse_eq_ok_iff.mp h).1 hnode
  · obtain ⟨offset, hoffset, hposition⟩ :=
      Markup.exists_offset_of_outcome_eq_error (parse_eq_markup_iff.mp h)
    exact ⟨offset, hoffset, Diagnostic.isAt_of_position_eq hposition⟩
  · obtain ⟨root, hroot, rfl, -⟩ := parse_eq_rules_iff.mp h
    obtain ⟨node, hnode, hposition⟩ := Tag.exists_of_mem_violations hmem
    obtain ⟨offset, hoffset, hexact⟩ := exists_offset_of_readMarkup hroot hnode
    exact ⟨offset, hoffset, Diagnostic.isAt_of_position_eq (hposition.trans hexact)⟩

/-- A node behind a line end of two characters, a text that ends inside a tag behind an escaped line
feed and another one, and a link without a target in the third row. -/
theorem coordinates_exact_of_parse_three_documents :
    (∃ root node, (parse 1000 9 (.text "@main\x7b\r\na @b\x7b\x7d\x7d")).value = .ok root ∧
      node ∈ root.walk ∧ node.kind = "b" ∧
      ∃ offset < 14, node.position = .ofOffset "@main\x7b\na @b\x7b\x7d\x7d".toList offset) ∧
    (∃ located, (parse 1000 9 (.text "@main\x7b\\\n\n")).value = .error (.markup located) ∧
      located.position = ⟨9, 2, 0⟩ ∧
      ∃ offset ≤ 9, located.diagnostic.IsAt (.ofOffset "@main\x7b\\\n\n".toList offset)) ∧
    ∃ violation, (parse 1000 9 (.text "@main\r\x7b\r @link\x7b\x7d\x7d")).value =
        .error (.rules [violation]) ∧ violation.position = ⟨9, 2, 1⟩ ∧
      ∃ offset < 17,
        violation.diagnostic.IsAt (.ofOffset "@main\n\x7b\n @link\x7b\x7d\x7d".toList offset) := by
  let node : Tag := ⟨"b", .empty, "", ⟨9, 1, 2⟩, []⟩
  let root : Tag := ⟨"main", .empty, "", ⟨0, 0, 0⟩, [.textLeaf " a " ⟨6, 0, 6⟩, node]⟩
  have hroot : (parse 1000 9 (.text "@main\x7b\r\na @b\x7b\x7d\x7d")).value = .ok root := by cbv
  have hchild : node ∈ root.children := List.mem_cons_of_mem _ List.mem_cons_self
  have hnode : node ∈ root.walk := Tag.mem_walk_of_mem_children hchild node.mem_walk_self
  have hfault : (parse 1000 9 (.text "@main\x7b\\\n\n")).value =
      .error (.markup ⟨.unexpectedEnd, ⟨9, 2, 0⟩⟩) := by
    cbv
  have hrules : (parse 1000 9 (.text "@main\r\x7b\r @link\x7b\x7d\x7d")).value =
      .error (.rules [⟨.given "uri", ⟨9, 2, 1⟩⟩]) := by
    cbv
  refine ⟨⟨root, node, hroot, hnode, rfl, ?_⟩, ⟨_, hfault, rfl, ?_⟩, ⟨_, hrules, rfl, ?_⟩⟩
  · exact (coordinates_exact_of_parse 1000 9 _).1 root hroot node hnode
  · exact (coordinates_exact_of_parse 1000 9 _).2.1 _ hfault
  · exact (coordinates_exact_of_parse 1000 9 _).2.2 _ hrules _ List.mem_cons_self

end AtMarkup
