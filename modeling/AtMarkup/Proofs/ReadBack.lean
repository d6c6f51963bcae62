import Mathlib
import AtMarkup.Proofs.Layout
import AtMarkup.Proofs.Unplaced

/-!
# Reading undoes writing

Whatever way a tree is laid out (`Layout`), reading the text gives the tree back, up to positions.

* A layout of sound nodes is spelled by the grammar with those nodes (`spelledAs_of_layout`).
  The induction is on the layout. The characters of a leaf are still open when the next node
  comes, so what is said of the items is said behind any run of characters (`nodesAfter run`):
  behind a text leaf that is the run of its characters, and no second leaf may follow; elsewhere
  it is empty, and blanks add nothing to the nodes.
* By the grammar's side of the reader the rest is a matter of depth and line ends
  (`readMarkup_of_layout`).
-/

namespace AtMarkup.Tag.Options

/-- New names are put behind the others in their order. -/
theorem entries_foldl_insert {pairs : List (String × String)} {options : Options}
    (h : ((options.entries ++ pairs).map Prod.fst).Nodup) :
    (pairs.foldl (fun options pair => options.insert pair.1 pair.2) options).entries =
      options.entries ++ pairs := by
  induction pairs generalizing options with
  | nil => simp
  | cons pair pairs ih =>
    have hnew : ¬ options.contains pair.1 = true := by
      rw [contains_iff_mem_names]
      intro hmem
      rw [List.map_append, List.nodup_append] at h
      exact h.2.2 pair.1 hmem pair.1 (by simp) rfl
    have hinsert : (options.insert pair.1 pair.2).entries = options.entries ++ [pair] := by
      rw [insert, dif_neg hnew]
    rw [List.foldl_cons, ih (by rwa [hinsert, List.append_assoc]), hinsert, List.append_assoc,
      List.singleton_append]

/-- The entries of options give the options again. -/
theorem ofList_entries (options : Options) : ofList options.entries = options :=
  eq_of_entries_eq (@entries_foldl_insert options.entries empty options.nodup)

end AtMarkup.Tag.Options

namespace AtMarkup.Markup

open Grammar

/-! ## Headers -/

/-- A written option is a segment of the grammar. -/
theorem Entry.segment {entry : String × String} {text : List Char} (h : Entry entry text)
    (hkey : IsKey entry.1.toList) (hvalue : IsValue entry.2.toList) : Segment text entry := by
  obtain ⟨hbefore, hbehind, hahead, hafter⟩ := h
  have hsegment := Segment.mk hbefore hkey hbehind hahead hvalue hafter
  rwa [String.ofList_toList, String.ofList_toList] at hsegment

/-- Written options are segments of the grammar. -/
theorem Entries.segments {entries : List (String × String)} {text : List Char}
    (h : Entries entries text) (hkeys : ∀ entry ∈ entries, IsKey entry.1.toList)
    (hvalues : ∀ entry ∈ entries, IsValue entry.2.toList) : Segments text entries := by
  induction h with
  | last h =>
    exact .last (h.segment (hkeys _ List.mem_cons_self) (hvalues _ List.mem_cons_self))
  | cons h hrest ih =>
    refine .cons (h.segment (hkeys _ List.mem_cons_self) (hvalues _ List.mem_cons_self)) (ih ?_ ?_)
    · exact fun entry hentry => hkeys entry (List.mem_cons_of_mem _ hentry)
    · exact fun entry hentry => hvalues entry (List.mem_cons_of_mem _ hentry)

/-- What is written in front of the block of a sound tag is a header with its name and options. -/
theorem header_of_optionBlock {tag : Tag} {behind block : List Char} (hsound : tag.IsSound)
    (hbehind : IsGap behind) (hblock : OptionBlock tag.options.entries block) :
    Header ('@' :: (tag.kind.toList ++ (behind ++ (block ++ ['{'])))) tag.kind tag.options := by
  have hkind : String.ofList tag.kind.toList = tag.kind := String.ofList_toList
  generalize hentries : tag.options.entries = entries at hblock
  cases hblock with
  | none =>
    have hoptions : tag.options = .empty := Tag.Options.eq_of_entries_eq hentries
    have hheader := Header.bare hsound.kind hbehind
    rw [hkind] at hheader
    simpa [hoptions] using hheader
  | @blank inner after hinner hafter =>
    have hoptions : tag.options = .empty := Tag.Options.eq_of_entries_eq hentries
    have hheader := Header.optioned hsound.kind hbehind (.blank hinner) hafter
    rw [hkind] at hheader
    simpa [hoptions] using hheader
  | @list _ text after htext hafter =>
    subst hentries
    have hsegments := htext.segments hsound.keys fun entry hentry => (hsound.values entry hentry).1
    have hgives := gives_ofList tag.options.entries
    have hheader := Header.optioned hsound.kind hbehind (.list hsegments hgives) hafter
    rw [hkind, Tag.Options.ofList_entries] at hheader
    simpa using hheader

/-! ## Runs of characters -/

/-- The items of a run of characters. -/
def characters (run : List (Char × Position)) : List Item :=
  run.map fun character => .character character.1 character.2

/-- The characters of a block go on a run. -/
theorem nodesAfter_characters (run more : List (Char × Position)) (items : List Item) :
    nodesAfter run (characters more ++ items) = nodesAfter (run ++ more) items := by
  induction more generalizing run with
  | nil => rw [characters, List.map_nil, List.nil_append, List.append_nil]
  | cons character more ih =>
    rw [characters, List.map_cons, List.cons_append, nodesAfter, ← characters, ih,
      List.append_assoc, List.singleton_append]

/-- Characters that are written as units are read as a run of what the units stand for. -/
theorem exists_run {write : Char → List Char} {decode : Char → Char} {text : List Char}
    (h : ∀ c ∈ text, TextUnit (write c) (decode c)) (here : Position) :
    ∃ run : List (Char × Position), run.map Prod.fst = text.map decode ∧
      ∀ {rest : List Char} {items : List Item},
        Items (here.afterText (text.flatMap write)) rest items →
        Items here (text.flatMap write ++ rest) (characters run ++ items) := by
  induction text generalizing here with
  | nil => exact ⟨[], rfl, fun hrest => hrest⟩
  | cons c text ih =>
    obtain ⟨run, hrun, hitems⟩ :=
      ih (fun d hd => h d (List.mem_cons_of_mem c hd)) (here.afterText (write c))
    refine ⟨(decode c, here) :: run, by rw [List.map_cons, hrun, List.map_cons], ?_⟩
    intro rest items hrest
    rw [List.flatMap_cons, Position.afterText_append] at hrest
    rw [List.flatMap_cons, List.append_assoc]
    exact .unit (h c List.mem_cons_self) (hitems hrest)

/-- Blanks are read as a run of blanks. -/
theorem exists_run_of_isGap {gap : List Char} (h : IsGap gap) (here : Position) :
    ∃ run : List (Char × Position), Text.isBlankText (run.map Prod.fst) = true ∧
      ∀ {rest : List Char} {items : List Item}, Items (here.afterText gap) rest items →
        Items here (gap ++ rest) (characters run ++ items) := by
  have hblank : ∀ c ∈ gap, Text.isBlank c = true := List.all_eq_true.mp h
  have hunit : ∀ c ∈ gap, TextUnit [c] (plainCharacter c) := fun c hc =>
    textUnit_plain (ne_of_isBlank (hblank c hc) rfl) (ne_of_isBlank (hblank c hc) rfl)
      (ne_of_isBlank (hblank c hc) rfl)
  obtain ⟨run, hrun, hitems⟩ := exists_run hunit here
  rw [List.flatMap_singleton'] at hitems
  refine ⟨run, ?_, hitems⟩
  rw [hrun, Text.isBlankText, List.all_map, List.all_eq_true]
  intro c hc
  show Text.isBlank (plainCharacter c) = true
  unfold plainCharacter
  split
  · rfl
  · exact hblank c hc

/-- A blank run has no leaf. -/
theorem leaf?_of_isBlankText {run : List (Char × Position)}
    (h : Text.isBlankText (run.map Prod.fst) = true) : Grammar.leaf? run = none := by
  cases run with
  | nil => rfl
  | cons first rest => exact if_pos h

/-- The run of the characters of a text leaf has that leaf, up to its position. -/
theorem map_unplaced_leaf? {run : List (Char × Position)} {leaf : Tag} (hleaf : leaf.IsTextLeaf)
    (hrun : run.map Prod.fst = leaf.content.toList) :
    (Grammar.leaf? run).toList.map Tag.unplaced = [leaf.unplaced] := by
  have hshape : leaf.unplaced = .textLeaf leaf.content {} := by
    have hoptions : leaf.options = .empty := Tag.Options.eq_of_entries_eq hleaf.options
    rw [Tag.unplaced, hleaf.kind, hoptions, hleaf.children]
    rfl
  have hblank : Text.isBlankText (run.map Prod.fst) = false := hrun ▸ hleaf.notBlank
  have hcompress : Text.compressSpaces (run.map Prod.fst) = leaf.content.toList := by
    rw [hrun, Text.compressSpaces_of_isCompressed hleaf.compressed]
  cases run with
  | nil => exact absurd hblank (by decide)
  | cons first rest =>
    rw [List.map_cons] at hblank hcompress
    rw [Grammar.leaf?, hblank, hcompress, String.ofList_toList, hshape]
    exact congrArg (fun tag => [tag]) (Tag.unplaced_textLeaf leaf.content first.2)

/-- Free blanks are read as a run that adds nothing to the leaf of the run before them. -/
theorem exists_run_of_isFreeGap {behindText : Bool} {gap : List Char}
    (h : IsFreeGap behindText gap) {run : List (Char × Position)}
    (hrun : behindText = false → run = []) (here : Position) :
    ∃ more : List (Char × Position), Grammar.leaf? (run ++ more) = Grammar.leaf? run ∧
      ∀ {rest : List Char} {items : List Item}, Items (here.afterText gap) rest items →
        Items here (gap ++ rest) (characters more ++ items) := by
  cases behindText with
  | false =>
    obtain ⟨more, hblank, hitems⟩ := exists_run_of_isGap h.1 here
    refine ⟨more, ?_, hitems⟩
    rw [hrun rfl, List.nil_append, leaf?_of_isBlankText hblank]
    rfl
  | true =>
    rw [h.2 rfl]
    exact ⟨[], by rw [List.append_nil], fun hrest => hrest⟩

/-! ## Nodes -/

/-- The text is spelled by the grammar, and behind a run of characters it gives these nodes, up to
positions, the leaf of the run in front of them. -/
def SpelledAs (run : List (Char × Position)) (siblings : List Tag) (here : Position)
    (text : List Char) : Prop :=
  ∃ items, Items here text items ∧
    (nodesAfter run items).map Tag.unplaced =
      (Grammar.leaf? run).toList.map Tag.unplaced ++ siblings.map Tag.unplaced

/-- Free blanks give no nodes. -/
theorem SpelledAs.gap {behindText : Bool} {gap : List Char} (hgap : IsFreeGap behindText gap)
    {run : List (Char × Position)} (hrun : behindText = false → run = []) (here : Position) :
    SpelledAs run [] here gap := by
  obtain ⟨more, hleaf, hitems⟩ := exists_run_of_isFreeGap hgap hrun here
  refine ⟨characters more ++ [], ?_, ?_⟩
  · simpa using hitems (.nil _)
  · rw [nodesAfter_characters, nodesAfter, hleaf, List.map_nil, List.append_nil]

/-- A written text leaf is the leaf of the run that what follows it is read behind. -/
theorem SpelledAs.leaf {leaf : Tag} {siblings : List Tag} {rest : List Char}
    (hleaf : leaf.IsTextLeaf)
    (hrest : ∀ (run : List (Char × Position)) (there : Position),
      SpelledAs run siblings there rest)
    (here : Position) :
    SpelledAs [] (leaf :: siblings) here (quote leaf.content.toList ++ rest) := by
  obtain ⟨more, hmore, hitems⟩ :=
    exists_run (fun c (_ : c ∈ leaf.content.toList) => textUnit_quoteCharacter c) here
  obtain ⟨items, hspelled, hnodes⟩ := hrest more (here.afterText (quote leaf.content.toList))
  refine ⟨characters more ++ items, hitems hspelled, ?_⟩
  rw [List.map_id'] at hmore
  rw [nodesAfter_characters, List.nil_append, hnodes, map_unplaced_leaf? hleaf hmore]
  rfl

/-- A written tag gives the tag, wherever it stands. -/
theorem SpelledAs.tag {behindText : Bool} {tag : Tag} {siblings : List Tag}
    {gap behind block body rest : List Char} (hsound : tag.IsSound) (hcontent : ¬ tag.HasContent)
    (hgap : IsFreeGap behindText gap) (hbehind : IsGap behind)
    (hblock : OptionBlock tag.options.entries block)
    (hbody : ∀ there : Position, SpelledAs [] tag.children there body)
    (hrest : ∀ there : Position, SpelledAs [] siblings there rest)
    {run : List (Char × Position)} (hrun : behindText = false → run = []) (here : Position) :
    SpelledAs run (tag :: siblings) here
      (gap ++ '@' :: (tag.kind.toList ++ (behind ++ (block ++ '{' :: (body ++ '}' :: rest))))) := by
  have hheader := header_of_optionBlock hsound hbehind hblock
  set header := '@' :: (tag.kind.toList ++ (behind ++ (block ++ ['{']))) with hdef
  set there := here.afterText gap
  obtain ⟨more, hleaf, hitems⟩ := exists_run_of_isFreeGap hgap hrun here
  obtain ⟨inner, hinner, hinnerNodes⟩ := hbody (there.afterText header)
  obtain ⟨items, hspelled, hnodes⟩ := hrest (there.afterText (header ++ body ++ ['}']))
  set read : Tag := ⟨tag.kind, tag.options, "", there, nodes inner⟩ with hread
  have hunplaced : read.unplaced = tag.unplaced := by
    have hempty : tag.content = "" := not_not.mp hcontent
    have hbelow : (nodes inner).map Tag.unplaced = tag.children.map Tag.unplaced := hinnerNodes
    conv_rhs => rw [Tag.unplaced]
    rw [Tag.unplaced, hread, hbelow, hempty]
  have htext : '@' :: (tag.kind.toList ++ (behind ++ (block ++ '{' :: (body ++ '}' :: rest)))) =
      header ++ body ++ ['}'] ++ rest := by
    simp [hdef]
  refine ⟨characters more ++ .tag read :: items, ?_, ?_⟩
  · rw [htext]
    exact hitems (.tag hheader hinner hspelled)
  · rw [nodesAfter_characters, nodesAfter, hleaf, List.map_append, List.map_cons, hunplaced,
      hnodes]
    rfl

/-- A layout of sound nodes, no two text leaves of which stand side by side, is spelled by the
grammar with these nodes. The run in front is empty, unless the layout is one behind text. -/
theorem spelledAs_of_layout {behindText : Bool} {siblings : List Tag} {text : List Char}
    (h : Layout behindText siblings text)
    (hsound : ∀ tag ∈ siblings, ∀ node ∈ tag.walk, node.IsSound)
    (hchain : siblings.IsChain fun a b => ¬ (a.HasContent ∧ b.HasContent))
    (run : List (Char × Position)) (hrun : behindText = false → run = [])
    (hfirst : behindText = true → ∀ tag ∈ siblings.head?, ¬ tag.HasContent) (here : Position) :
    SpelledAs run siblings here text := by
  induction h generalizing run here with
  | nil hgap => exact .gap hgap hrun here
  | @leaf behindText leaf siblings rest hcontent hrest ih =>
    obtain ⟨hwalk, hsiblings⟩ := List.forall_mem_cons.mp hsound
    obtain ⟨hnext, hchain⟩ := List.isChain_cons.mp hchain
    cases behindText with
    | true => exact absurd hcontent (hfirst rfl leaf rfl)
    | false =>
      obtain rfl := hrun rfl
      refine .leaf ((hwalk leaf leaf.mem_walk_self).leaf hcontent) (fun run there => ?_) here
      refine ih hsiblings hchain run (fun hfalse => Bool.noConfusion hfalse) ?_ there
      exact fun _ next hmem hboth => hnext next hmem ⟨hcontent, hboth⟩
  | @tag behindText tag siblings gap behind block body rest hcontent hgap hbehind hblock hbody hrest
      ihbody ihrest =>
    obtain ⟨hwalk, hsiblings⟩ := List.forall_mem_cons.mp hsound
    have hself := hwalk tag tag.mem_walk_self
    have hchildren : ∀ child ∈ tag.children, ∀ node ∈ child.walk, node.IsSound :=
      fun child hchild node hnode => hwalk node (Tag.mem_walk_of_mem_children hchild hnode)
    refine .tag hself hcontent hgap hbehind hblock (fun there => ?_) (fun there => ?_) hrun here
    · exact ihbody hchildren hself.siblings [] (fun _ => rfl)
        (fun htrue => Bool.noConfusion htrue) there
    · exact ihrest hsiblings hchain.tail [] (fun _ => rfl)
        (fun htrue => Bool.noConfusion htrue) there

/-! ## Documents -/

/-- **Reading undoes writing.** However a sound tree is laid out, with whatever blanks and line
ends, and whatever depth is asked for that lets its tags through: the text is read as that tree, up
to positions, and accepted exactly if the tree keeps all rules. -/
theorem readMarkup_of_layout {frames : Nat} {asked : Int} {root : Tag} {text : List Char}
    (hsound : ∀ node ∈ root.walk, node.IsSound)
    (hdepth : (root.nesting : Int) ≤ effectiveDepth frames asked)
    (htext : Layout false [root] text) :
    ∃ read, (readMarkup frames asked text).outcome = .ok read ∧ read.unplaced = root.unplaced ∧
      ∀ source : Source, source.characters = text →
        ((parse frames asked source).value = .ok read ↔ root.violations = []) := by
  have hall : ∀ tag ∈ [root], ∀ node ∈ tag.walk, node.IsSound := by
    simpa using hsound
  obtain ⟨items, hitems, hnodes⟩ := spelledAs_of_layout (htext.unified hall) hall
    (.singleton root) [] (fun _ => rfl) (fun htrue => Bool.noConfusion htrue) .origin
  have hsole : (nodes items).map Tag.unplaced = [root.unplaced] := hnodes
  obtain ⟨read, hread, hunplaced⟩ := List.map_eq_singleton_iff.mp hsole
  have hdocument : Document (Text.unifyLineBreaks text) [read] := hread ▸ .whole hitems
  have hnesting : read.nesting = root.nesting := by
    rw [← Tag.nesting_unplaced, hunplaced, Tag.nesting_unplaced]
  have houtcome : (readMarkup frames asked text).outcome = .ok read :=
    outcome_readUnified_eq_ok_iff.mpr ⟨hdocument, by omega⟩
  refine ⟨read, houtcome, hunplaced, fun source hsource => ?_⟩
  rw [parse_eq_ok_iff, hsource, Tag.violations_eq_nil_iff_of_unplaced_eq hunplaced]
  exact ⟨fun h => h.2, fun h => ⟨houtcome, h⟩⟩

/-- A tree with a text leaf, an option and three tags within each other is given back from a layout
with blanks and line ends of every kind. -/
theorem readMarkup_of_layout_three_deep :
    ∃ root text,
      text = ("\r\n@main ( ) \x7ba\\\x7d\\n b@bold\r(\tk :\r\n\"v\" )" ++
        "\x7b\n@x\r\x7b\r\n\x7d\x7d\n\x7d ").toList ∧
      (∀ node ∈ root.walk, node.IsSound) ∧ (root.nesting : Int) ≤ effectiveDepth 1000 3 ∧
      Layout false [root] text ∧
      ∃ read, (readMarkup 1000 3 text).outcome = .ok read ∧ read.unplaced = root.unplaced ∧
        ∀ source : Source, source.characters = text →
          ((parse 1000 3 source).value = .ok read ↔ root.violations = []) := by
  let inner : Tag := ⟨"x", .empty, "", ⟨27, 0, 27⟩, []⟩
  let bold : Tag := ⟨"bold", .ofList [("k", "v")], "", ⟨13, 0, 13⟩, [inner]⟩
  let root : Tag := ⟨"main", .empty, "", ⟨0, 0, 0⟩, [.textLeaf "a\x7d\n b" ⟨6, 0, 6⟩, bold]⟩
  have hread : (readMarkup 1000 3
      "@main\x7ba\\\x7d\\n b@bold(k: \"v\")\x7b@x\x7b\x7d\x7d\x7d".toList).outcome = .ok root := by
    cbv
  obtain ⟨hsound, hnesting⟩ := isSound_of_readMarkup hread
  have hdepth : (root.nesting : Int) ≤ effectiveDepth 1000 3 := by
    have hlimit : effectiveDepth 1000 3 = 3 := rfl
    omega
  have hfree {gap : List Char} (h : IsGap gap) : IsFreeGap false gap :=
    ⟨h, fun htrue => Bool.noConfusion htrue⟩
  have hinner : Layout false [inner] _ :=
    .tag (by simp [Tag.HasContent, inner]) (@hfree ['\n'] rfl) (show IsGap ['\r'] from rfl) .none
      (.nil (@hfree ['\r', '\n'] rfl)) (.nil (@hfree [] rfl))
  have hentry : Entry ("k", "v") _ :=
    .mk (show IsGap ['\t'] from rfl) (show IsGap [' '] from rfl) (show IsGap ['\r', '\n'] from rfl)
      (show IsGap [' '] from rfl)
  have hbold : Layout true [bold] _ :=
    .tag (by simp [Tag.HasContent, bold]) (isFreeGap_nil true) (show IsGap ['\r'] from rfl)
      (.list (.last hentry) (show IsGap [] from rfl)) hinner (.nil (@hfree ['\n'] rfl))
  have hroot : Layout false [root] _ :=
    .tag (by simp [Tag.HasContent, root]) (@hfree ['\r', '\n'] rfl) (show IsGap [' '] from rfl)
      (.blank (show IsGap [' '] from rfl) (show IsGap [' '] from rfl))
      (.leaf (by simp [Tag.HasContent, Tag.textLeaf]) hbold) (.nil (@hfree [' '] rfl))
  exact ⟨root, _, by cbv, hsound, hdepth, hroot, readMarkup_of_layout hsound hdepth hroot⟩

end AtMarkup.Markup
