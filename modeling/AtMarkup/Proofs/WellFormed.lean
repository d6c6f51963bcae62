import Mathlib
import AtMarkup.Proofs.Acceptance
import AtMarkup.Proofs.LineBreaks

/-!
# Every tree that is read is well formed

A tree built by hand may hold anything. A tree that comes from a document keeps the rules of
`Tag.IsSound` at every node: its kind and option keys are names, its option values hold no sign of
the grammar, only text leaves have content, that content is compressed and not blank, and no two
text leaves stand side by side.

* `isSound_of_document`: the nodes of a document are sound throughout. The induction is on the
  derivation of its items; the one fact about the text that it needs is that no carriage return
  is in it, for the option values.
* `isSound_of_parse`: whatever depth is asked for, `parse` gives `main` tags that are sound at
  every node and have no more tags on a way down than the limit allows.

Ways down a tree are `Tag.Descent`, and `Tag.countP_le_nesting` bounds the tags on them.
-/

namespace AtMarkup.Tag

open Grammar

/-! ## Sound nodes -/

/-- A node that is a text leaf, as far as its content tells. -/
def HasContent (node : Tag) : Prop :=
  node.content ≠ ""

/-- What a node with content is: a text leaf, and its content is compressed and not blank. -/
structure IsTextLeaf (node : Tag) : Prop where
  /-- Its kind. -/
  kind : node.kind = "text"
  /-- It has no options. -/
  options : node.options.entries = []
  /-- It has no children. -/
  children : node.children = []
  /-- Its content is not blank. -/
  notBlank : Text.isBlankText node.content.toList = false
  /-- Its content is compressed. -/
  compressed : Text.IsCompressed node.content.toList

/-- What every node keeps that comes from a document. -/
structure IsSound (node : Tag) : Prop where
  /-- The kind is a name. -/
  kind : IsName node.kind.toList
  /-- Content is for text leaves only. -/
  leaf : node.HasContent → node.IsTextLeaf
  /-- Two text leaves do not stand side by side. -/
  siblings : node.children.IsChain fun a b => ¬ (a.HasContent ∧ b.HasContent)
  /-- No option is given twice. -/
  names : node.options.names.Nodup
  /-- The options have keys for names. -/
  keys : ∀ entry ∈ node.options.entries, IsKey entry.1.toList
  /-- The options' values hold no line break and no sign of the grammar. -/
  values : ∀ entry ∈ node.options.entries, IsValue entry.2.toList ∧ '\r' ∉ entry.2.toList

/-! ## Ways down -/

/-- A way down a tree, from its root to any node. -/
inductive Descent : Tag → List Tag → Prop where
  | stop (tag : Tag) : Descent tag [tag]
  | down {tag child : Tag} {path : List Tag} (hchild : child ∈ tag.children)
      (hpath : Descent child path) : Descent tag (tag :: path)

/-- A child is nested no deeper than its parent, which counts itself if it has no content. -/
theorem add_nesting_le {tag child : Tag} (h : child ∈ tag.children) :
    (if tag.content = "" then 1 else 0) + child.nesting ≤ tag.nesting := by
  conv_rhs => rw [nesting]
  exact Nat.add_le_add_left
    (foldr_max_le_iff.mp (Nat.le_refl _) _ (List.mem_map_of_mem h)) _

/-- No way down has more tags than the nesting tells. -/
theorem countP_le_nesting {tag : Tag} {path : List Tag} (h : Descent tag path) :
    path.countP (·.content == "") ≤ tag.nesting := by
  induction h with
  | stop tag =>
    rw [List.countP_singleton, nesting]
    by_cases hcontent : tag.content = "" <;> simp [hcontent]
  | @down tag child path hchild hpath ih =>
    have hparent := add_nesting_le hchild
    rw [List.countP_cons]
    by_cases hcontent : tag.content = ""
    · simp only [hcontent, if_true, beq_self_eq_true] at hparent ⊢
      omega
    · rw [if_neg hcontent] at hparent
      rw [if_neg (by simpa using hcontent)]
      omega

end AtMarkup.Tag

/-! ## What a derivation tells of options and leaves -/

namespace AtMarkup.Tag.Options

/-- Writing an option makes no other entry than the one written. -/
theorem mem_entries_insert {options : Options} {name value : String} {entry : String × String}
    (h : entry ∈ (options.insert name value).entries) :
    entry = (name, value) ∨ entry ∈ options.entries := by
  unfold insert at h
  split at h
  · obtain ⟨old, hold, rfl⟩ := List.mem_map.mp h
    unfold updated
    split
    · exact .inl rfl
    · exact .inr hold
  · rcases List.mem_append.mp h with hold | hnew
    · exact .inr hold
    · exact .inl (List.mem_singleton.mp hnew)

/-- The entries that a list of pairs gives are among the pairs. -/
theorem mem_of_mem_entries_foldl {pairs : List (String × String)} {options : Options}
    {entry : String × String}
    (h : entry ∈ (pairs.foldl (fun options pair => options.insert pair.1 pair.2) options).entries) :
    entry ∈ pairs ∨ entry ∈ options.entries := by
  induction pairs generalizing options with
  | nil => exact .inr h
  | cons pair pairs ih =>
    rcases ih h with hmem | hmem
    · exact .inl (List.mem_cons_of_mem pair hmem)
    · rcases mem_entries_insert hmem with rfl | hold
      · exact .inl List.mem_cons_self
      · exact .inr hold

end AtMarkup.Tag.Options

namespace AtMarkup.Grammar

/-- An option as the grammar allows it, its value taken from a text. -/
def IsEntryOf (text : List Char) (entry : String × String) : Prop :=
  IsKey entry.1.toList ∧ IsValue entry.2.toList ∧ entry.2.toList ⊆ text

/-- A longer text has the same options and more. -/
theorem IsEntryOf.mono {text longer : List Char} {entry : String × String}
    (h : IsEntryOf text entry) (hsub : text ⊆ longer) : IsEntryOf longer entry :=
  ⟨h.1, h.2.1, fun _ hc => hsub (h.2.2 hc)⟩

/-- A segment gives an option of its text. -/
theorem Segment.isEntryOf {text : List Char} {pair : String × String} (h : Segment text pair) :
    IsEntryOf text pair := by
  obtain ⟨-, hkey, -, -, hvalue, -⟩ := h
  refine ⟨by simpa using hkey, by simpa using hvalue, fun c hc => ?_⟩
  rw [String.toList_ofList] at hc
  simp [hc]

/-- Segments give options of their text. -/
theorem Segments.isEntryOf {text : List Char} {pairs : List (String × String)}
    (h : Segments text pairs) : ∀ pair ∈ pairs, IsEntryOf text pair := by
  induction h with
  | last h =>
    intro pair hpair
    rw [List.mem_singleton.mp hpair]
    exact h.isEntryOf
  | cons h hrest ih =>
    intro pair hpair
    rcases List.mem_cons.mp hpair with rfl | hmem
    · exact h.isEntryOf.mono (List.subset_append_left _ _)
    · exact (ih pair hmem).mono fun c hc => by simp [hc]

/-- The options of a text are taken from it. -/
theorem OptionText.isEntryOf {text : List Char} {options : Tag.Options}
    (h : OptionText text options) : ∀ entry ∈ options.entries, IsEntryOf text entry := by
  intro entry hentry
  cases h with
  | blank _ => exact absurd hentry List.not_mem_nil
  | list hpairs hgives =>
    obtain rfl := hgives.eq_ofList
    rcases Tag.Options.mem_of_mem_entries_foldl hentry with hmem | hmem
    · exact hpairs.isEntryOf entry hmem
    · exact absurd hmem List.not_mem_nil

/-- A header gives a name, and options taken from its text. -/
theorem Header.isName_and_isEntryOf {header : List Char} {kind : String} {options : Tag.Options}
    (h : Header header kind options) :
    IsName kind.toList ∧ ∀ entry ∈ options.entries, IsEntryOf header entry := by
  cases h with
  | bare hname hgap =>
    refine ⟨by simpa using hname, fun entry hentry => absurd hentry List.not_mem_nil⟩
  | optioned hname hgap htext hbehind =>
    refine ⟨by simpa using hname, fun entry hentry => ?_⟩
    exact (htext.isEntryOf entry hentry).mono fun c hc => by simp [hc]

/-- The leaf of a run is a text leaf. -/
theorem isTextLeaf_of_leaf? {run : List (Char × Position)} {node : Tag}
    (h : leaf? run = some node) : node.HasContent ∧ node.IsTextLeaf := by
  cases run with
  | nil => cases h
  | cons first rest =>
    obtain ⟨c, start⟩ := first
    simp only [leaf?] at h
    split at h
    · cases h
    · rename_i hblank
      obtain rfl := Option.some.inj h
      refine ⟨fun hempty => ?_, rfl, rfl, rfl, ?_, ?_⟩
      · exact Text.compressSpaces_ne_nil (List.cons_ne_nil c _)
          (by simpa [Tag.textLeaf] using congrArg String.toList hempty)
      · show Text.isBlankText (String.ofList _).toList = false
        rw [String.toList_ofList, Text.isBlankText_compressSpaces]
        simpa using hblank
      · show Text.IsCompressed (String.ofList _).toList
        rw [String.toList_ofList]
        exact Text.isCompressed_compressSpaces _

/-- A text leaf is sound. -/
theorem isSound_of_isTextLeaf {node : Tag} (h : node.IsTextLeaf) : node.IsSound where
  kind := by
    rw [h.kind]
    show IsName ['t', 'e', 'x', 't']
    decide
  leaf _ := h
  siblings := by
    rw [h.children]
    exact .nil
  names := node.options.nodup
  keys entry hentry := by
    rw [h.options] at hentry
    exact absurd hentry List.not_mem_nil
  values entry hentry := by
    rw [h.options] at hentry
    exact absurd hentry List.not_mem_nil

/-- A leaf has itself for its only node. -/
theorem isSound_of_mem_walk_leaf {run : List (Char × Position)} {leaf node : Tag}
    (h : leaf? run = some leaf) (hnode : node ∈ leaf.walk) : node.IsSound := by
  have hleaf := (isTextLeaf_of_leaf? h).2
  rw [Tag.mem_walk_iff, hleaf.children] at hnode
  rcases hnode with rfl | ⟨child, hchild, -⟩
  · exact isSound_of_isTextLeaf hleaf
  · exact absurd hchild List.not_mem_nil

/-- Between two text leaves of a block there is a tag. -/
theorem isChain_nodesAfter {items : List Item}
    (h : ∀ tag, .tag tag ∈ items → ¬ tag.HasContent) (run : List (Char × Position)) :
    (nodesAfter run items).IsChain fun a b => ¬ (a.HasContent ∧ b.HasContent) := by
  induction items generalizing run with
  | nil =>
    rw [nodesAfter]
    cases leaf? run <;> simp
  | cons item items ih =>
    cases item with
    | character c position => exact ih (fun tag htag => h tag (List.mem_cons_of_mem _ htag)) _
    | tag tag =>
      have htag : ¬ tag.HasContent := h tag List.mem_cons_self
      rw [nodesAfter, List.isChain_append]
      refine ⟨by cases leaf? run <;> simp, ?_, ?_⟩
      · rw [List.isChain_cons]
        exact ⟨fun _ _ hboth => htag hboth.1,
          ih (fun tag htag => h tag (List.mem_cons_of_mem _ htag)) []⟩
      · intro a ha b hb hboth
        rw [List.head?_cons, Option.mem_some_iff] at hb
        exact htag (hb ▸ hboth.2)

/-- The tags of items are sound throughout, when no carriage return is in the text. -/
theorem isSound_of_items {here : Position} {text : List Char} {items : List Item}
    (h : Items here text items) (hreturn : '\r' ∉ text) :
    ∀ tag, .tag tag ∈ items → ∀ node ∈ tag.walk, node.IsSound := by
  induction h with
  | nil here => exact fun tag htag => absurd htag List.not_mem_nil
  | unit hunit hrest ih =>
    refine fun tag htag => ih (fun hmem => hreturn ?_) tag (by simpa using htag)
    exact List.mem_append_right _ hmem
  | @tag here header body rest kind options inner items hheader hbody hrest ihbody ihrest =>
    simp only [List.mem_append, not_or] at hreturn
    obtain ⟨⟨⟨hheaderReturn, hbodyReturn⟩, -⟩, hrestReturn⟩ := hreturn
    obtain ⟨hname, hentries⟩ := hheader.isName_and_isEntryOf
    intro tag htag node hnode
    rcases List.mem_cons.mp htag with heq | hmem
    · rw [Item.tag.inj heq, Tag.mem_walk_iff] at hnode
      rcases hnode with rfl | ⟨child, hchild, hnode⟩
      · exact {
          kind := hname
          leaf := fun hcontent => absurd rfl hcontent
          siblings := isChain_nodesAfter
            (fun tag htag hcontent => hcontent (Markup.content_of_mem_items hbody htag)) []
          names := options.nodup
          keys := fun entry hentry => (hentries entry hentry).1
          values := fun entry hentry => ⟨(hentries entry hentry).2.1,
            fun hmem => hheaderReturn ((hentries entry hentry).2.2 hmem)⟩ }
      · rcases mem_of_mem_nodesAfter hchild with hinner | ⟨run, hleaf⟩
        · exact ihbody hbodyReturn child hinner node hnode
        · exact isSound_of_mem_walk_leaf hleaf hnode
    · exact ihrest hrestReturn tag hmem node hnode

/-- The nodes of a document are sound throughout, when no carriage return is in the text. -/
theorem isSound_of_document {text : List Char} {top : List Tag} (h : Document text top)
    (hreturn : '\r' ∉ text) : ∀ root ∈ top, ∀ node ∈ root.walk, node.IsSound := by
  have hitems : ∀ {text : List Char} {items : List Item}, Items .origin text items →
      '\r' ∉ text → ∀ root ∈ nodes items, ∀ node ∈ root.walk, node.IsSound := by
    intro text items h hreturn root hroot node hnode
    rcases mem_of_mem_nodesAfter hroot with htag | ⟨run, hleaf⟩
    · exact isSound_of_items h hreturn root htag node hnode
    · exact isSound_of_mem_walk_leaf hleaf hnode
  cases h with
  | whole h => exact hitems h hreturn
  | dangling h => exact hitems h fun hmem => hreturn (List.mem_append_left _ hmem)

end AtMarkup.Grammar

namespace AtMarkup

/-! ## Documents -/

/-- A root that breaks no rule is a `main` tag. -/
theorem Tag.kind_of_violations_eq_nil {root : Tag} (h : root.violations = []) :
    root.kind = "main" := by
  have hroot : root.broken [.rootIsMain] = [] := (List.append_eq_nil_iff.mp h).1
  by_contra hkind
  have hkept : Rule.keptBy root .rootIsMain = false := by
    simpa [Rule.keptBy, Tag.Kind.name] using hkind
  simp [Tag.broken, hkept] at hroot

/-- What is read is sound at every node, and not nested deeper than the limit. -/
theorem isSound_of_readMarkup {frames : Nat} {asked : Int} {text : List Char} {root : Tag}
    (h : (readMarkup frames asked text).outcome = .ok root) :
    (∀ node ∈ root.walk, node.IsSound) ∧ root.nesting ≤ (effectiveDepth frames asked).toNat := by
  obtain ⟨hdocument, hnesting⟩ := Markup.outcome_readUnified_eq_ok_iff.mp h
  exact ⟨Grammar.isSound_of_document hdocument (Text.not_mem_unifyLineBreaks text) root
    List.mem_cons_self, hnesting⟩

/-- **Every tree that is read is well formed.** Whatever depth is asked for, a document that is
accepted has a `main` tag for its root, every node of it is sound, and no way down from the root
has more tags than the limit that is honoured. -/
theorem isSound_of_parse {frames : Nat} {asked : Int} {source : Source} {root : Tag}
    (h : (parse frames asked source).value = .ok root) :
    root.kind = "main" ∧ (∀ node ∈ root.walk, node.IsSound) ∧
      ∀ path, root.Descent path →
        ((path.countP (·.content == "") : Nat) : Int) ≤ effectiveDepth frames asked := by
  obtain ⟨hread, hrules⟩ := parse_eq_ok_iff.mp h
  obtain ⟨hsound, hnesting⟩ := isSound_of_readMarkup hread
  have hkind := Tag.kind_of_violations_eq_nil hrules
  have hcontent : root.content = "" := by
    by_contra hcontent
    have htext := ((hsound root root.mem_walk_self).leaf hcontent).kind
    rw [hkind] at htext
    exact absurd htext (by decide)
  have hone := Tag.one_le_nesting hcontent
  refine ⟨hkind, hsound, fun path hpath => ?_⟩
  have hcount := Tag.countP_le_nesting hpath
  omega

/-- The rules hold of a document with options, a text leaf and two tags within each other, read
under a limit that it just keeps. -/
theorem isSound_of_parse_two_deep :
    ∃ root, (parse 1000 2 (.text
        "@main\x7b a \\n b@bold(k: \"v\", k: \"w\")\x7bc\x7d\x7d")).value = .ok root ∧
      root.kind = "main" ∧ (∀ node ∈ root.walk, node.IsSound) ∧
      ∀ path, root.Descent path →
        ((path.countP (·.content == "") : Nat) : Int) ≤ effectiveDepth 1000 2 := by
  have hparse :
      (parse 1000 2 (.text "@main\x7b a \\n b@bold(k: \"v\", k: \"w\")\x7bc\x7d\x7d")).value =
      .ok ⟨"main", .empty, "", ⟨0, 0, 0⟩,
        [.textLeaf " a \n b" ⟨6, 0, 6⟩,
          ⟨"bold", .ofList [("k", "w")], "", ⟨13, 0, 13⟩, [.textLeaf "c" ⟨35, 0, 35⟩]⟩]⟩ := by
    cbv
  exact ⟨_, hparse, isSound_of_parse hparse⟩

end AtMarkup
