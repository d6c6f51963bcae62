import Mathlib
import AtMarkup.Proofs.Addresses
import AtMarkup.Proofs.Dictionaries
import AtMarkup.Rules

/-!
# What a document is told about its rules

The four things that can be wrong with a node are written down once more here, by the names of kinds
and options and the texts of the messages, and with no use of the check itself (`Flaw`). A breach is
a flaw of the node at an address. `violations_exact` says that the check tells of a root which is no
`main` tag, and then of every breach in the tree once, in document order, and of nothing else.

* `diagnostics_broken` is the step: what is told of one node are its flaws, in their order. The kind
  decides which rules there are, and a rule is broken as its flaw says (`oneOf_broken_iff`,
  `given_broken_iff`).
* `Tag.breaches` lists the breaches place by place. That they are all of them, and in order, is what
  `Proofs.Addresses` says of the places (`mem_breaches_iff`, `pairwise_breaches`).

Of two breaches only one can come before the other, so there is only one such list
(`Breach.eq_of_pairwise_before`).
-/

namespace AtMarkup

/-! ## Flaws -/

/-- What can be wrong with a node, whatever stands around it. -/
inductive Flaw where
  /-- A paragraph or a heading is aligned in no known way. -/
  | alignment
  /-- A heading has no known level. -/
  | level
  /-- A list has no known style. -/
  | style
  /-- An image or a link leads nowhere. -/
  | target
  deriving DecidableEq, Repr, Inhabited

/-- An option is given a value that is none of these. -/
def Tag.HasOther (node : Tag) (option : String) (values : List String) : Prop :=
  ∃ entry ∈ node.options.entries, entry.1 = option ∧ entry.2 ∉ values

instance (node : Tag) (option : String) (values : List String) :
    Decidable (node.HasOther option values) :=
  inferInstanceAs (Decidable (∃ entry ∈ node.options.entries, entry.1 = option ∧ entry.2 ∉ values))

namespace Flaw

/-- The flaws, in the order in which those of one node are told. -/
def all : List Flaw := [alignment, level, style, target]

/-- A flaw in words. -/
def text : Flaw → String
  | alignment => "alignment must be: left, right, center"
  | level => "level must be: 1, 2, 3, 4, 5"
  | style => "style must be: unordered, ordered"
  | target => "uri parameter is required"

/-- A node has the flaw. -/
def IsIn (node : Tag) : Flaw → Prop
  | alignment =>
    (node.kind = "paragraph" ∨ node.kind = "heading") ∧
      node.HasOther "alignment" ["left", "right", "center"]
  | level => node.kind = "heading" ∧ node.HasOther "level" ["1", "2", "3", "4", "5"]
  | style => node.kind = "list" ∧ node.HasOther "style" ["unordered", "ordered"]
  | target => (node.kind = "image" ∨ node.kind = "link") ∧ "uri" ∉ node.options.names

instance (node : Tag) : DecidablePred (IsIn node)
  | alignment | level | style | target => inferInstanceAs (Decidable (_ ∧ _))

/-- What is told of a flaw of a node. -/
def diagnostic (node : Tag) (flaw : Flaw) : Diagnostic :=
  ⟨.rules, flaw.text, node.position⟩

end Flaw

/-! ## One node -/

/-- A choice is not kept exactly if the option is given another value. -/
theorem oneOf_broken_iff {node : Tag} {option : String} {values : List String} :
    (Rule.oneOf option values).keptBy node = false ↔ node.HasOther option values := by
  have hentry : node.HasOther option values ↔
      ∃ value, node.options.get? option = some value ∧ value ∉ values := by
    constructor
    · rintro ⟨⟨_, value⟩, hmem, rfl, hother⟩
      exact ⟨value, Tag.Options.get?_eq_some_iff.mpr hmem, hother⟩
    · rintro ⟨value, hvalue, hother⟩
      exact ⟨(option, value), Tag.Options.get?_eq_some_iff.mp hvalue, rfl, hother⟩
  rw [hentry]
  unfold Rule.keptBy
  cases hvalue : node.options.get? option with
  | none => simp [hvalue]
  | some value => simp [hvalue]

/-- An option that has to be given is not given. -/
theorem given_broken_iff {node : Tag} {option : String} :
    (Rule.given option).keptBy node = false ↔ option ∉ node.options.names := by
  rw [← Tag.Options.contains_iff_mem_names, Bool.not_eq_true]
  rfl

namespace Flaw

/-- The kinds that can have a flaw. -/
def kinds : Flaw → List Tag.Kind
  | alignment => [.paragraph, .heading]
  | level => [.heading]
  | style => [.list]
  | target => [.image, .link]

/-- The rule that a node with the flaw breaks. -/
def rule : Flaw → Rule
  | alignment => .oneOf "alignment" Rule.alignments
  | level => .oneOf "level" Rule.headingLevels
  | style => .oneOf "style" Rule.listStyles
  | target => .given "uri"

/-- The rule is worded as the flaw is. -/
theorem message_rule (flaw : Flaw) : flaw.rule.message = flaw.text := by
  cases flaw <;> rfl

/-- The rules of a kind are those of the flaws that it can have, in their order. -/
theorem ofKind_eq (kind : Tag.Kind) :
    Rule.ofKind kind = (all.filter fun flaw => decide (kind ∈ flaw.kinds)).map rule := by
  cases kind <;> rfl

/-- A node has a flaw if its kind can have it and the rule is broken. -/
theorem isIn_iff {node : Tag} {flaw : Flaw} :
    flaw.IsIn node ↔
      (∃ kind ∈ flaw.kinds, kind.name = node.kind) ∧ flaw.rule.keptBy node = false := by
  have hkinds (kinds : List Tag.Kind) : (∃ kind ∈ kinds, kind.name = node.kind) ↔
      node.kind ∈ kinds.map Tag.Kind.name := by
    rw [List.mem_map]
  rw [hkinds]
  cases flaw with
  | target => simp [IsIn, kinds, rule, given_broken_iff, Tag.Kind.name]
  | _ => simp [IsIn, kinds, rule, oneOf_broken_iff, Tag.Kind.name, Rule.alignments,
      Rule.headingLevels, Rule.listStyles]

end Flaw

/-- **Step.** What is told of a node are its flaws. -/
theorem diagnostics_broken (node : Tag) :
    (node.broken (Rule.ofTag node)).map Violation.diagnostic =
      (Flaw.all.filter fun flaw => flaw.IsIn node).map fun flaw => flaw.diagnostic node := by
  have hrule (flaw : Flaw) :
      Violation.diagnostic ⟨flaw.rule, node.position⟩ = flaw.diagnostic node := by
    rw [Violation.diagnostic, Flaw.message_rule, Flaw.diagnostic]
  unfold Rule.ofTag
  cases hkind : Tag.Kind.ofName? node.kind with
  | none =>
    have hnone : (Flaw.all.filter fun flaw => flaw.IsIn node) = [] := by
      rw [List.filter_eq_nil_iff]
      intro flaw _
      rw [decide_eq_true_eq, Flaw.isIn_iff]
      rintro ⟨⟨kind, -, hname⟩, -⟩
      rw [Tag.Kind.ofName?_eq_some_iff.mpr hname] at hkind
      cases hkind
    rw [hnone]
    rfl
  | some kind =>
    have hname := Tag.Kind.ofName?_eq_some_iff.mp hkind
    have hconcerned (flaw : Flaw) :
        kind ∈ flaw.kinds ↔ ∃ other ∈ flaw.kinds, other.name = node.kind := by
      constructor
      · intro hmem
        exact ⟨kind, hmem, hname⟩
      · rintro ⟨other, hmem, hother⟩
        rwa [← Tag.Kind.name_injective (hother.trans hname.symm)]
    have hflaws : ((Flaw.all.filter fun flaw => decide (kind ∈ flaw.kinds)).filter fun flaw =>
        !flaw.rule.keptBy node) = Flaw.all.filter fun flaw => flaw.IsIn node := by
      rw [List.filter_filter]
      apply List.filter_congr
      intro flaw _
      simp [Flaw.isIn_iff, hconcerned, and_comm]
    simp only [Tag.broken, Flaw.ofKind_eq, List.filter_map, List.map_map]
    rw [← hflaws]
    exact List.map_congr_left fun flaw _ => hrule flaw

/-! ## The whole tree -/

/-- A flaw of the node at an address. -/
structure Breach where
  /-- The address of the node. -/
  address : List Nat
  /-- The node. -/
  node : Tag
  /-- What is wrong with it. -/
  flaw : Flaw
  deriving Repr, Inhabited

namespace Breach

/-- What is told of a breach. -/
def diagnostic (breach : Breach) : Diagnostic :=
  breach.flaw.diagnostic breach.node

/-- A breach is told before another: its node comes first, or it is the alignment of a heading and
the other is the level of the same heading. -/
def Before (breach later : Breach) : Prop :=
  breach.address < later.address ∨
    breach.address = later.address ∧ breach.flaw = .alignment ∧ later.flaw = .level

/-- Of two breaches only one is told before the other. -/
theorem Before.asymm {breach later : Breach} (h : Before breach later) : ¬ Before later breach := by
  rintro (hback | ⟨haddress, hflaw, -⟩)
  · rcases h with hfirst | ⟨haddress, -⟩
    · exact lt_asymm hfirst hback
    · exact hback.ne haddress.symm
  · rcases h with hfirst | ⟨-, -, hlevel⟩
    · exact hfirst.ne haddress.symm
    · rw [hlevel] at hflaw
      cases hflaw

/-- So breaches that are told in order are told by which they are. -/
theorem eq_of_pairwise_before {breaches others : List Breach} (h : breaches.Pairwise Before)
    (hothers : others.Pairwise Before) (hmem : ∀ breach, breach ∈ breaches ↔ breach ∈ others) :
    breaches = others := by
  have : Std.Antisymm Before := ⟨fun _ _ hbefore hafter => absurd hafter hbefore.asymm⟩
  have : Std.Irrefl Before := ⟨fun _ hself => hself.asymm hself⟩
  exact h.eq_of_mem_iff hothers hmem

/-- A breach is in a tree if its node stands at its address and has its flaw. -/
def IsIn (root : Tag) (breach : Breach) : Prop :=
  root.at? breach.address = some breach.node ∧ breach.flaw.IsIn breach.node

/-- A breach in a part of a tree is one in the tree, behind the address of the part. -/
theorem IsIn.below {root node : Tag} {address : List Nat} {breach : Breach}
    (hnode : root.at? address = some node) (h : breach.IsIn node) :
    IsIn root ⟨address ++ breach.address, breach.node, breach.flaw⟩ := by
  obtain ⟨hplace, hflaw⟩ := h
  refine ⟨?_, hflaw⟩
  rw [Tag.at?_append, hnode]
  exact hplace

end Breach

namespace Tag

/-- What is told of a root: that it is no `main` tag, if it is none. -/
def rootDiagnostics (root : Tag) : List Diagnostic :=
  if root.kind = "main" then [] else [⟨.rules, "root tag must be @main", root.position⟩]

/-- The flaws of all nodes, place by place. -/
def breaches (root : Tag) : List Breach :=
  root.addressed.flatMap fun place =>
    (Flaw.all.filter fun flaw => flaw.IsIn place.2).map fun flaw => ⟨place.1, place.2, flaw⟩

variable {root : Tag}

/-- The breaches are all those in the tree. -/
theorem mem_breaches_iff {breach : Breach} : breach ∈ root.breaches ↔ breach.IsIn root := by
  have hall : breach.flaw ∈ Flaw.all := by
    cases breach.flaw <;> simp [Flaw.all]
  simp only [breaches, List.mem_flatMap, List.mem_map, List.mem_filter, decide_eq_true_eq]
  constructor
  · rintro ⟨⟨address, node⟩, hplace, flaw, ⟨-, hflaw⟩, rfl⟩
    exact ⟨mem_addressed_iff.mp hplace, hflaw⟩
  · rintro ⟨hplace, hflaw⟩
    exact ⟨(breach.address, breach.node), mem_addressed_iff.mpr hplace, breach.flaw,
      ⟨hall, hflaw⟩, rfl⟩

/-- Of two flaws of one node, the first is its alignment and the second its level. -/
theorem pairwise_flaws (node : Tag) :
    (Flaw.all.filter fun flaw => flaw.IsIn node).Pairwise fun flaw later =>
      flaw = .alignment ∧ later = .level := by
  -- Flaws of one node share its kind, and no two others share a kind.
  have hshared : Flaw.all.Pairwise fun flaw later =>
      (∃ kind ∈ flaw.kinds, kind ∈ later.kinds) → flaw = .alignment ∧ later = .level := by
    simp [Flaw.all, Flaw.kinds]
  rw [List.pairwise_filter]
  apply hshared.imp
  intro flaw later h hflaw hlater
  rw [decide_eq_true_eq, Flaw.isIn_iff] at hflaw hlater
  obtain ⟨⟨kind, hkind, hname⟩, -⟩ := hflaw
  obtain ⟨⟨other, hother, hname'⟩, -⟩ := hlater
  obtain rfl := Kind.name_injective (hname.trans hname'.symm)
  exact h ⟨kind, hkind, hother⟩

/-- The breaches come in order. -/
theorem pairwise_breaches (root : Tag) : root.breaches.Pairwise Breach.Before := by
  rw [breaches, List.pairwise_flatMap]
  constructor
  · intro place _
    rw [List.pairwise_map]
    apply (pairwise_flaws place.2).imp
    intro flaw later hflaws
    exact .inr ⟨rfl, hflaws⟩
  · apply (pairwise_addressed root).imp
    intro place later horder breach hbreach other hother
    simp only [List.mem_map] at hbreach hother
    obtain ⟨flaw, -, rfl⟩ := hbreach
    obtain ⟨flaw', -, rfl⟩ := hother
    exact .inl horder

/-- What is told of a tree is what is told of its root and of its breaches. -/
theorem diagnostics_violations (root : Tag) :
    root.violations.map Violation.diagnostic =
      root.rootDiagnostics ++ root.breaches.map Breach.diagnostic := by
  have hroot : (root.broken [.rootIsMain]).map Violation.diagnostic = root.rootDiagnostics := by
    have hkept : Rule.keptBy root .rootIsMain = decide (root.kind = "main") := rfl
    unfold broken rootDiagnostics
    split
    · rename_i hmain
      simp [hkept, hmain]
    · rename_i hother
      simp [hkept, hother]
      rfl
  have hbelow : (root.walk.flatMap fun node => node.broken (Rule.ofTag node)).map
      Violation.diagnostic = root.breaches.map Breach.diagnostic := by
    rw [← map_snd_addressed, List.flatMap_map, breaches, List.map_flatMap, List.map_flatMap]
    apply List.flatMap_congr
    intro place _
    rw [diagnostics_broken, List.map_map]
    rfl
  rw [violations, List.map_append, hroot, hbelow]

/-- Nothing is told exactly of a `main` tag without breaches. -/
theorem violations_eq_nil_iff :
    root.violations = [] ↔ root.kind = "main" ∧ ∀ breach : Breach, ¬ breach.IsIn root := by
  have hroot : root.rootDiagnostics = [] ↔ root.kind = "main" := by
    simp [rootDiagnostics]
  have hbelow : root.breaches = [] ↔ ∀ breach : Breach, ¬ breach.IsIn root := by
    rw [List.eq_nil_iff_forall_not_mem]
    exact forall_congr' fun breach => not_congr mem_breaches_iff
  rw [← List.map_eq_nil_iff (f := Violation.diagnostic), diagnostics_violations,
    List.append_eq_nil_iff, List.map_eq_nil_iff, hroot, hbelow]

end Tag

/-- **Main result.** The check tells of a root that is no `main` tag, then of every breach in the
tree once and in order, and of nothing else. So it tells nothing exactly of a `main` tag without
breaches, and then nothing but the root is told of any tree in it. -/
theorem violations_exact (root : Tag) :
    (∃! breaches : List Breach, breaches.Pairwise Breach.Before ∧
      (∀ breach, breach ∈ breaches ↔ breach.IsIn root) ∧
      root.violations.map Violation.diagnostic =
        root.rootDiagnostics ++ breaches.map Breach.diagnostic) ∧
    (root.violations = [] ↔ root.kind = "main" ∧ ∀ breach : Breach, ¬ breach.IsIn root) ∧
    (root.violations = [] → ∀ address node, root.at? address = some node →
      node.violations.map Violation.diagnostic = node.rootDiagnostics) := by
  refine ⟨⟨root.breaches, ⟨root.pairwise_breaches, fun _ => Tag.mem_breaches_iff,
    root.diagnostics_violations⟩, ?_⟩, Tag.violations_eq_nil_iff, ?_⟩
  · rintro others ⟨horder, hmem, -⟩
    apply Breach.eq_of_pairwise_before horder root.pairwise_breaches
    intro breach
    rw [hmem, Tag.mem_breaches_iff]
  · intro hnil address node hnode
    obtain ⟨-, hnone⟩ := Tag.violations_eq_nil_iff.mp hnil
    have hbreaches : node.breaches = [] := by
      rw [List.eq_nil_iff_forall_not_mem]
      intro breach hbreach
      exact hnone _ (Breach.IsIn.below hnode (Tag.mem_breaches_iff.mp hbreach))
    rw [Tag.diagnostics_violations, hbreaches, List.map_nil, List.append_nil]

/-- A heading of level 6 with an image that leads nowhere: both are told, one below the other. And a
document in which nothing is wrong: of the tag in it, only that it is no root is told. -/
theorem violations_exact_two_documents :
    let image : Tag := ⟨"image", .empty, "", ⟨27, 0, 27⟩, []⟩
    let heading : Tag := ⟨"heading", .ofList [("level", "6")], "", ⟨6, 0, 6⟩, [image]⟩
    let bold : Tag := ⟨"bold", .empty, "", ⟨6, 0, 6⟩, []⟩
    (∃ breaches : List Breach, breaches.Pairwise Breach.Before ∧
      ⟨[0], heading, .level⟩ ∈ breaches ∧ ⟨[0, 0], image, .target⟩ ∈ breaches ∧
      (Tag.mk "main" .empty "" {} [heading]).violations.map Violation.diagnostic =
        breaches.map Breach.diagnostic) ∧
    (Tag.mk "main" .empty "" {} [bold]).violations = [] ∧
    bold.violations.map Violation.diagnostic =
      [⟨.rules, "root tag must be @main", ⟨6, 0, 6⟩⟩] := by
  intro image heading bold
  constructor
  · obtain ⟨⟨breaches, ⟨horder, hmem, hdiagnostics⟩, -⟩, -, -⟩ :=
      violations_exact ⟨"main", .empty, "", {}, [heading]⟩
    have hlevel : Flaw.level.IsIn heading := by decide
    have htarget : Flaw.target.IsIn image := by decide
    exact ⟨breaches, horder, (hmem _).mpr ⟨rfl, hlevel⟩, (hmem _).mpr ⟨rfl, htarget⟩,
      hdiagnostics⟩
  · obtain ⟨-, -, hbelow⟩ := violations_exact ⟨"main", .empty, "", {}, [bold]⟩
    have hnil : (Tag.mk "main" .empty "" {} [bold]).violations = [] := by
      cbv
    exact ⟨hnil, hbelow hnil [0] bold rfl⟩

end AtMarkup
