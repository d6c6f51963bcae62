import Mathlib
import AtMarkup.Proofs.Grammar
import AtMarkup.Rules

/-!
# Trees without positions

The position of a node says where it was read and nothing about the document. Two trees that agree
up to positions have the same image under `Tag.unplaced`, which puts every node at the same place.
What a tree is apart from its positions is left alone: its walk (`walk_unplaced`), its depth
(`nesting_unplaced`) and the rules that it breaks (`rules_violations_unplaced`).
-/

namespace AtMarkup

namespace Tag

/-- The tree with no positions. -/
def unplaced (tag : Tag) : Tag :=
  ⟨tag.kind, tag.options, tag.content, {}, tag.children.map unplaced⟩
termination_by sizeOf tag
decreasing_by exact sizeOf_lt_of_mem_children ‹_›

@[simp] theorem kind_unplaced (tag : Tag) : tag.unplaced.kind = tag.kind := by
  rw [unplaced]

@[simp] theorem options_unplaced (tag : Tag) : tag.unplaced.options = tag.options := by
  rw [unplaced]

@[simp] theorem content_unplaced (tag : Tag) : tag.unplaced.content = tag.content := by
  rw [unplaced]

@[simp] theorem children_unplaced (tag : Tag) :
    tag.unplaced.children = tag.children.map unplaced := by
  rw [unplaced]

/-- A text leaf is told by its content. -/
@[simp] theorem unplaced_textLeaf (content : String) (position : Position) :
    (textLeaf content position).unplaced = textLeaf content {} := by
  rw [unplaced]
  rfl

/-- The nodes come in the same order. -/
theorem walk_unplaced (tag : Tag) : tag.unplaced.walk = tag.walk.map unplaced := by
  induction tag using Tag.induction with
  | node tag ih =>
    have hbelow : (tag.children.map unplaced).flatMap walk =
        (tag.children.flatMap walk).map unplaced := by
      rw [List.flatMap_map, List.map_flatMap]
      exact List.flatMap_congr ih
    rw [walk, children_unplaced, hbelow, walk, List.map_cons]

/-- Depth does not depend on positions. -/
theorem nesting_unplaced (tag : Tag) : tag.unplaced.nesting = tag.nesting := by
  induction tag using Tag.induction with
  | node tag ih =>
    have hbelow : (tag.children.map unplaced).map nesting = tag.children.map nesting := by
      rw [List.map_map]
      exact List.map_congr_left ih
    rw [nesting, content_unplaced, children_unplaced, hbelow, nesting]

/-! ## Rules -/

/-- Whether a rule is kept does not depend on positions. -/
theorem keptBy_unplaced (tag : Tag) (rule : Rule) : rule.keptBy tag.unplaced = rule.keptBy tag := by
  cases rule <;> simp [Rule.keptBy]

/-- A node breaks the same rules wherever it stands. -/
theorem rules_broken_unplaced (tag : Tag) (rules : List Rule) :
    (tag.unplaced.broken rules).map Violation.rule = (tag.broken rules).map Violation.rule := by
  simp only [broken, keptBy_unplaced, List.map_map]
  rfl

/-- A tree breaks the same rules, in the same order, wherever its nodes stand. -/
theorem rules_violations_unplaced (root : Tag) :
    root.unplaced.violations.map Violation.rule = root.violations.map Violation.rule := by
  have hofTag (tag : Tag) : Rule.ofTag tag.unplaced = Rule.ofTag tag := by
    rw [Rule.ofTag, kind_unplaced, Rule.ofTag]
  have hbelow : (root.unplaced.walk.flatMap fun tag => tag.broken (Rule.ofTag tag)).map
        Violation.rule =
      (root.walk.flatMap fun tag => tag.broken (Rule.ofTag tag)).map Violation.rule := by
    rw [walk_unplaced, List.flatMap_map, List.map_flatMap, List.map_flatMap]
    refine List.flatMap_congr fun tag _ => ?_
    rw [hofTag, rules_broken_unplaced]
  rw [violations, violations, List.map_append, List.map_append, rules_broken_unplaced, hbelow]

/-- Trees that agree up to positions keep the rules together. -/
theorem violations_eq_nil_iff_of_unplaced_eq {a b : Tag} (h : a.unplaced = b.unplaced) :
    a.violations = [] ↔ b.violations = [] := by
  rw [← List.map_eq_nil_iff (f := Violation.rule), ← rules_violations_unplaced, h,
    rules_violations_unplaced, List.map_eq_nil_iff]

end Tag

end AtMarkup
