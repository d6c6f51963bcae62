import AtMarkup.Position
import AtMarkup.Tag.Kind
import AtMarkup.Tag.Options

/-!
# The tag tree

A document is a tree of tags.  A container has a name, options and children; a text leaf is a
tag of the kind `text` whose content is literal text.  Any node may carry any of these, so that a
tree built by hand can be checked and shown as well.

`Tag.walk` lists a tree in document order: each node before its children, children from left to
right.
-/

namespace AtMarkup

/-- A node of the document tree. -/
structure Tag where
  /-- The name behind the `@`. -/
  kind : String
  /-- The options between the parentheses. -/
  options : Tag.Options := .empty
  /-- Literal text, which only text leaves have. -/
  content : String := ""
  /-- Where the tag's `@` stands, or the first character of a text run. -/
  position : Position := {}
  /-- The nested nodes, in document order. -/
  children : List Tag := []
  deriving Repr, Inhabited

namespace Tag

/-- Children are smaller than their parent, so functions may recurse on them. -/
theorem sizeOf_lt_of_mem_children {tag child : Tag} (h : child ∈ tag.children) :
    sizeOf child < sizeOf tag := by
  have := List.sizeOf_lt_of_mem h
  cases tag
  simp_all
  omega

/-- A property of all nodes holds when it passes from the children to the parent. -/
theorem induction {motive : Tag → Prop}
    (node : ∀ tag : Tag, (∀ child ∈ tag.children, motive child) → motive tag) (tag : Tag) :
    motive tag :=
  node tag fun child _ => induction node child
termination_by sizeOf tag
decreasing_by exact sizeOf_lt_of_mem_children ‹_›

/-- A text leaf. -/
def textLeaf (content : String) (position : Position) : Tag :=
  ⟨Kind.text.name, .empty, content, position, []⟩

@[simp] theorem kind_textLeaf (content : String) (position : Position) :
    (textLeaf content position).kind = "text" := rfl

@[simp] theorem options_textLeaf (content : String) (position : Position) :
    (textLeaf content position).options = .empty := rfl

@[simp] theorem content_textLeaf (content : String) (position : Position) :
    (textLeaf content position).content = content := rfl

@[simp] theorem position_textLeaf (content : String) (position : Position) :
    (textLeaf content position).position = position := rfl

@[simp] theorem children_textLeaf (content : String) (position : Position) :
    (textLeaf content position).children = [] := rfl

/-- Whether the node is of the kind `text`. -/
def isText (tag : Tag) : Bool :=
  tag.kind == Kind.text.name

/-- The node and all below it, each before its children. -/
def walk (tag : Tag) : List Tag :=
  tag :: tag.children.flatMap walk
termination_by sizeOf tag
decreasing_by exact sizeOf_lt_of_mem_children ‹_›

/-- A node of a tree is its root or lies below a child. -/
theorem mem_walk_iff {tag node : Tag} :
    node ∈ tag.walk ↔ node = tag ∨ ∃ child ∈ tag.children, node ∈ child.walk := by
  rw [walk, List.mem_cons, List.mem_flatMap]

/-- A root is among its own nodes. -/
theorem mem_walk_self (root : Tag) : root ∈ root.walk :=
  mem_walk_iff.mpr (.inl rfl)

/-- The nodes below a child are nodes of the tree. -/
theorem mem_walk_of_mem_children {tag child node : Tag} (hchild : child ∈ tag.children)
    (hnode : node ∈ child.walk) : node ∈ tag.walk :=
  mem_walk_iff.mpr (.inr ⟨child, hchild, hnode⟩)

end Tag

end AtMarkup
