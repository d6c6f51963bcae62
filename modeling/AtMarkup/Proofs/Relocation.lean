import Mathlib
import AtMarkup.Proofs.Coordinates
import AtMarkup.Proofs.Unplaced

/-!
# The same text at another place

A text that is spelled out at one place is spelled out at any other as the same items, with other
positions. `Tag.relocated` gives each node of a tree the position that a map assigns to its old one,
and nothing else changes (`unplaced_relocated`), the depth in particular (`nesting_relocated`).

`Items.relocated` is the main result: if the map takes each position of the text at the one place to
the position at the other, it takes the items there to the items here. The induction is on the
items; in a tag it goes into the block and behind it.
-/

namespace AtMarkup

/-! ## Trees -/

namespace Tag

variable (f : Position → Position)

/-- The tree with each position replaced. -/
def relocated (tag : Tag) : Tag :=
  ⟨tag.kind, tag.options, tag.content, f tag.position, tag.children.map relocated⟩
termination_by sizeOf tag
decreasing_by exact sizeOf_lt_of_mem_children ‹_›

/-- Up to positions nothing changes. -/
theorem unplaced_relocated (tag : Tag) : (tag.relocated f).unplaced = tag.unplaced := by
  induction tag using Tag.induction with
  | node tag ih =>
    have hbelow : (tag.children.map (relocated f)).map unplaced = tag.children.map unplaced := by
      rw [List.map_map]
      exact List.map_congr_left ih
    rw [relocated, unplaced, unplaced, hbelow]

/-- Depth does not change. -/
theorem nesting_relocated (tag : Tag) : (tag.relocated f).nesting = tag.nesting := by
  rw [← nesting_unplaced, unplaced_relocated, nesting_unplaced]

/-- A text leaf is a text leaf anywhere. -/
theorem relocated_textLeaf (content : String) (position : Position) :
    (textLeaf content position).relocated f = textLeaf content (f position) := by
  rw [relocated]
  rfl

end Tag

/-! ## Items -/

namespace Grammar

variable (f : Position → Position)

/-- An item with each position replaced. -/
def Item.relocated : Item → Item
  | .character c position => .character c (f position)
  | .tag node => .tag (node.relocated f)

/-- A run of characters with each position replaced. -/
def relocatedRun (run : List (Char × Position)) : List (Char × Position) :=
  run.map fun entry => (entry.1, f entry.2)

/-- The leaf of a run stands where the run does. -/
theorem leaf?_relocatedRun (run : List (Char × Position)) :
    leaf? (relocatedRun f run) = (leaf? run).map (Tag.relocated f) := by
  cases run with
  | nil => rfl
  | cons first rest =>
    have hcharacters : (relocatedRun f rest).map Prod.fst = rest.map Prod.fst := by
      rw [relocatedRun, List.map_map]
      rfl
    show leaf? ((first.1, f first.2) :: relocatedRun f rest) = _
    simp only [leaf?, hcharacters]
    split
    · rfl
    · rw [Option.map_some, Tag.relocated_textLeaf]

/-- The nodes of items, and of a run before them, stand where these do. -/
theorem nodesAfter_relocated (run : List (Char × Position)) (items : List Item) :
    nodesAfter (relocatedRun f run) (items.map (Item.relocated f)) =
      (nodesAfter run items).map (Tag.relocated f) := by
  induction items generalizing run with
  | nil =>
    rw [List.map_nil, nodesAfter, nodesAfter, leaf?_relocatedRun]
    cases leaf? run <;> rfl
  | cons item items ih =>
    cases item with
    | character c position =>
      have hrun : relocatedRun f run ++ [(c, f position)] =
          relocatedRun f (run ++ [(c, position)]) := by
        simp [relocatedRun]
      rw [List.map_cons, Item.relocated, nodesAfter, nodesAfter, hrun]
      exact ih _
    | tag tag =>
      have hrest : nodesAfter [] (items.map (Item.relocated f)) =
          (nodesAfter [] items).map (Tag.relocated f) := ih []
      rw [List.map_cons, Item.relocated, nodesAfter, nodesAfter, hrest, leaf?_relocatedRun,
        List.map_append, List.map_cons]
      cases leaf? run <;> rfl

/-- The nodes of a block stand where its items do. -/
theorem nodes_relocated (items : List Item) :
    nodes (items.map (Item.relocated f)) = (nodes items).map (Tag.relocated f) :=
  nodesAfter_relocated f [] items

/-- A map takes the positions in a text that starts at `here` to those in the same text that starts
at `there`. -/
def Carries (here there : Position) (text : List Char) : Prop :=
  ∀ before, before <+: text → f (here.afterText before) = there.afterText before

variable {f} {here there : Position} {a b text : List Char}

/-- It takes those in the first part of the text. -/
theorem Carries.left (h : Carries f here there (a ++ b)) : Carries f here there a :=
  fun before hbefore => h before (hbefore.trans (List.prefix_append a b))

/-- It takes those in the last part of the text. -/
theorem Carries.right (h : Carries f here there (a ++ b)) :
    Carries f (here.afterText a) (there.afterText a) b := by
  intro before hbefore
  rw [← Position.afterText_append, ← Position.afterText_append]
  exact h (a ++ before) ((List.prefix_append_right_inj a).mpr hbefore)

/-- **The same text at another place.** It is spelled out as the items there. -/
theorem Items.relocated {items : List Item} (h : Items here text items)
    (hf : Carries f here there text) : Items there text (items.map (Item.relocated f)) := by
  have hstart {here there : Position} {text : List Char} (hf : Carries f here there text) :
      f here = there := hf [] List.nil_prefix
  induction h generalizing there with
  | nil here => exact .nil there
  | unit hunit hrest ih =>
    rw [List.map_cons, Item.relocated, hstart hf]
    exact .unit hunit (ih hf.right)
  | tag hheader hbody hrest ihbody ihrest =>
    have hinner := ihbody hf.left.left.right
    have hbehind := ihrest hf.right
    rw [List.map_cons, Item.relocated, Tag.relocated, hstart hf, ← nodes_relocated]
    exact .tag hheader hinner hbehind

end Grammar

end AtMarkup
