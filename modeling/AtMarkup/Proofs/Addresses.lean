import Mathlib
import AtMarkup.Tag.Basic

/-!
# Places in a tree

A node of a tree is told by its **address**: the indices of the children on the way down to it.
Equal nodes may stand at several places, so the address says more than the node.

* `Tag.at?` goes along an address, and does not look at the rest of the tree.
* `Tag.addressed` lists the nodes with their addresses. Without the addresses it is the walk
  (`map_snd_addressed`). It lists every place and nothing else (`mem_addressed_iff`), and the
  addresses come in order, so that none comes twice (`pairwise_addressed`). An address is below
  those that it leads on to and below those of later children, so their order is document order.

Each of the three goes by induction on the tree.
-/

namespace AtMarkup.Tag

/-! ## Going along an address -/

/-- The node at an address, if the address stays within the tree. -/
def at? (tag : Tag) : List Nat → Option Tag
  | [] => some tag
  | i :: address => tag.children[i]?.bind fun child => child.at? address

@[simp] theorem at?_nil (tag : Tag) : tag.at? [] = some tag := rfl

/-- An address leads into one of the children. -/
theorem at?_cons_eq_some_iff {tag node : Tag} {i : Nat} {address : List Nat} :
    tag.at? (i :: address) = some node ↔
      ∃ child, tag.children[i]? = some child ∧ child.at? address = some node := by
  simp [at?, Option.bind_eq_some_iff]

/-- Going along two addresses, one after the other, is going along both. -/
theorem at?_append (tag : Tag) (address further : List Nat) :
    tag.at? (address ++ further) = (tag.at? address).bind fun node => node.at? further := by
  induction address generalizing tag with
  | nil => rfl
  | cons i address ih =>
    rw [List.cons_append, at?, at?]
    cases tag.children[i]? with
    | none => rfl
    | some child => exact ih child

/-! ## All places -/

/-- The nodes of a tree with their addresses, each before its children. -/
def addressed (tag : Tag) : List (List Nat × Tag) :=
  ([], tag) :: tag.children.zipIdx.attach.flatMap fun ⟨child, _⟩ =>
    child.1.addressed.map fun place => (child.2 :: place.1, place.2)
termination_by sizeOf tag
decreasing_by exact sizeOf_lt_of_mem_children (List.fst_mem_of_mem_zipIdx ‹_›)

/-- The places are the root and, behind the index of each child, the places below it. -/
theorem addressed_eq (tag : Tag) :
    tag.addressed = ([], tag) :: tag.children.zipIdx.flatMap fun child =>
      child.1.addressed.map fun place => (child.2 :: place.1, place.2) := by
  rw [addressed, List.flatMap_subtype fun _ _ => rfl, List.unattach_attach]

/-- Without the addresses, the places are the nodes in document order. -/
theorem map_snd_addressed (tag : Tag) : tag.addressed.map Prod.snd = tag.walk := by
  induction tag using Tag.induction with
  | node tag ih =>
    have hchild : ∀ child ∈ tag.children.zipIdx,
        (child.1.addressed.map fun place => (child.2 :: place.1, place.2)).map Prod.snd =
          child.1.walk := by
      intro child hchild
      rw [List.map_map]
      exact ih child.1 (List.fst_mem_of_mem_zipIdx hchild)
    rw [addressed_eq, walk, List.map_cons, List.map_flatMap, List.flatMap_congr hchild,
      ← List.flatMap_map Prod.fst, List.zipIdx_map_fst]

/-- A node stands at an address exactly if the address leads to it. -/
theorem mem_addressed_iff {tag node : Tag} {address : List Nat} :
    (address, node) ∈ tag.addressed ↔ tag.at? address = some node := by
  induction tag using Tag.induction generalizing address with
  | node tag ih =>
    rw [addressed_eq]
    cases address with
    | nil => simp [eq_comm]
    | cons i address =>
      simp only [List.mem_cons, List.mem_flatMap, List.mem_map, Prod.mk.injEq, reduceCtorEq,
        false_and, false_or, List.cons.injEq, at?_cons_eq_some_iff]
      constructor
      · rintro ⟨⟨child, _⟩, hchild, ⟨_, _⟩, hplace, ⟨rfl, rfl⟩, rfl⟩
        have hmem := List.fst_mem_of_mem_zipIdx hchild
        exact ⟨child, List.mk_mem_zipIdx_iff_getElem?.mp hchild, (ih child hmem).mp hplace⟩
      · rintro ⟨child, hchild, hnode⟩
        have hmem := List.mem_of_getElem? hchild
        exact ⟨(child, i), List.mk_mem_zipIdx_iff_getElem?.mpr hchild, (address, node),
          (ih child hmem).mpr hnode, ⟨rfl, rfl⟩, rfl⟩

/-- The addresses come in order. -/
theorem pairwise_addressed (tag : Tag) :
    tag.addressed.Pairwise fun place later => place.1 < later.1 := by
  induction tag using Tag.induction with
  | node tag ih =>
    rw [addressed_eq, List.pairwise_cons, List.pairwise_flatMap]
    refine ⟨?_, ?_, ?_⟩
    · -- The root is above all others.
      intro place hplace
      simp only [List.mem_flatMap, List.mem_map] at hplace
      obtain ⟨child, -, below, -, rfl⟩ := hplace
      exact List.nil_lt_cons _ _
    · -- Below one child, the order is that below the child.
      intro child hchild
      rw [List.pairwise_map]
      apply (ih child.1 (List.fst_mem_of_mem_zipIdx hchild)).imp
      intro place later horder
      exact List.cons_lt_cons_iff.mpr (.inr ⟨rfl, horder⟩)
    · -- What is below different children is told apart by the first index.
      have hindices : (tag.children.zipIdx.map Prod.snd).Pairwise (· < ·) := by
        rw [List.zipIdx_map_snd]
        exact List.pairwise_lt_range'
      apply (List.pairwise_map.mp hindices).imp
      intro child later horder place hplace other hother
      simp only [List.mem_map] at hplace hother
      obtain ⟨below, -, rfl⟩ := hplace
      obtain ⟨below', -, rfl⟩ := hother
      exact List.cons_lt_cons_iff.mpr (.inl horder)

end AtMarkup.Tag
