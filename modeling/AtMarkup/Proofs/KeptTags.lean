import Mathlib
import AtMarkup.Proofs.Acceptance

/-!
# What has been read of a tag stays

Once the reader has passed the parentheses of a tag, its name, options and place are settled: a
document that is accepted has a node with them, whatever stands behind.

On the way there the tag is first the one whose header is being read, then one whose block is open,
and then a node below one of the finished ones (`Keeps`). A step does one of three things to blocks
(`BlockStep`): it leaves them alone, opens one or closes one. Each keeps the tag (`Keeps.step`), so
a run does (`Keeps.run`), and when the text ends without an open block only the last of the three is
left (`Keeps.exists_node`).
-/

namespace AtMarkup

/-- The node is a tag with this name and these options, and its `@` stands at this place. -/
structure Tag.IsWrittenAs (node : Tag) (marker : Position) (kind : String) (options : Options) :
    Prop where
  /-- Where its `@` stands. -/
  position : node.position = marker
  /-- Its name. -/
  kind : node.kind = kind
  /-- Its options. -/
  options : node.options = options

namespace Markup

/-- The finished nodes of all blocks that are open. -/
def Progress.finished (p : Progress) : List Tag :=
  p.nodes ++ p.enclosing.flatMap OpenTag.earlier

/-- What has been read holds a tag with this name and these options at this place. -/
inductive Keeps (p : Progress) (marker : Position) (kind : String) (options : Tag.Options) :
    Prop where
  /-- The tag's block is about to open. -/
  | header (hmode : p.mode = .optioned marker kind options)
  /-- The tag's block is open. -/
  | block {earlier : List Tag} (hopen : ⟨kind, options, marker, earlier⟩ ∈ p.enclosing)
  /-- The tag's block is closed. -/
  | node {root node : Tag} (hroot : root ∈ p.finished) (hnode : node ∈ root.walk)
      (hwritten : node.IsWrittenAs marker kind options)

/-! ## One step -/

/-- What a step may do to the blocks and their finished nodes. -/
inductive BlockStep (p : Progress) : Progress → Prop where
  /-- They stay, but for a text that becomes a node. -/
  | same {q : Progress} (henclosing : q.enclosing = p.enclosing) (hnodes : p.nodes ⊆ q.nodes) :
      BlockStep p q
  /-- A block is opened. -/
  | opened (marker : Position) (kind : String) (options : Tag.Options) :
      BlockStep p (p.openBlock marker kind options)
  /-- The innermost block is closed. -/
  | closed {tag : OpenTag} {outer : List OpenTag} (henclosing : p.enclosing = tag :: outer) :
      BlockStep p
        { mode := .text, pending := .empty,
          nodes := ⟨tag.kind, tag.options, "", tag.marker, p.flushedNodes.reverse⟩ :: tag.earlier,
          enclosing := outer }

variable {limit : Int} {p q : Progress} {here marker : Position} {kind : String}
  {options : Tag.Options} {c : Char}

/-- Pending text is put in front of the nodes. -/
theorem subset_flushedNodes (p : Progress) : p.nodes ⊆ p.flushedNodes := by
  unfold Progress.flushedNodes
  split
  · exact fun _ hmem => hmem
  · exact List.subset_cons_self _ _

/-- A step in text closes a block or leaves them. -/
theorem blockStep_of_stepText (h : stepText limit p here c = .ok q) : BlockStep p q := by
  unfold stepText at h
  split_ifs at h with hescape hmarker hdeep hclose
  · cases h
    exact .same rfl (List.Subset.refl _)
  · cases h
    exact .same rfl (subset_flushedNodes p)
  · unfold closeBlock at h
    split at h
    · cases h
    · rename_i tag outer henclosing
      cases h
      exact .closed henclosing
  · cases h
    exact .same rfl (List.Subset.refl _)

/-- A step behind a name opens a block or leaves them. -/
theorem blockStep_of_stepNamed (h : stepNamed p marker kind c = .ok q) : BlockStep p q := by
  unfold stepNamed at h
  split_ifs at h
  · cases h
    exact .same rfl (List.Subset.refl _)
  · cases h
    exact .same rfl (List.Subset.refl _)
  · cases h
    exact .opened marker kind .empty

/-- A step in a name leaves them, or does what a step behind the name does. -/
theorem blockStep_of_stepName {typed : List Char} (h : stepName p marker typed c = .ok q) :
    BlockStep p q := by
  unfold stepName at h
  simp only at h
  split_ifs at h
  · exact blockStep_of_stepNamed h
  · cases h
    exact .same rfl (List.Subset.refl _)

/-- A step in an option list leaves them. -/
theorem blockStep_of_stepOptions {typed : List Char}
    (h : stepOptions p marker kind typed c = .ok q) : BlockStep p q := by
  unfold stepOptions at h
  split at h
  · split at h
    · cases h
      exact .same rfl (List.Subset.refl _)
    · cases h
  · split_ifs at h
    cases h
    exact .same rfl (List.Subset.refl _)

/-- A step behind an option list opens the tag's block, or changes nothing at all. -/
theorem cases_of_stepOptioned (h : stepOptioned p marker kind options c = .ok q) :
    q = p ∨ q = p.openBlock marker kind options := by
  unfold stepOptioned at h
  split_ifs at h
  · cases h
    exact .inl rfl
  · cases h
    exact .inr rfl

/-- A step leaves the blocks, opens one or closes one. -/
theorem blockStep_of_step (h : step limit p here c = .ok q) : BlockStep p q := by
  unfold step at h
  split at h
  · exact blockStep_of_stepText h
  · cases h
    exact .same rfl (List.Subset.refl _)
  · exact blockStep_of_stepName h
  · exact blockStep_of_stepNamed h
  · exact blockStep_of_stepOptions h
  · rename_i marker kind options _
    rcases cases_of_stepOptioned h with rfl | rfl
    · exact .same rfl (List.Subset.refl _)
    · exact .opened marker kind options

/-- A tag whose block is open stays, or becomes a node. -/
theorem Keeps.of_block {earlier : List Tag}
    (hopen : ⟨kind, options, marker, earlier⟩ ∈ p.enclosing) (hstep : BlockStep p q) :
    Keeps q marker kind options := by
  cases hstep with
  | same henclosing hnodes => exact .block (henclosing ▸ hopen)
  | opened => exact .block (List.mem_cons_of_mem _ hopen)
  | closed henclosing =>
    rw [henclosing] at hopen
    rcases List.mem_cons.mp hopen with rfl | hmem
    · exact .node (List.mem_append_left _ List.mem_cons_self) (Tag.mem_walk_self _) ⟨rfl, rfl, rfl⟩
    · exact .block hmem

/-- A tag that is a node stays one, and may come to lie inside another. -/
theorem Keeps.of_node {root node : Tag} (hroot : root ∈ p.finished) (hnode : node ∈ root.walk)
    (hwritten : node.IsWrittenAs marker kind options) (hstep : BlockStep p q) :
    Keeps q marker kind options := by
  rw [Progress.finished, List.mem_append] at hroot
  cases hstep with
  | same henclosing hnodes =>
    refine .node ?_ hnode hwritten
    rw [Progress.finished, henclosing, List.mem_append]
    exact hroot.imp_left fun hmem => hnodes hmem
  | opened =>
    refine .node ?_ hnode hwritten
    rw [Progress.finished, Progress.openBlock, List.nil_append, List.flatMap_cons, List.mem_append]
    exact hroot
  | @closed tag outer henclosing =>
    rw [henclosing, List.flatMap_cons, List.mem_append] at hroot
    rcases hroot with hinner | houter
    · -- The node was in the block that closes: it is a child of the tag now.
      have hchild : root ∈ p.flushedNodes.reverse :=
        List.mem_reverse.mpr (subset_flushedNodes p hinner)
      exact .node (List.mem_append_left _ List.mem_cons_self)
        (Tag.mem_walk_of_mem_children hchild hnode) hwritten
    · refine .node ?_ hnode hwritten
      rw [Progress.finished, List.cons_append]
      exact List.mem_cons_of_mem _ (List.mem_append.mpr houter)

/-- **Step.** A step keeps the tag. -/
theorem Keeps.step (h : Keeps p marker kind options) (hstep : step limit p here c = .ok q) :
    Keeps q marker kind options := by
  cases h with
  | header hmode =>
    rw [Markup.step, hmode] at hstep
    rcases cases_of_stepOptioned hstep with rfl | rfl
    · exact .header hmode
    · exact .block List.mem_cons_self
  | block hopen => exact .of_block hopen (blockStep_of_step hstep)
  | node hroot hnode hwritten => exact .of_node hroot hnode hwritten (blockStep_of_step hstep)

/-! ## Runs and documents -/

/-- **Run.** A run keeps the tag. -/
theorem Keeps.run {text : List Char} (h : Keeps p marker kind options)
    (hrun : run limit p here text = .ok q) : Keeps q marker kind options := by
  induction text generalizing p here with
  | nil =>
    cases hrun
    exact h
  | cons c text ih =>
    cases hstep : Markup.step limit p here c with
    | ok next =>
      rw [run_cons_of_ok hstep] at hrun
      exact ih (h.step hstep) hrun
    | error fault =>
      rw [run_cons_of_error hstep] at hrun
      cases hrun

/-- When the text ends, the tag is below one of the nodes at the top. -/
theorem Keeps.exists_node {top : List Tag} (h : Keeps p marker kind options)
    (htop : topNodes p = .ok top) :
    ∃ root ∈ top, ∃ node ∈ root.walk, node.IsWrittenAs marker kind options := by
  obtain ⟨htext, henclosing, rfl⟩ := mode_of_topNodes htop
  -- A header or an open block would be there still, and the text has ended without one.
  cases h with
  | header hmode =>
    rw [hmode] at htext
    simp at htext
  | block hopen =>
    rw [henclosing] at hopen
    exact absurd hopen List.not_mem_nil
  | @node root node hroot hnode hwritten =>
    rw [Progress.finished, henclosing, List.flatMap_nil, List.append_nil] at hroot
    exact ⟨root, List.mem_reverse.mpr (subset_flushedNodes p hroot), node, hnode, hwritten⟩

/-- An accepted document has the tags that the reader has come across. -/
theorem exists_node_of_run {text rest : List Char} {root : Tag}
    (hrun : run limit .start .origin text = .ok p) (h : Keeps p marker kind options)
    (haccepted : (readUnified limit (text ++ rest)).outcome = .ok root) :
    ∃ node ∈ root.walk, node.IsWrittenAs marker kind options := by
  rw [readUnified, outcome_read, run_append_of_ok hrun] at haccepted
  obtain ⟨last, hlast, hfinish⟩ := Grammar.bind_eq_ok_iff.mp haccepted
  unfold finish at hfinish
  split at hfinish
  · cases hfinish
  · rename_i top htop
    obtain rfl := eq_of_soleNode_eq_ok hfinish
    obtain ⟨other, hother, node, hnode, hwritten⟩ := (h.run hlast).exists_node htop
    obtain rfl := List.mem_singleton.mp hother
    exact ⟨node, hnode, hwritten⟩

end Markup

end AtMarkup
