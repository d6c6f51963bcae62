import Mathlib
import AtMarkup.Markup.Reader

/-!
# Collecting text

Pending text is added to and flushed in any order. This file is about whole runs of such operations.

* `PendingText.flushed` gives what comes of every flush in a run. A run falls into stretches, each
  of additions that end with a flush, and some additions behind the last flush
  (`exists_stretches`).
* What comes of a flush is told by its own stretch, in terms of the texts and positions that were
  added (`IsLeafOf`). The two parts of pending text follow the additions side by side: the texts are
  joined (`run_addAll`), and the first position is kept (`start_addAll`).
* A reader that adds and flushes gets the leaves as nodes (`nodes_foldl_operate`). Its flush is
  where both parts are reset.
-/

namespace AtMarkup.Markup

namespace PendingText

/-- A text that is added, and the position given for it. -/
structure Addition where
  /-- The text, which may be empty. -/
  text : List Char
  /-- Where it stands. -/
  position : Position
  deriving DecidableEq, Repr

/-- What can be done to pending text. -/
inductive Operation where
  /-- Text is added. -/
  | add (addition : Addition)
  /-- The run is ended, and the next one starts. -/
  | flush
  deriving DecidableEq, Repr

/-- What the flushes of a run give, in turn. -/
def flushed (pending : PendingText) : List Operation → List (Option Tag)
  | [] => []
  | .add addition :: operations =>
    (pending.add addition.text addition.position).flushed operations
  | .flush :: operations => pending.flush.1 :: pending.flush.2.flushed operations

/-! ## One stretch -/

/-- Adds some texts, one behind the other. -/
def addAll (pending : PendingText) (additions : List Addition) : PendingText :=
  additions.foldl (fun pending addition => pending.add addition.text addition.position) pending

/-- The texts that are added, joined. -/
def joined (additions : List Addition) : List Char :=
  additions.flatMap Addition.text

/-- What a flush gives for the additions since the flush before: a text leaf if their texts are not
blank together. Its content is all of them, compressed, and it stands where the first of them does,
whatever that text is. -/
structure IsLeafOf (additions : List Addition) (result : Option Tag) : Prop where
  /-- There is a leaf exactly if the texts are not blank. -/
  isSome_iff : result.isSome = true ↔ Text.isBlankText (joined additions) = false
  /-- It is of the kind `text`. -/
  kind : ∀ leaf ∈ result, leaf.kind = "text"
  /-- It has no options. -/
  options : ∀ leaf ∈ result, leaf.options = .empty
  /-- It has no children. -/
  children : ∀ leaf ∈ result, leaf.children = []
  /-- Its content. -/
  content : ∀ leaf ∈ result,
    leaf.content = String.ofList (Text.compressSpaces (joined additions))
  /-- Where it stands. -/
  position : ∀ leaf ∈ result, additions.head?.map Addition.position = some leaf.position

/-- The texts are put behind the run. -/
theorem run_addAll (pending : PendingText) (additions : List Addition) :
    (pending.addAll additions).run = pending.run ++ joined additions := by
  induction additions generalizing pending with
  | nil => exact (List.append_nil _).symm
  | cons first rest ih =>
    calc (pending.addAll (first :: rest)).run
        = (pending.add first.text first.position).run ++ joined rest := ih _
      _ = pending.run ++ joined (first :: rest) := by
          rw [run_add, List.append_assoc, joined, joined, List.flatMap_cons]

/-- The first position is kept, unless there is one already. -/
theorem start_addAll (pending : PendingText) (additions : List Addition) :
    (pending.addAll additions).start =
      pending.start.or (additions.head?.map Addition.position) := by
  induction additions generalizing pending with
  | nil => exact Option.or_none.symm
  | cons first rest ih =>
    calc (pending.addAll (first :: rest)).start
        = (pending.add first.text first.position).start.or (rest.head?.map Addition.position) :=
          ih _
      _ = pending.start.or (some first.position) := by
          rw [start_add]
          cases pending.start <;> rfl

/-- Blank texts give no leaf. -/
theorem isLeafOf_none {additions : List Addition}
    (h : Text.isBlankText (joined additions) = true) : IsLeafOf additions none where
  isSome_iff := by simp [h]
  kind := by simp
  options := by simp
  children := by simp
  content := by simp
  position := by simp

/-- Texts that are not blank give a leaf at the first position. -/
theorem isLeafOf_textLeaf {additions : List Addition} {start : Position}
    (h : Text.isBlankText (joined additions) = false)
    (hstart : additions.head?.map Addition.position = some start) :
    IsLeafOf additions
      (some (Tag.textLeaf (String.ofList (Text.compressSpaces (joined additions))) start)) where
  isSome_iff := by simp [h]
  kind := by simp
  options := by simp
  children := by simp
  content := by simp
  position := by simpa using hstart

/-- A stretch that starts without pending text ends in its leaf. -/
theorem isLeafOf_leaf? (additions : List Addition) :
    IsLeafOf additions (empty.addAll additions).leaf? := by
  have hrun : (empty.addAll additions).run = joined additions := run_addAll empty additions
  have hstart : (empty.addAll additions).start = additions.head?.map Addition.position :=
    start_addAll empty additions
  cases additions with
  | nil => exact isLeafOf_none rfl
  | cons first rest =>
    rw [leaf?, hstart, hrun, List.head?_cons, Option.map_some]
    cases hblank : Text.isBlankText (joined (first :: rest)) with
    | true => exact isLeafOf_none hblank
    | false => exact isLeafOf_textLeaf hblank rfl

/-! ## Runs -/

/-- Additions come before what follows them. -/
theorem flushed_map_add (pending : PendingText) (additions : List Addition)
    (operations : List Operation) :
    pending.flushed (additions.map .add ++ operations) =
      (pending.addAll additions).flushed operations := by
  induction additions generalizing pending with
  | nil => rfl
  | cons first rest ih => exact ih _

/-- Additions alone give nothing. -/
theorem flushed_additions (pending : PendingText) (additions : List Addition) :
    pending.flushed (additions.map .add) = [] := by
  have hsplit := flushed_map_add pending additions []
  rwa [List.append_nil] at hsplit

/-- What comes behind a flush does not depend on what was before it. -/
theorem flushed_append_flush (pending : PendingText) (operations later : List Operation) :
    pending.flushed (operations ++ .flush :: later) =
      pending.flushed (operations ++ [.flush]) ++ empty.flushed later := by
  induction operations generalizing pending with
  | nil => rfl
  | cons operation operations ih =>
    cases operation with
    | add addition => exact ih _
    | flush => exact congrArg (pending.leaf? :: ·) (ih empty)

/-- The operations of some stretches, and of the additions behind them. -/
def operationsOf (stretches : List (List Addition)) (last : List Addition) : List Operation :=
  stretches.flatMap (fun additions => additions.map .add ++ [.flush]) ++ last.map .add

/-- A run falls into stretches. -/
theorem exists_stretches (operations : List Operation) :
    ∃ stretches last, operations = operationsOf stretches last := by
  induction operations with
  | nil => exact ⟨[], [], rfl⟩
  | cons operation operations ih =>
    obtain ⟨stretches, last, rfl⟩ := ih
    cases operation with
    | flush => exact ⟨[] :: stretches, last, rfl⟩
    | add addition =>
      -- The addition belongs to the first stretch, or to the additions at the end if there is none.
      cases stretches with
      | nil => exact ⟨[], addition :: last, rfl⟩
      | cons additions stretches => exact ⟨(addition :: additions) :: stretches, last, rfl⟩

/-- Each flush of a run gives the leaf of its own stretch. -/
theorem forall₂_isLeafOf_flushed (stretches : List (List Addition)) (last : List Addition) :
    List.Forall₂ IsLeafOf stretches (empty.flushed (operationsOf stretches last)) := by
  induction stretches with
  | nil =>
    have hnone : empty.flushed (operationsOf [] last) = [] := flushed_additions empty last
    rw [hnone]
    exact .nil
  | cons additions stretches ih =>
    have hsplit : operationsOf (additions :: stretches) last =
        additions.map .add ++ .flush :: operationsOf stretches last := by
      simp [operationsOf]
    rw [hsplit, flushed_map_add]
    exact .cons (isLeafOf_leaf? additions) ih

end PendingText

open PendingText

/-! ## The reader -/

/-- The reader when one of the operations is done to its pending text. It collects a character by
adding it alone. -/
def Progress.operate (p : Progress) : Operation → Progress
  | .add addition => { p with pending := p.pending.add addition.text addition.position }
  | .flush => p.flush

/-- The leaves become nodes of the innermost block, the latest first. -/
theorem nodes_foldl_operate (p : Progress) (operations : List Operation) :
    (operations.foldl Progress.operate p).nodes =
      (p.pending.flushed operations).reduceOption.reverse ++ p.nodes := by
  induction operations generalizing p with
  | nil => rfl
  | cons operation operations ih =>
    rw [List.foldl_cons, ih]
    cases operation with
    | add addition => rfl
    | flush =>
      have hnodes : p.flush.nodes = p.pending.leaf?.toList ++ p.nodes := by
        cases hleaf : p.pending.leaf? <;> simp [Progress.flush, Progress.flushedNodes, hleaf]
      show (empty.flushed operations).reduceOption.reverse ++ p.flush.nodes =
        (p.pending.leaf? :: empty.flushed operations).reduceOption.reverse ++ p.nodes
      rw [hnodes]
      cases p.pending.leaf? <;> simp

/-- **What comes of collected text.** In a run of additions and flushes that starts without pending
text, each flush gives the text leaf of what was added since the flush before it, or since the
start: one exactly if the added texts are not blank together, with all of them, compressed, for its
content and the position given with the first of them, even an empty one. What comes behind a flush
is as if nothing had been before it, whether that flush gave a leaf or not. A reader that adds and
flushes in this way gets these leaves, and no other node. -/
theorem collected_text (operations later : List Operation) :
    (∃ stretches last, operations = operationsOf stretches last ∧
        List.Forall₂ IsLeafOf stretches (PendingText.empty.flushed operations)) ∧
      PendingText.empty.flushed (operations ++ .flush :: later) =
        PendingText.empty.flushed (operations ++ [.flush]) ++
          PendingText.empty.flushed later ∧
      ∀ p : Progress, (operations.foldl Progress.operate p).nodes =
        (p.pending.flushed operations).reduceOption.reverse ++ p.nodes := by
  refine ⟨?_, flushed_append_flush PendingText.empty operations later,
    fun p => nodes_foldl_operate p operations⟩
  obtain ⟨stretches, last, rfl⟩ := exists_stretches operations
  exact ⟨stretches, last, rfl, forall₂_isLeafOf_flushed stretches last⟩

/-- An empty text that is added first fixes where the leaf stands, and blank text in front of the
second leaf leaves no trace in it. -/
theorem collected_text_from_empty :
    let first : List Operation := [.add ⟨[], ⟨4, 0, 4⟩⟩, .add ⟨['a'], ⟨6, 1, 0⟩⟩, .flush,
      .add ⟨['\n'], ⟨7, 1, 1⟩⟩]
    let later : List Operation := [.add ⟨[' ', 'b', ' ', ' '], ⟨9, 2, 0⟩⟩, .flush]
    PendingText.empty.flushed (first ++ .flush :: later) =
        [some (.textLeaf "a" ⟨4, 0, 4⟩), none, some (.textLeaf " b " ⟨9, 2, 0⟩)] ∧
      ((first ++ .flush :: later).foldl Progress.operate .start).nodes =
        [.textLeaf " b " ⟨9, 2, 0⟩, .textLeaf "a" ⟨4, 0, 4⟩] := by
  intro first later
  obtain ⟨-, hflushed, -⟩ := collected_text first later
  obtain ⟨-, -, hnodes⟩ := collected_text (first ++ .flush :: later) []
  have hall : PendingText.empty.flushed (first ++ .flush :: later) =
      [some (.textLeaf "a" ⟨4, 0, 4⟩), none, some (.textLeaf " b " ⟨9, 2, 0⟩)] := by
    rw [hflushed]
    rfl
  refine ⟨hall, ?_⟩
  have hstart : Progress.start.pending = PendingText.empty := rfl
  rw [hnodes, hstart, hall]
  rfl

end AtMarkup.Markup
