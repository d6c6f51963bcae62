import AtMarkup.Tag.Basic
import AtMarkup.Text.Blank
import AtMarkup.Text.Spacing

/-!
# Pending text

Between two tags the reader collects literal text.  When the next tag starts or the block ends,
the collected run becomes one text leaf, its spacing compressed, or nothing if it is blank.  The
leaf stands where the first addition to the run was made, even if that addition was empty.
-/

namespace AtMarkup.Markup

/-- The text run that is being collected. -/
structure PendingText where
  /-- The characters so far, latest first. -/
  collected : List Char := []
  /-- Where the run started. -/
  start : Option Position := none
  deriving DecidableEq, Repr, Inhabited

namespace PendingText

/-- No text so far. -/
def empty : PendingText := {}

/-- Adds some text that stands at a position. -/
def add (pending : PendingText) (text : List Char) (position : Position) : PendingText :=
  ⟨text.reverseAux pending.collected, some (pending.start.getD position)⟩

/-- The collected characters in their order. -/
def run (pending : PendingText) : List Char :=
  pending.collected.reverse

/-- The leaf that the run amounts to; a blank run amounts to none. -/
def leaf? (pending : PendingText) : Option Tag :=
  match pending.start with
  | none => none
  | some start =>
    if Text.isBlankText pending.run then none
    else some (Tag.textLeaf (String.ofList (Text.compressSpaces pending.run)) start)

/-- Ends the run: the leaf that it amounts to, and the pending text afterwards, which is empty
whether there is a leaf or not. -/
def flush (pending : PendingText) : Option Tag × PendingText :=
  (pending.leaf?, .empty)

/-- Adding text puts it behind the run. -/
@[simp] theorem run_add (pending : PendingText) (text : List Char) (position : Position) :
    (pending.add text position).run = pending.run ++ text := by
  simp [run, add, List.reverseAux_eq]

/-- The first addition fixes where the run starts. -/
@[simp] theorem start_add (pending : PendingText) (text : List Char) (position : Position) :
    (pending.add text position).start = some (pending.start.getD position) := rfl

@[simp] theorem run_empty : empty.run = [] := rfl

@[simp] theorem leaf?_empty : empty.leaf? = none := rfl

@[simp] theorem fst_flush (pending : PendingText) : pending.flush.1 = pending.leaf? := rfl

@[simp] theorem snd_flush (pending : PendingText) : pending.flush.2 = empty := rfl

end PendingText

end AtMarkup.Markup
