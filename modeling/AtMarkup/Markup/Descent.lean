import AtMarkup.Cursor
import AtMarkup.Markup.Reader
import AtMarkup.Text.Slice

/-!
# Reading markup by descent

Blocks hold tags and tags have blocks, so markup can be read by procedures that call each other:
one for a block, one for a tag, and one for each part of a tag's header.  They share a cursor, which
only ever moves forward.  Each procedure leaves it where the next one goes on: behind the text or on
the closing brace of a block, on the opening brace of a tag, on the parenthesis that closes an
option list, and on the first character that is not blank.

What the procedures do with the cursor is written down in a `Scan`: what each move came to, where
each turn of a loop started and ended, and where each tag began, with the tags around it.  A
`Passage` is what comes of a procedure.  It holds that there are no more moves left than before,
which is why the procedures end: each turn of a loop, and each tag in a block, starts with fewer
moves left than the one before.
-/

namespace AtMarkup.Markup

/-! ## Scans -/

/-- The loops of the procedures. -/
inductive Loop where
  /-- Over what stands in a block. -/
  | block
  /-- Over the characters of a tag name. -/
  | name
  /-- Over the characters of an option list. -/
  | options
  /-- Over blanks. -/
  | blanks
  deriving DecidableEq, Repr, Inhabited

/-- A turn of a loop. -/
structure Turn where
  /-- The loop. -/
  loop : Loop
  /-- Where the cursor was when the turn started. -/
  start : Position
  /-- Where it was when the turn was over. -/
  stop : Position
  deriving DecidableEq, Repr, Inhabited

/-- A cursor on its way, and what has been done with it, latest first. -/
structure Scan where
  /-- The cursor. -/
  cursor : Cursor
  /-- What it came to stand on with each move. -/
  moves : List (Option Char) := []
  /-- The turns of loops that are over. -/
  turns : List Turn := []
  /-- For each tag that was begun, where that was and where the tags around it begin, innermost
  first. -/
  tags : List (List Position) := []
  deriving DecidableEq, Repr, Inhabited

namespace Scan

/-- The scan before a text whose line ends are unified. -/
def start (text : List Char) : Scan :=
  { cursor := .ofUnified text }

/-- Where the cursor is. -/
def position (scan : Scan) : Position := scan.cursor.position

/-- The character that the cursor stands on. -/
def current (scan : Scan) : Option Char := scan.cursor.current

/-- How many moves are left. -/
def left (scan : Scan) : Nat := scan.cursor.left

/-- Moves the cursor one character on. -/
def advance (scan : Scan) : Scan :=
  { scan with
    cursor := scan.cursor.advance
    moves := scan.cursor.advance.current :: scan.moves }

/-- Writes down a turn that is over. -/
def turned (scan : Scan) (loop : Loop) (start : Position) : Scan :=
  { scan with turns := ⟨loop, start, scan.position⟩ :: scan.turns }

/-- Writes down that a tag begins where the cursor is, in the tags around it. -/
def entered (scan : Scan) (around : List Position) : Scan :=
  { scan with tags := (scan.position :: around) :: scan.tags }

variable (scan : Scan) (loop : Loop) (start : Position) (around : List Position)

@[simp] theorem left_turned : (scan.turned loop start).left = scan.left := rfl

@[simp] theorem left_entered : (scan.entered around).left = scan.left := rfl

@[simp] theorem left_advance : scan.advance.left = scan.left - 1 := scan.cursor.left_advance

@[simp] theorem position_turned : (scan.turned loop start).position = scan.position := rfl

@[simp] theorem position_entered : (scan.entered around).position = scan.position := rfl

variable {scan}

/-- On a character there is a move left. -/
theorem left_pos_of_current {c : Char} (h : scan.current = some c) : 0 < scan.left :=
  Cursor.left_pos_of_current h

/-- There are no more moves left than before. -/
theorem left_advance_le : scan.advance.left ≤ scan.left := by
  rw [left_advance]
  exact Nat.sub_le _ _

/-- A move onto a character leaves fewer moves. -/
theorem left_advance_lt {c : Char} (h : scan.advance.current = some c) :
    scan.advance.left < scan.left := by
  have hpos := left_pos_of_current h
  rw [left_advance] at hpos ⊢
  omega

end Scan

/-! ## Passages -/

/-- What comes of a procedure that starts with so many moves left. -/
structure Passage (α : Type) (left : Nat) where
  /-- What was read, or the fault that was found where the cursor is. -/
  result : Except Fault α
  /-- The scan afterwards. -/
  scan : Scan
  /-- The cursor has not gone back. -/
  further : scan.left ≤ left

namespace Passage

variable {α β : Type} {left more : Nat}

/-- Something was read. -/
def done (value : α) (scan : Scan) : Passage α scan.left :=
  ⟨.ok value, scan, Nat.le_refl _⟩

/-- A fault was found. -/
def raised (fault : Fault) (scan : Scan) : Passage α scan.left :=
  ⟨.error fault, scan, Nat.le_refl _⟩

/-- The passage, seen from further back. -/
def within (passage : Passage α left) (h : left ≤ more) : Passage α more :=
  { passage with further := Nat.le_trans passage.further h }

/-- Writes down the turn that is over with a passage, be it by a fault. -/
def turned (passage : Passage α left) (loop : Loop) (start : Position) : Passage α left :=
  { passage with scan := passage.scan.turned loop start }

/-- Goes on with what was read; a fault ends the passage. -/
def andThen (passage : Passage α left)
    (next : α → (scan : Scan) → scan.left ≤ left → Passage β scan.left) : Passage β left :=
  match passage.result with
  | .ok value => (next value passage.scan passage.further).within passage.further
  | .error fault => ⟨.error fault, passage.scan, passage.further⟩

end Passage

/-! ## The parts of a header -/

/-- Goes on as long as the cursor stands on characters of a kind, and comes to the first other. -/
def goOn (loop : Loop) (kind : Char → Bool) (scan : Scan) : Passage Char scan.left :=
  match _h : scan.current with
  | none => .raised .unexpectedEnd scan
  | some c =>
    if kind c then
      (goOn loop kind (scan.advance.turned loop scan.position)).within Scan.left_advance_le
    else .done c scan
termination_by scan.left
decreasing_by
  have hpos := Scan.left_pos_of_current _h
  simp only [Scan.left_turned, Scan.left_advance]
  omega

/-- Goes on to the next character that is not blank, which may be the one here. -/
def skipBlanks (scan : Scan) : Passage Char scan.left :=
  goOn .blanks Text.isBlank scan

/-- Reads an option list from the parenthesis that opens it to the one that closes it. -/
def parseOptions (text : List Char) (scan : Scan) : Passage Tag.Options scan.left :=
  ((goOn .options (fun c => c != ')' && !isForbiddenInOptions c) scan.advance).within
    Scan.left_advance_le).andThen fun stop here _ =>
      if stop = ')' then
        match readOptions (Text.slice text (scan.position.offset + 1) here.position.offset) with
        | .ok options => .done options here
        | .error fault => .raised fault here
      else .raised .unexpectedCharacter here

/-- Reads the options of a tag, if the character `c` here opens a list of them; with them goes the
first character behind that is not blank. -/
def parseGivenOptions (text : List Char) (c : Char) (scan : Scan) :
    Passage (Tag.Options × Char) scan.left :=
  if c = '(' then
    (parseOptions text scan).andThen fun options closing _ =>
      ((skipBlanks closing.advance).within Scan.left_advance_le).andThen fun c here _ =>
        .done (options, c) here
  else .done (.empty, c) scan

/-- Reads what follows a name: blanks and options, up to the brace that opens the block. -/
def parseOpening (text : List Char) (scan : Scan) : Passage Tag.Options scan.left :=
  (skipBlanks scan).andThen fun c next _ =>
    (parseGivenOptions text c next).andThen fun (options, c) here _ =>
      if c = '{' then .done options here else .raised .unexpectedCharacter here

/-- Reads the name and the options of a tag in the tags `around`, from its marker to the brace that
opens its block. -/
def parseHeader (limit : Int) (text : List Char) (around : List Position) (scan : Scan) :
    Passage (String × Tag.Options) scan.left :=
  if limit < around.length + 1 then .raised (.tooDeep limit) scan
  else
    ((goOn .name (fun c => !endsName c) scan.advance).within Scan.left_advance_le).andThen
      fun _ stop _ =>
        let name := Text.slice text (scan.position.offset + 1) stop.position.offset
        if !name.isEmpty && name.all isNameCharacter then
          (parseOpening text stop).andThen fun options here _ =>
            .done (String.ofList name, options) here
        else .raised (.badName (String.ofList name)) stop

/-! ## Tags and blocks -/

/-- The nodes of a block, latest first, with the leaf that the pending text amounts to. -/
def appendLeaf (nodes : List Tag) (pending : PendingText) : List Tag :=
  match pending.flush.1 with
  | none => nodes
  | some leaf => leaf :: nodes

/-- What the end of the text makes of a block: only the text itself may end here. -/
def endBlock (around : List Position) (nodes : List Tag) (pending : PendingText) (scan : Scan) :
    Passage (List Tag) scan.left :=
  if around.isEmpty then .done (appendLeaf nodes pending).reverse scan
  else .raised .unexpectedEnd scan

mutual

/-- Reads a tag in the tags `around`, from its marker to the brace that closes its block. -/
def parseTag (limit : Int) (text : List Char) (around : List Position) (scan : Scan) :
    Passage Tag scan.left :=
  let marker := scan.position
  (parseHeader limit text around (scan.entered around)).andThen fun (kind, options) here _ =>
    (parseBlock limit text (marker :: around) [] .empty here).andThen fun children behind _ =>
      .done ⟨kind, options, "", marker, children⟩ behind
termination_by 2 * scan.left + 1
decreasing_by
  rename_i further
  have hfurther : here.left ≤ scan.left := further
  omega

/-- Reads on in the block of the innermost of the tags `around`, or, if there is none, in the text,
up to the brace that closes the block, or the end. Its nodes so far are given latest first. -/
def parseBlock (limit : Int) (text : List Char) (around : List Position) (nodes : List Tag)
    (pending : PendingText) (scan : Scan) : Passage (List Tag) scan.left :=
  let start := scan.position
  let here := scan.advance
  match _h : here.current with
  | none => (endBlock around nodes pending (here.turned .block start)).within Scan.left_advance_le
  | some c =>
    if c = '\\' then
      let behind := here.advance
      match behind.current with
      | none =>
        (endBlock around nodes pending (behind.turned .block start)).within
          (Nat.le_trans Scan.left_advance_le Scan.left_advance_le)
      | some escaped =>
        (parseBlock limit text around nodes
          (pending.add [escapedCharacter escaped] here.position)
          (behind.turned .block start)).within
          (Nat.le_trans Scan.left_advance_le Scan.left_advance_le)
    else if c = '@' then
      (((parseTag limit text around here).turned .block start).andThen fun tag behind _ =>
        parseBlock limit text around (tag :: appendLeaf nodes pending) .empty behind).within
          Scan.left_advance_le
    else if c = '}' then
      if around.isEmpty then
        (Passage.raised .unmatchedBrace (here.turned .block start)).within Scan.left_advance_le
      else
        (Passage.done (appendLeaf nodes pending).reverse (here.turned .block start)).within
          Scan.left_advance_le
    else
      (parseBlock limit text around nodes (pending.add [plainCharacter c] here.position)
        (here.turned .block start)).within Scan.left_advance_le
termination_by 2 * scan.left
decreasing_by all_goals
  have hless : here.left < scan.left := Scan.left_advance_lt _h
  simp only [here, Scan.left_turned, Scan.left_advance] at *
  omega

end

/-! ## The whole text -/

/-- What comes of a text that is read by descent. -/
structure Descent where
  /-- The root of the document, or what is wrong with it. -/
  outcome : Except LocatedFault Tag
  /-- The scan of the text. -/
  scan : Scan

/-- Reads a document whose line ends are unified. -/
def parseRoot (limit : Int) (text : List Char) : Descent :=
  let passage := parseBlock limit text [] [] .empty (.start text)
  let stop := passage.scan.position
  match passage.result with
  | .ok nodes => ⟨soleNode stop nodes, passage.scan⟩
  | .error fault => ⟨.error ⟨fault, stop⟩, passage.scan⟩

end AtMarkup.Markup
