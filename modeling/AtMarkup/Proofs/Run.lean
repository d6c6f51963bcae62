import Mathlib
import AtMarkup.Markup.Reader
import AtMarkup.Proofs.OptionText
import AtMarkup.Proofs.Spacing

/-!
# Runs of the reader

`Markup.read` judges a text as a whole. Most of what there is to say about the reader is about
parts of a text, so this file gives the run itself a name:

* `run limit p here text` takes a text from the progress `p` and gives where that leads, or the
  first fault. Runs compose (`run_append`), and `read` is a run and a judgement
  (`outcome_read`).
* What the parts of the grammar do to the progress: a unit of text collects its character
  (`run_unit`), a header opens a block (`run_header`), and the items of a block are absorbed one
  after the other (`run_items`). This is the half "whatever the grammar spells, the reader takes".

The depth limit enters in one place only, at the `@` of a header.
-/

namespace AtMarkup

/-- A text is passed in two parts. -/
theorem Position.afterText_append (p : Position) (a b : List Char) :
    p.afterText (a ++ b) = (p.afterText a).afterText b :=
  List.foldl_append

namespace Markup

open Grammar

/-! ## The run -/

/-- Runs the reader along a text: where it comes to, or the first fault. -/
def run (limit : Int) (p : Progress) (here : Position) : List Char → Except LocatedFault Progress
  | [] => .ok p
  | c :: rest =>
    match step limit p here c with
    | .ok p => run limit p (here.after c) rest
    | .error fault => .error ⟨fault, here⟩

variable {limit : Int} {p q : Progress} {here : Position}

@[simp] theorem run_nil : run limit p here [] = .ok p := rfl

/-- A step that finds no fault is taken. -/
theorem run_cons_of_ok {c : Char} (h : step limit p here c = .ok q) (rest : List Char) :
    run limit p here (c :: rest) = run limit q (here.after c) rest := by
  rw [run, h]

/-- A fault ends the run. -/
theorem run_cons_of_error {c : Char} {fault : Fault} (h : step limit p here c = .error fault)
    (rest : List Char) : run limit p here (c :: rest) = .error ⟨fault, here⟩ := by
  rw [run, h]

/-- Runs compose. -/
theorem run_append (a b : List Char) :
    run limit p here (a ++ b) =
      run limit p here a >>= fun q => run limit q (here.afterText a) b := by
  induction a generalizing p here with
  | nil => rfl
  | cons c a ih =>
    rw [List.cons_append]
    cases h : step limit p here c with
    | ok q => rw [run_cons_of_ok h, run_cons_of_ok h, ih, Position.afterText_cons]
    | error fault =>
      rw [run_cons_of_error h, run_cons_of_error h]
      rfl

/-- After a run without fault the rest of the text is read from where it led. -/
theorem run_append_of_ok {a : List Char} (h : run limit p here a = .ok q) (b : List Char) :
    run limit p here (a ++ b) = run limit q (here.afterText a) b := by
  rw [run_append, h]
  rfl

/-- Behind a run with a fault nothing is read. -/
theorem run_append_of_error {a : List Char} {located : LocatedFault}
    (h : run limit p here a = .error located) (b : List Char) :
    run limit p here (a ++ b) = .error located := by
  rw [run_append, h]
  rfl

/-- Reading is running, and judging where that led. -/
theorem outcome_read (text : List Char) :
    (read limit p here text).outcome =
      run limit p here text >>= fun q => finish q (here.afterText text) := by
  induction text generalizing p here with
  | nil => rfl
  | cons c text ih =>
    rw [read]
    cases h : step limit p here c with
    | ok q => rw [run_cons_of_ok h, Position.afterText_cons, ← ih]
    | error fault =>
      rw [run_cons_of_error h]
      rfl

/-- A run stays where each of its steps stays. -/
theorem run_eq_self {text : List Char}
    (h : ∀ c ∈ text, ∀ here : Position, step limit p here c = .ok p) :
    run limit p here text = .ok p := by
  induction text generalizing here with
  | nil => rfl
  | cons c text ih =>
    rw [run_cons_of_ok (h c List.mem_cons_self here)]
    exact ih fun d hd => h d (List.mem_cons_of_mem c hd)

/-! ## Units of text -/

/-- In text, a character that is no sign is collected. -/
theorem step_text_of_ne (hmode : p.mode = .text) {c : Char} (hescape : c ≠ '\\') (hmarker : c ≠ '@')
    (hclose : c ≠ '}') : step limit p here c = .ok (p.collect (plainCharacter c) here) := by
  rw [step, hmode]
  simp only [stepText]
  rw [if_neg hescape, if_neg hmarker, if_neg hclose]

/-- In text, a backslash waits for the next character. -/
theorem step_text_escape (hmode : p.mode = .text) :
    step limit p here '\\' = .ok { p with mode := .escaped here } := by
  rw [step, hmode]
  rfl

/-- A backslash and a character are collected as one. -/
theorem run_escaped (hmode : p.mode = .text) (c : Char) :
    run limit p here ['\\', c] = .ok (p.collect (escapedCharacter c) here) := by
  rw [run_cons_of_ok (step_text_escape hmode)]
  rfl

/-- A unit of text collects the character that it stands for. -/
theorem run_unit {unit : List Char} {c : Char} (h : TextUnit unit c) (hmode : p.mode = .text) :
    run limit p here unit = .ok (p.collect c here) := by
  cases h with
  | plain h =>
    simp only [List.mem_cons, List.not_mem_nil, or_false, not_or] at h
    rw [run_cons_of_ok (step_text_of_ne hmode h.1 h.2.1 h.2.2.1), plainCharacter, if_neg h.2.2.2]
    rfl
  | lineFeed =>
    rw [run_cons_of_ok (step_text_of_ne hmode (by decide) (by decide) (by decide))]
    rfl
  | escaped h =>
    simp only [List.mem_cons, List.not_mem_nil, or_false, not_or] at h
    rw [run_escaped hmode, escapedCharacter, if_neg h.1, if_neg h.2]
  | escapedBreak => exact run_escaped hmode 'n'
  | escapedLineFeed => exact run_escaped hmode '\n'

/-! ## Headers -/

/-- A name is made of the characters that the reader takes for one. -/
theorem isNameCharacter_iff (c : Char) : isNameCharacter c = true ↔ IsWordCharacter c :=
  isAlphanum_or_underscore_iff c

/-- No character of a name ends it. -/
theorem not_endsName_of_isWordCharacter {c : Char} (h : IsWordCharacter c) :
    endsName c = false := by
  have hkey : IsKeyCharacter c := .inl h
  have hcases := hkey.toNat_cases
  have hbrace : c ≠ '{' := by
    rintro rfl
    exact absurd hcases (by decide)
  have hparenthesis : c ≠ '(' := by
    rintro rfl
    exact absurd hcases (by decide)
  rw [endsName, hkey.not_isBlank, beq_eq_false_iff_ne.mpr hbrace,
    beq_eq_false_iff_ne.mpr hparenthesis]
  rfl

/-- A name is typed character by character. -/
theorem run_name {marker : Position} {typed name : List Char} (h : ∀ c ∈ name, endsName c = false) :
    run limit { p with mode := .name marker typed } here name =
      .ok { p with mode := .name marker (name.reverse ++ typed) } := by
  induction name generalizing typed here with
  | nil => rfl
  | cons c name ih =>
    have hstep : step limit { p with mode := .name marker typed } here c =
        .ok { p with mode := .name marker (c :: typed) } := by
      simp [step, stepName, h c List.mem_cons_self]
    rw [run_cons_of_ok hstep, ih fun d hd => h d (List.mem_cons_of_mem c hd), List.reverse_cons,
      List.append_assoc]
    rfl

/-- The character that ends a good name is read as what follows the name. -/
theorem step_name_of_endsName {marker : Position} {typed : List Char} {c : Char}
    (hname : IsName typed.reverse) (hend : endsName c = true) :
    step limit { p with mode := .name marker typed } here c =
      stepNamed p marker (String.ofList typed.reverse) c := by
  have hne : typed.isEmpty = false := by
    simpa using hname.1
  have hall : typed.all isNameCharacter = true := by
    rw [List.all_eq_true]
    exact fun d hd => (isNameCharacter_iff d).mpr (hname.2 d (List.mem_reverse.mpr hd))
  simp only [step, stepName, hend, hne, hall, Bool.not_false, Bool.and_self, if_true]
  rfl

/-- Once a good name ends, the reader may as well have known it. -/
theorem run_name_of_endsName {marker : Position} {typed : List Char} {c : Char}
    (hname : IsName typed.reverse) (hend : endsName c = true) (rest : List Char) :
    run limit { p with mode := .name marker typed } here (c :: rest) =
      run limit { p with mode := .named marker (String.ofList typed.reverse) } here
        (c :: rest) := by
  rw [run, step_name_of_endsName hname hend, run]
  rfl

/-- Blanks behind a name change nothing. -/
theorem run_named_gap {marker : Position} {kind : String} {gap : List Char} (h : IsGap gap) :
    run limit { p with mode := .named marker kind } here gap =
      .ok { p with mode := .named marker kind } := by
  refine run_eq_self fun c hc here => ?_
  have hblank : Text.isBlank c = true := List.all_eq_true.mp h c hc
  simp [step, stepNamed, hblank]

/-- Blanks behind an option list change nothing. -/
theorem run_optioned_gap {marker : Position} {kind : String} {options : Tag.Options}
    {gap : List Char} (h : IsGap gap) :
    run limit { p with mode := .optioned marker kind options } here gap =
      .ok { p with mode := .optioned marker kind options } := by
  refine run_eq_self fun c hc here => ?_
  have hblank : Text.isBlank c = true := List.all_eq_true.mp h c hc
  simp [step, stepOptioned, hblank]

/-- In an option list, a character that is no sign of a tag is typed. -/
theorem step_options_of_not_mem {marker : Position} {kind : String} {typed : List Char} {c : Char}
    (hc : c ∉ tagSigns) :
    step limit { p with mode := .options marker kind typed } here c =
      .ok { p with mode := .options marker kind (c :: typed) } := by
  simp only [tagSigns, List.mem_cons, List.not_mem_nil, or_false, not_or] at hc
  simp [step, stepOptions, isForbiddenInOptions, hc]

/-- An option list is typed character by character. -/
theorem run_options {marker : Position} {kind : String} {typed text : List Char}
    (h : IsOptionBody text) :
    run limit { p with mode := .options marker kind typed } here text =
      .ok { p with mode := .options marker kind (text.reverse ++ typed) } := by
  induction text generalizing typed here with
  | nil => rfl
  | cons c text ih =>
    rw [run_cons_of_ok (step_options_of_not_mem (h c List.mem_cons_self)),
      ih fun d hd => h d (List.mem_cons_of_mem c hd), List.reverse_cons, List.append_assoc]
    rfl

/-- At the closing parenthesis the options are read. -/
theorem run_optionList {marker : Position} {kind : String} {text : List Char}
    {options : Tag.Options} (hbody : IsOptionBody text) (hread : readOptions text = .ok options)
    (rest : List Char) :
    run limit { p with mode := .options marker kind [] } here (text ++ ')' :: rest) =
      run limit { p with mode := .optioned marker kind options }
        ((here.afterText text).after ')') rest := by
  have hclose : step limit { p with mode := .options marker kind (text.reverse ++ []) }
      (here.afterText text) ')' = .ok { p with mode := .optioned marker kind options } := by
    simp [step, stepOptions, hread]
  rw [run_append_of_ok (run_options hbody), run_cons_of_ok hclose]

/-- What follows a name opens the block, without options. -/
theorem run_named_bare {marker : Position} {kind : String} {gap : List Char} (hgap : IsGap gap) :
    run limit { p with mode := .named marker kind } here (gap ++ ['{']) =
      .ok (p.openBlock marker kind .empty) := by
  rw [run_append_of_ok (run_named_gap hgap)]
  rfl

/-- What follows a name opens the block, with the options in parentheses. -/
theorem run_named_optioned {marker : Position} {kind : String} {gap text behind : List Char}
    {options : Tag.Options} (hgap : IsGap gap) (htext : OptionText text options)
    (hbehind : IsGap behind) :
    run limit { p with mode := .named marker kind } here
        (gap ++ '(' :: (text ++ ')' :: (behind ++ ['{']))) =
      .ok (p.openBlock marker kind options) := by
  have hread : readOptions text = .ok options :=
    (readOptions_eq_ok_iff htext.isOptionBody).mpr htext
  have hopen : ∀ here : Position, step limit { p with mode := .named marker kind } here '(' =
      .ok { p with mode := .options marker kind [] } := fun _ => rfl
  rw [run_append_of_ok (run_named_gap hgap), run_cons_of_ok (hopen _),
    run_optionList htext.isOptionBody hread, run_append_of_ok (run_optioned_gap hbehind)]
  rfl

/-- What follows a name starts with a character that ends it. -/
theorem exists_cons_behind_name {gap : List Char} (h : IsGap gap) {stop : Char}
    (hstop : endsName stop = true) (rest : List Char) :
    ∃ c tail, gap ++ stop :: rest = c :: tail ∧ endsName c = true := by
  cases gap with
  | nil => exact ⟨stop, rest, rfl, hstop⟩
  | cons c gap =>
    refine ⟨c, gap ++ stop :: rest, rfl, ?_⟩
    rw [endsName, List.all_eq_true.mp h c List.mem_cons_self, Bool.or_true]

/-- In text, an `@` ends the run before it and starts a name, unless its tag lies too deep. -/
theorem step_text_marker (hmode : p.mode = .text)
    (hdepth : ((p.enclosing.length + 1 : Nat) : Int) ≤ limit) :
    step limit p here '@' = .ok { p.flush with mode := .name here [] } := by
  have hnot : ¬ limit < p.enclosing.length + 1 := by omega
  rw [step, hmode]
  exact if_neg hnot

/-- An `@` and a good name are read, and then what follows the name. -/
theorem run_marker_name (hmode : p.mode = .text)
    (hdepth : ((p.enclosing.length + 1 : Nat) : Int) ≤ limit) {name gap : List Char}
    (hname : IsName name) (hgap : IsGap gap) {stop : Char} (hstop : endsName stop = true)
    (rest : List Char) :
    run limit p here ('@' :: (name ++ (gap ++ stop :: rest))) =
      run limit { p.flush with mode := .named here (String.ofList name) }
        ((here.after '@').afterText name) (gap ++ stop :: rest) := by
  have htyped : IsName (name.reverse ++ []).reverse := by
    rwa [List.append_nil, List.reverse_reverse]
  obtain ⟨c, tail, hcons, hend⟩ := exists_cons_behind_name hgap hstop rest
  rw [run_cons_of_ok (step_text_marker hmode hdepth),
    run_append_of_ok (run_name fun d hd => not_endsName_of_isWordCharacter (hname.2 d hd)), hcons,
    run_name_of_endsName htyped hend, List.append_nil, List.reverse_reverse]

/-- A header opens a block, unless its tag lies too deep. -/
theorem run_header {header : List Char} {kind : String} {options : Tag.Options}
    (h : Header header kind options) (hmode : p.mode = .text)
    (hdepth : ((p.enclosing.length + 1 : Nat) : Int) ≤ limit) :
    run limit p here header = .ok (p.flush.openBlock here kind options) := by
  cases h with
  | bare hname hgap =>
    rw [List.append_assoc, run_marker_name hmode hdepth hname hgap rfl, run_named_bare hgap]
  | optioned hname hgap htext hbehind =>
    rw [List.append_assoc, run_marker_name hmode hdepth hname hgap rfl,
      run_named_optioned hgap htext hbehind]

end Markup

/-! ## Depth -/

/-- A bound on all is a bound on the greatest. -/
theorem foldr_max_le_iff {numbers : List Nat} {bound : Nat} :
    numbers.foldr max 0 ≤ bound ↔ ∀ n ∈ numbers, n ≤ bound := by
  induction numbers with
  | nil => simp
  | cons n numbers ih => rw [List.foldr_cons, max_le_iff, ih, List.forall_mem_cons]

namespace Tag

/-- A tag without content lies one deeper than its children. -/
theorem nesting_le_succ_iff {tag : Tag} (h : tag.content = "") {bound : Nat} :
    tag.nesting ≤ bound + 1 ↔ ∀ child ∈ tag.children, child.nesting ≤ bound := by
  rw [nesting, if_pos h, Nat.add_comm, Nat.add_le_add_iff_right, foldr_max_le_iff,
    List.forall_mem_map]

/-- A tag without content counts itself. -/
theorem one_le_nesting {tag : Tag} (h : tag.content = "") : 1 ≤ tag.nesting := by
  rw [nesting, if_pos h]
  omega

/-- A text leaf does not count. -/
theorem nesting_textLeaf {content : String} (h : content ≠ "") (position : Position) :
    (Tag.textLeaf content position).nesting = 0 := by
  rw [nesting, textLeaf, if_neg h]
  rfl

end Tag

/-! ## Items -/

namespace Grammar

/-- Below `depth` open tags, no tag of the items lies deeper than the limit. -/
def Fits (limit : Int) (depth : Nat) (items : List Item) : Prop :=
  ∀ tag, .tag tag ∈ items → ((depth + tag.nesting : Nat) : Int) ≤ limit

/-- The tags among the items are nodes of the block. -/
theorem mem_nodesAfter {items : List Item} {tag : Tag} (h : .tag tag ∈ items)
    (run : List (Char × Position)) : tag ∈ nodesAfter run items := by
  induction items generalizing run with
  | nil => cases h
  | cons item items ih =>
    cases item with
    | character c position =>
      exact ih (by simpa using h) _
    | tag other =>
      rw [nodesAfter, List.mem_append, List.mem_cons]
      rcases List.mem_cons.mp h with heq | hmem
      · exact .inr (.inl (Item.tag.inj heq))
      · exact .inr (.inr (ih hmem []))

/-- No items fit anywhere. -/
theorem Fits.nil (limit : Int) (depth : Nat) : Fits limit depth [] :=
  fun _ h => absurd h List.not_mem_nil

/-- When a tag fits, it may be opened. -/
theorem Fits.depth {limit : Int} {depth : Nat} {kind : String} {options : Tag.Options}
    {position : Position} {children : List Tag} {items : List Item}
    (h : Fits limit depth (.tag ⟨kind, options, "", position, children⟩ :: items)) :
    ((depth + 1 : Nat) : Int) ≤ limit := by
  have houter := h _ List.mem_cons_self
  set outer : Tag := ⟨kind, options, "", position, children⟩
  have hone : 1 ≤ outer.nesting := Tag.one_le_nesting rfl
  omega

/-- When a tag fits, so does what is inside it. -/
theorem Fits.inner {limit : Int} {depth : Nat} {kind : String} {options : Tag.Options}
    {position : Position} {inner items : List Item}
    (h : Fits limit depth (.tag ⟨kind, options, "", position, nodes inner⟩ :: items)) :
    Fits limit (depth + 1) inner := by
  intro tag htag
  have houter := h _ List.mem_cons_self
  set outer : Tag := ⟨kind, options, "", position, nodes inner⟩
  have hone : 1 ≤ outer.nesting := Tag.one_le_nesting rfl
  have hself : outer.nesting ≤ outer.nesting - 1 + 1 := by omega
  have hchild : tag.nesting ≤ outer.nesting - 1 :=
    (Tag.nesting_le_succ_iff rfl).mp hself tag (mem_nodesAfter htag [])
  omega

/-- The leaf of a run has content, since a run that is not blank has characters. -/
theorem exists_of_leaf?_eq_some {run : List (Char × Position)} {node : Tag}
    (h : leaf? run = some node) :
    ∃ content position, content ≠ "" ∧ node = Tag.textLeaf content position := by
  cases run with
  | nil => cases h
  | cons first rest =>
    obtain ⟨c, start⟩ := first
    simp only [leaf?] at h
    split at h
    · cases h
    · refine ⟨_, start, fun hempty => ?_, (Option.some.inj h).symm⟩
      exact Text.compressSpaces_ne_nil (List.cons_ne_nil c _)
        (by simpa using congrArg String.toList hempty)

/-- A node of a block is one of its tags or the leaf of a run. -/
theorem mem_of_mem_nodesAfter {items : List Item} {run : List (Char × Position)} {node : Tag}
    (h : node ∈ nodesAfter run items) :
    .tag node ∈ items ∨ ∃ run, leaf? run = some node := by
  induction items generalizing run with
  | nil =>
    rw [nodesAfter, Option.mem_toList] at h
    exact .inr ⟨run, h⟩
  | cons item items ih =>
    cases item with
    | character c position =>
      rw [nodesAfter] at h
      exact (ih h).imp_left (List.mem_cons_of_mem _)
    | tag tag =>
      rw [nodesAfter, List.mem_append, List.mem_cons, Option.mem_toList] at h
      rcases h with hleaf | rfl | hmem
      · exact .inr ⟨run, hleaf⟩
      · exact .inl List.mem_cons_self
      · exact (ih hmem).imp_left (List.mem_cons_of_mem _)

/-- A bound on the tags of a block is a bound on its nodes, since leaves do not count. -/
theorem nesting_le_of_mem_nodes {items : List Item} {bound : Nat}
    (h : ∀ tag, .tag tag ∈ items → tag.nesting ≤ bound) {node : Tag} (hnode : node ∈ nodes items) :
    node.nesting ≤ bound := by
  rcases mem_of_mem_nodesAfter hnode with htag | ⟨run, hleaf⟩
  · exact h node htag
  · obtain ⟨content, position, hcontent, rfl⟩ := exists_of_leaf?_eq_some hleaf
    rw [Tag.nesting_textLeaf hcontent]
    exact Nat.zero_le bound

/-- A tag fits when it may be opened and what is inside it fits. -/
theorem Fits.cons_tag {limit : Int} {depth : Nat} {kind : String} {options : Tag.Options}
    {position : Position} {inner items : List Item} (hdepth : ((depth + 1 : Nat) : Int) ≤ limit)
    (hinner : Fits limit (depth + 1) inner) (hitems : Fits limit depth items) :
    Fits limit depth (.tag ⟨kind, options, "", position, nodes inner⟩ :: items) := by
  intro tag htag
  rcases List.mem_cons.mp htag with heq | hmem
  · have hbound : ∀ tag, .tag tag ∈ inner → tag.nesting ≤ limit.toNat - (depth + 1) := by
      intro tag htag
      have := hinner tag htag
      omega
    have hnesting : tag.nesting ≤ limit.toNat - (depth + 1) + 1 := by
      rw [Item.tag.inj heq]
      exact (Tag.nesting_le_succ_iff rfl).mpr fun child hchild =>
        nesting_le_of_mem_nodes hbound hchild
    omega
  · exact hitems tag hmem

/-- A character fits anywhere. -/
theorem Fits.cons_character {limit : Int} {depth : Nat} {items : List Item}
    (h : Fits limit depth items) (c : Char) (position : Position) :
    Fits limit depth (.character c position :: items) :=
  fun tag htag => h tag (by simpa using htag)

/-- When items fit, so do those behind the first. -/
theorem Fits.tail {limit : Int} {depth : Nat} {item : Item} {items : List Item}
    (h : Fits limit depth (item :: items)) : Fits limit depth items :=
  fun tag htag => h tag (List.mem_cons_of_mem item htag)

end Grammar

namespace Markup

open Grammar

variable {limit : Int} {p q : Progress} {here : Position}

/-- Takes one item: a character is collected, a tag ends the run before it and is a node. -/
def Progress.absorb (p : Progress) : Item → Progress
  | .character c position => p.collect c position
  | .tag tag =>
    { mode := .text, pending := .empty, nodes := tag :: p.flushedNodes, enclosing := p.enclosing }

/-- Absorbing items leaves the open tags alone. -/
theorem enclosing_foldl_absorb (p : Progress) (items : List Item) :
    (items.foldl Progress.absorb p).enclosing = p.enclosing := by
  induction items generalizing p with
  | nil => rfl
  | cons item items ih =>
    rw [List.foldl_cons, ih]
    cases item <;> rfl

/-- Absorbing items leaves the reader in text. -/
theorem mode_foldl_absorb {p : Progress} (hmode : p.mode = .text) (items : List Item) :
    (items.foldl Progress.absorb p).mode = .text := by
  induction items generalizing p with
  | nil => exact hmode
  | cons item items ih =>
    rw [List.foldl_cons]
    cases item <;> exact ih rfl

/-- A run of characters as the reader collects it. -/
def pendingOf (run : List (Char × Position)) : PendingText :=
  ⟨(run.map Prod.fst).reverse, run.head?.map Prod.snd⟩

/-- A collected run amounts to the leaf of the run. -/
theorem leaf?_pendingOf (run : List (Char × Position)) :
    (pendingOf run).leaf? = Grammar.leaf? run := by
  cases run with
  | nil => rfl
  | cons first rest => simp [pendingOf, PendingText.leaf?, PendingText.run, Grammar.leaf?]

/-- Collecting a character makes the run longer by it. -/
theorem add_pendingOf (run : List (Char × Position)) (c : Char) (position : Position) :
    (pendingOf run).add [c] position = pendingOf (run ++ [(c, position)]) := by
  cases run with
  | nil => rfl
  | cons first rest => simp [pendingOf, PendingText.add]

/-- The nodes of a block are those of its items, the run before them included. -/
theorem flushedNodes_foldl_absorb {p : Progress} {run : List (Char × Position)}
    (hpending : p.pending = pendingOf run) (items : List Item) :
    (items.foldl Progress.absorb p).flushedNodes = (nodesAfter run items).reverse ++ p.nodes := by
  induction items generalizing p run with
  | nil =>
    rw [List.foldl_nil, Progress.flushedNodes, hpending, PendingText.fst_flush, leaf?_pendingOf,
      nodesAfter]
    cases Grammar.leaf? run <;> rfl
  | cons item items ih =>
    rw [List.foldl_cons]
    cases item with
    | character c position =>
      have hnext : (p.absorb (.character c position)).pending =
          pendingOf (run ++ [(c, position)]) := by
        rw [Progress.absorb, Progress.collect, hpending, add_pendingOf]
      rw [ih hnext, nodesAfter]
      rfl
    | tag tag =>
      have hnext : (p.absorb (.tag tag)).pending = pendingOf [] := rfl
      rw [ih hnext, nodesAfter, Progress.absorb, Progress.flushedNodes, hpending,
        PendingText.fst_flush, leaf?_pendingOf]
      cases Grammar.leaf? run <;> simp

/-- The nodes of a block that starts without pending text. -/
theorem flushedNodes_foldl_absorb_of_empty {p : Progress} (hpending : p.pending = .empty)
    (items : List Item) :
    (items.foldl Progress.absorb p).flushedNodes = (nodes items).reverse ++ p.nodes :=
  flushedNodes_foldl_absorb hpending items

/-- The brace that closes a block makes its tag a node of the enclosing block. -/
theorem step_text_close {kind : String} {options : Tag.Options} {marker : Position}
    {earlier : List Tag} {outer : List OpenTag} (hmode : p.mode = .text)
    (henclosing : p.enclosing = ⟨kind, options, marker, earlier⟩ :: outer) :
    step limit p here '}' =
      .ok { mode := .text, pending := .empty,
            nodes := ⟨kind, options, "", marker, p.flushedNodes.reverse⟩ :: earlier,
            enclosing := outer } := by
  rw [step, hmode]
  show closeBlock p = _
  rw [closeBlock, henclosing]
  rfl

/-- A whole tag is absorbed. -/
theorem run_tag {header body : List Char} {kind : String} {options : Tag.Options}
    {inner : List Item} (hheader : Header header kind options) (hmode : p.mode = .text)
    (hdepth : ((p.enclosing.length + 1 : Nat) : Int) ≤ limit)
    (hbody : run limit (p.flush.openBlock here kind options) (here.afterText header) body =
      .ok (inner.foldl Progress.absorb (p.flush.openBlock here kind options))) :
    run limit p here (header ++ body ++ ['}']) =
      .ok (p.absorb (.tag ⟨kind, options, "", here, nodes inner⟩)) := by
  set opened := p.flush.openBlock here kind options with hopened
  have hnodes : (inner.foldl Progress.absorb opened).flushedNodes.reverse = nodes inner := by
    rw [flushedNodes_foldl_absorb_of_empty rfl, hopened, Progress.openBlock, List.append_nil,
      List.reverse_reverse]
  rw [List.append_assoc, run_append_of_ok (run_header hheader hmode hdepth),
    run_append_of_ok hbody, run_cons_of_ok (step_text_close (mode_foldl_absorb rfl inner)
      (enclosing_foldl_absorb opened inner)), hnodes]
  rfl

/-- The reader absorbs whatever the grammar spells, if it fits under the limit. -/
theorem run_items {text : List Char} {items : List Item} (h : Items here text items)
    (hmode : p.mode = .text) (hfits : Fits limit p.enclosing.length items) :
    run limit p here text = .ok (items.foldl Progress.absorb p) := by
  induction h generalizing p with
  | nil here => rfl
  | unit hunit hrest ih =>
    rw [run_append_of_ok (run_unit hunit hmode), List.foldl_cons]
    exact ih rfl hfits.tail
  | tag hheader hbody hrest ihbody ihrest =>
    rw [run_append_of_ok (run_tag hheader hmode hfits.depth (ihbody rfl hfits.inner)),
      List.foldl_cons]
    exact ihrest rfl hfits.tail

end Markup

end AtMarkup
