import Mathlib
import AtMarkup.Proofs.Grammar
import AtMarkup.Proofs.LineBreaks
import AtMarkup.Proofs.WellFormed

/-!
# Layouts of a tree

A tree can be written down in many ways, since the grammar lets blanks stand in many places. All
of them are given here by one relation, with no reader in sight:

* the characters of a text leaf are written with a backslash in front of `\`, `@` and `}`, and a
  line break as a backslash and the letter n (`quote`);
* an option is written as its key, a colon and its value in quotes, with any blanks around the
  three (`Entry`), and a list of them with commas between (`Entries`), in parentheses that may be
  left out when there is no option (`OptionBlock`);
* the nodes of a block are written one behind the other (`Layout behindText siblings text`), with
  any blanks in front of a tag and before the end of the block. Only behind a text leaf there are
  none, for they would be text.

Every list of nodes has a layout (`exists_layout`). A layout of sound nodes is still one when its
line ends are unified (`Layout.unified`), since carriage returns can only stand among the blanks.
-/

namespace AtMarkup.Markup

open Grammar

/-! ## Written text -/

/-- A character as it is written in text to stand for itself. -/
def quoteCharacter (c : Char) : List Char :=
  if c = '\n' then ['\\', 'n'] else if c ∈ ['\\', '@', '}'] then ['\\', c] else [c]

/-- A text as it is written to stand for itself. -/
def quote (text : List Char) : List Char :=
  text.flatMap quoteCharacter

/-- A written character is a unit of text that stands for it. -/
theorem textUnit_quoteCharacter (c : Char) : TextUnit (quoteCharacter c) c := by
  unfold quoteCharacter
  split
  · rename_i hbreak
    rw [hbreak]
    exact .escapedBreak
  · rename_i hbreak
    split
    · rename_i hsign
      refine .escaped fun hmem => ?_
      simp only [List.mem_cons, List.not_mem_nil, or_false] at hsign hmem
      rcases hmem with rfl | rfl
      · exact absurd hsign (by decide)
      · exact hbreak rfl
    · rename_i hsign
      refine .plain fun hmem => ?_
      simp only [List.mem_cons, List.not_mem_nil, or_false] at hsign hmem
      tauto

/-- Writing a text brings no carriage return into it. -/
theorem not_mem_quote {text : List Char} (h : '\r' ∉ text) : '\r' ∉ quote text := by
  intro hmem
  obtain ⟨c, hc, hmem⟩ := List.mem_flatMap.mp hmem
  have hne : '\r' ≠ c := fun heq => h (heq ▸ hc)
  unfold quoteCharacter at hmem
  split at hmem
  · exact absurd hmem (by decide)
  · split at hmem <;> simp [hne] at hmem

/-! ## Written options -/

/-- An option, with blanks around its key, its colon and its quoted value. -/
inductive Entry (entry : String × String) : List Char → Prop where
  | mk {before behind ahead after : List Char} (hbefore : IsGap before) (hbehind : IsGap behind)
      (hahead : IsGap ahead) (hafter : IsGap after) :
      Entry entry (before ++ entry.1.toList ++ behind ++
        ':' :: (ahead ++ '"' :: (entry.2.toList ++ '"' :: after)))

/-- Options with commas between them, one at least. -/
inductive Entries : List (String × String) → List Char → Prop where
  | last {entry : String × String} {text : List Char} (h : Entry entry text) :
      Entries [entry] text
  | cons {entry : String × String} {entries : List (String × String)} {text rest : List Char}
      (h : Entry entry text) (hrest : Entries entries rest) :
      Entries (entry :: entries) (text ++ ',' :: rest)

/-- The options of a tag in parentheses, with blanks behind. No options need no parentheses. -/
inductive OptionBlock : List (String × String) → List Char → Prop where
  | none : OptionBlock [] []
  | blank {inner after : List Char} (hinner : IsGap inner) (hafter : IsGap after) :
      OptionBlock [] ('(' :: (inner ++ ')' :: after))
  | list {entries : List (String × String)} {text after : List Char} (h : Entries entries text)
      (hafter : IsGap after) : OptionBlock entries ('(' :: (text ++ ')' :: after))

/-! ## Written nodes -/

/-- Blanks between nodes, which cannot stand behind a text leaf. -/
def IsFreeGap (behindText : Bool) (gap : List Char) : Prop :=
  IsGap gap ∧ (behindText = true → gap = [])

/-- The nodes of a block written one behind the other, where `behindText` tells whether a text leaf
stands in front of them. Where the nodes were read before does not matter. -/
inductive Layout : Bool → List Tag → List Char → Prop where
  | nil {behindText : Bool} {gap : List Char} (hgap : IsFreeGap behindText gap) :
      Layout behindText [] gap
  | leaf {behindText : Bool} {leaf : Tag} {siblings : List Tag} {rest : List Char}
      (hcontent : leaf.HasContent) (hrest : Layout true siblings rest) :
      Layout behindText (leaf :: siblings) (quote leaf.content.toList ++ rest)
  | tag {behindText : Bool} {tag : Tag} {siblings : List Tag}
      {gap behind block body rest : List Char} (hcontent : ¬ tag.HasContent)
      (hgap : IsFreeGap behindText gap) (hbehind : IsGap behind)
      (hblock : OptionBlock tag.options.entries block) (hbody : Layout false tag.children body)
      (hrest : Layout false siblings rest) :
      Layout behindText (tag :: siblings)
        (gap ++ '@' :: (tag.kind.toList ++ (behind ++ (block ++ '{' :: (body ++ '}' :: rest)))))

/-- Nothing is blank. -/
theorem isGap_nil : IsGap [] := rfl

/-- No blanks may stand anywhere. -/
theorem isFreeGap_nil (behindText : Bool) : IsFreeGap behindText [] :=
  ⟨rfl, fun _ => rfl⟩

/-- Some options can be written. -/
theorem exists_entries (entry : String × String) (entries : List (String × String)) :
    ∃ text, Entries (entry :: entries) text := by
  induction entries generalizing entry with
  | nil => exact ⟨_, .last (.mk isGap_nil isGap_nil isGap_nil isGap_nil)⟩
  | cons next entries ih =>
    obtain ⟨rest, hrest⟩ := ih next
    exact ⟨_, .cons (.mk isGap_nil isGap_nil isGap_nil isGap_nil) hrest⟩

/-- Any options can be written as a block. -/
theorem exists_optionBlock (entries : List (String × String)) :
    ∃ block, OptionBlock entries block := by
  cases entries with
  | nil => exact ⟨[], .none⟩
  | cons entry entries =>
    obtain ⟨text, htext⟩ := exists_entries entry entries
    exact ⟨_, .list htext isGap_nil⟩

/-- Siblings can be written behind anything, when their blocks can be. -/
theorem exists_layout_of_children {siblings : List Tag}
    (h : ∀ tag ∈ siblings, ∃ body, Layout false tag.children body) (behindText : Bool) :
    ∃ text, Layout behindText siblings text := by
  induction siblings generalizing behindText with
  | nil => exact ⟨[], .nil (isFreeGap_nil behindText)⟩
  | cons tag siblings ih =>
    have hsiblings := ih fun tag htag => h tag (List.mem_cons_of_mem _ htag)
    by_cases hcontent : tag.HasContent
    · obtain ⟨rest, hrest⟩ := hsiblings true
      exact ⟨_, .leaf hcontent hrest⟩
    · obtain ⟨rest, hrest⟩ := hsiblings false
      obtain ⟨body, hbody⟩ := h tag List.mem_cons_self
      obtain ⟨block, hblock⟩ := exists_optionBlock tag.options.entries
      exact ⟨_, .tag hcontent (isFreeGap_nil behindText) isGap_nil hblock hbody hrest⟩

/-- The block of any tag can be written. -/
theorem exists_layout_children (tag : Tag) : ∃ body, Layout false tag.children body := by
  induction tag using Tag.induction with
  | node tag ih => exact exists_layout_of_children ih false

/-- Every list of nodes can be written. -/
theorem exists_layout (siblings : List Tag) : ∃ text, Layout false siblings text :=
  exists_layout_of_children (fun tag _ => exists_layout_children tag) false

/-! ## Line ends -/

/-- Blanks are blanks, however their lines end. -/
theorem isGap_unifyLineBreaks {gap : List Char} (h : IsGap gap) :
    IsGap (Text.unifyLineBreaks gap) := by
  rw [IsGap, Text.isBlankText_unifyLineBreaks]
  exact h

/-- Free blanks stay free. -/
theorem IsFreeGap.unified {behindText : Bool} {gap : List Char} (h : IsFreeGap behindText gap) :
    IsFreeGap behindText (Text.unifyLineBreaks gap) := by
  refine ⟨isGap_unifyLineBreaks h.1, fun hbehind => ?_⟩
  rw [h.2 hbehind, Text.unifyLineBreaks_nil]

/-- A character of a name or a key is no line end. -/
theorem not_mem_of_isKey {key : List Char} (h : ∀ c ∈ key, IsKeyCharacter c) :
    '\r' ∉ key ∧ '\n' ∉ key := by
  constructor <;> intro hmem <;> exact absurd (h _ hmem).toNat_cases (by decide)

/-- An option with a key and no carriage return in its value is still written when line ends are
unified. -/
theorem Entry.unified {entry : String × String} {text : List Char} (h : Entry entry text)
    (hkey : IsKey entry.1.toList) (hvalue : '\r' ∉ entry.2.toList) :
    Entry entry (Text.unifyLineBreaks text) := by
  obtain @⟨before, behind, ahead, after, hbefore, hbehind, hahead, hafter⟩ := h
  obtain ⟨hreturn, hfeed⟩ := not_mem_of_isKey hkey.2
  have htext : Text.unifyLineBreaks (before ++ entry.1.toList ++ behind ++
        ':' :: (ahead ++ '"' :: (entry.2.toList ++ '"' :: after))) =
      Text.unifyLineBreaks before ++ entry.1.toList ++ Text.unifyLineBreaks behind ++
        ':' :: (Text.unifyLineBreaks ahead ++ '"' :: (entry.2.toList ++
          '"' :: Text.unifyLineBreaks after)) := by
    rw [Text.unifyLineBreaks_append_cons _ (by decide), List.append_assoc,
      Text.unifyLineBreaks_append before (Text.head?_append_ne hkey.1 hfeed behind),
      Text.unifyLineBreaks_append_of_not_mem hreturn,
      Text.unifyLineBreaks_append_cons ahead (by decide),
      Text.unifyLineBreaks_append_of_not_mem hvalue, Text.unifyLineBreaks_cons (by decide)]
    simp only [List.append_assoc]
  rw [htext]
  exact .mk (isGap_unifyLineBreaks hbefore) (isGap_unifyLineBreaks hbehind)
    (isGap_unifyLineBreaks hahead) (isGap_unifyLineBreaks hafter)

/-- A list of such options is still written. -/
theorem Entries.unified {entries : List (String × String)} {text : List Char}
    (h : Entries entries text) (hkeys : ∀ entry ∈ entries, IsKey entry.1.toList)
    (hvalues : ∀ entry ∈ entries, '\r' ∉ entry.2.toList) :
    Entries entries (Text.unifyLineBreaks text) := by
  induction h with
  | last h =>
    exact .last (h.unified (hkeys _ List.mem_cons_self) (hvalues _ List.mem_cons_self))
  | cons h hrest ih =>
    rw [Text.unifyLineBreaks_append_cons _ (by decide)]
    refine .cons (h.unified (hkeys _ List.mem_cons_self) (hvalues _ List.mem_cons_self)) (ih ?_ ?_)
    · exact fun entry hentry => hkeys entry (List.mem_cons_of_mem _ hentry)
    · exact fun entry hentry => hvalues entry (List.mem_cons_of_mem _ hentry)

/-- A block of such options is still written. -/
theorem OptionBlock.unified {entries : List (String × String)} {block : List Char}
    (h : OptionBlock entries block) (hkeys : ∀ entry ∈ entries, IsKey entry.1.toList)
    (hvalues : ∀ entry ∈ entries, '\r' ∉ entry.2.toList) :
    OptionBlock entries (Text.unifyLineBreaks block) := by
  cases h with
  | none => exact .none
  | blank hinner hafter =>
    rw [Text.unifyLineBreaks_cons (by decide), Text.unifyLineBreaks_append_cons _ (by decide)]
    exact .blank (isGap_unifyLineBreaks hinner) (isGap_unifyLineBreaks hafter)
  | list htext hafter =>
    rw [Text.unifyLineBreaks_cons (by decide), Text.unifyLineBreaks_append_cons _ (by decide)]
    exact .list (htext.unified hkeys hvalues) (isGap_unifyLineBreaks hafter)

/-- An option block does not start with a line feed. -/
theorem OptionBlock.head?_append_ne {entries : List (String × String)} {block : List Char}
    (h : OptionBlock entries block) (rest : List Char) :
    (block ++ '{' :: rest).head? ≠ some '\n' := by
  cases h <;> simp

/-- Sound nodes are still written when line ends are unified. -/
theorem Layout.unified {behindText : Bool} {siblings : List Tag} {text : List Char}
    (h : Layout behindText siblings text)
    (hsound : ∀ tag ∈ siblings, ∀ node ∈ tag.walk, node.IsSound) :
    Layout behindText siblings (Text.unifyLineBreaks text) := by
  induction h with
  | nil hgap => exact .nil hgap.unified
  | @leaf behindText leaf siblings rest hcontent hrest ih =>
    obtain ⟨hleaf, hsiblings⟩ := List.forall_mem_cons.mp hsound
    have hcompressed := ((hleaf leaf leaf.mem_walk_self).leaf hcontent).compressed
    have hreturn : '\r' ∉ leaf.content.toList :=
      fun hmem => hcompressed.1 '\r' hmem (by decide)
    rw [Text.unifyLineBreaks_append_of_not_mem (not_mem_quote hreturn)]
    exact .leaf hcontent (ih hsiblings)
  | @tag behindText tag siblings gap behind block body rest hcontent hgap hbehind hblock hbody hrest
      ihbody ihrest =>
    obtain ⟨htag, hsiblings⟩ := List.forall_mem_cons.mp hsound
    have hself := htag tag tag.mem_walk_self
    have hchildren : ∀ child ∈ tag.children, ∀ node ∈ child.walk, node.IsSound :=
      fun child hchild node hnode => htag node (Tag.mem_walk_of_mem_children hchild hnode)
    have hreturn : '\r' ∉ tag.kind.toList :=
      (not_mem_of_isKey fun c hc => .inl (hself.kind.2 c hc)).1
    rw [Text.unifyLineBreaks_append_cons gap (by decide),
      Text.unifyLineBreaks_append_of_not_mem hreturn,
      Text.unifyLineBreaks_append behind (hblock.head?_append_ne _),
      Text.unifyLineBreaks_append_cons block (by decide),
      Text.unifyLineBreaks_append_cons body (by decide)]
    exact .tag hcontent hgap.unified (isGap_unifyLineBreaks hbehind)
      (hblock.unified hself.keys fun entry hentry => (hself.values entry hentry).2)
      (ihbody hchildren) (ihrest hsiblings)

end AtMarkup.Markup
