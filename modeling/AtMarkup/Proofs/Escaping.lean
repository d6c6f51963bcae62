import Mathlib
import AtMarkup.Html.Render
import AtMarkup.Proofs.OutputTable
import AtMarkup.Proofs.WellFormed

/-!
# Escaped output admits no injection

With escaping, the output of a document is read by any scanner of HTML as the tree has it, and not
otherwise.

* For every tree the escaped output is the tokens of the table, written down (`toList_render`).
* The tokens of a tree that was read are clean (`isClean_of_mem_tokens`): the only text that goes
  into a tag is option values, which hold no double quote.
* So the scanner finds these tokens again and nothing else (`scan_render_of_parse`). No character
  of a text and no option value can open, close or alter a tag.

The rules of the document play no part in this. What the reader guarantees is enough.
-/

namespace AtMarkup.Html

/-! ## The output as written tokens -/

/-- The break element is a token. -/
theorem toList_lineBreak : lineBreak.toList = write breakToken := by
  simp [lineBreak, write, breakToken]

/-- Escaping brings no line break into a text. -/
theorem not_mem_escapeCharacter_of_ne {c : Char} (h : c ≠ '\n') : '\n' ∉ escapeCharacter c := by
  unfold escapeCharacter
  split_ifs <;> simp [Ne.symm h]

/-- Text without line breaks is left as it is. -/
theorem flatMap_breakCharacter {text : List Char} (h : '\n' ∉ text) :
    text.flatMap breakCharacter = text := by
  induction text with
  | nil => rfl
  | cons c text ih =>
    rw [List.mem_cons, not_or] at h
    rw [List.flatMap_cons, ih h.2, breakCharacter, if_neg (Ne.symm h.1), List.singleton_append]

/-- A character of a text is written as its token. -/
theorem flatMap_breakCharacter_escapeCharacter (c : Char) :
    (escapeCharacter c).flatMap breakCharacter = write (textToken c) := by
  unfold textToken
  split
  · rename_i hbreak
    have hself : escapeCharacter c = ['\n'] := by
      rw [hbreak]
      rfl
    rw [hself, List.flatMap_singleton, breakCharacter, if_pos rfl, toList_lineBreak]
  · rename_i hbreak
    rw [flatMap_breakCharacter (not_mem_escapeCharacter_of_ne hbreak), write, escape]
    simp

/-- A text is written as the tokens of its characters. -/
theorem toList_textLeaf (content : String) :
    (textLeaf true content).toList = (content.toList.map textToken).flatMap write := by
  rw [textLeaf, if_pos rfl, withBreaks, escape, String.toList_ofList, String.toList_ofList,
    List.flatMap_assoc, List.flatMap_map]
  exact List.flatMap_congr fun c _ => flatMap_breakCharacter_escapeCharacter c

/-- An image is written as its token. -/
theorem toList_image (options : Tag.Options) :
    (image options).toList = write (imageToken options) := by
  simp [image, write, imageToken, writeAttribute]

/-- The parts of a font's style are those of the table. -/
theorem fontStyle_eq (options : Tag.Options) : fontStyle options = fontValue options := by
  have hpart (option before after : String) :
      styleOption options option before after =
        (options.get? option).elim "" fun value => before ++ value ++ after := by
    unfold styleOption
    cases options.get? option <;> rfl
  simp [fontStyle, hpart, fontValue, fontParts, String.join, String.append_assoc]

/-- What stands around the children of a tag is written as the elements of its row. -/
theorem toList_shell (kind : Option Tag.Kind) (options : Tag.Options) :
    (shell kind options).opening.toList = write (wrapper kind options).element.opening ∧
    (shell kind options).closing.toList = write (wrapper kind options).element.closing ∧
    (shell kind options).itemOpening.toList =
      ((wrapper kind options).item.map Element.opening).toList.flatMap write ∧
    (shell kind options).itemClosing.toList =
      ((wrapper kind options).item.map Element.closing).toList.flatMap write := by
  cases kind with
  | none => simp [shell, wrapper, write, Element.opening, Element.closing]
  | some kind =>
    cases kind
    case list =>
      simp only [shell, wrapper, beq_iff_eq]
      split <;> simp [write, Element.opening, Element.closing]
    case font =>
      simp [shell, wrapper, write, Element.opening, Element.closing, writeAttribute, fontStyle_eq]
    all_goals simp [shell, wrapper, write, Element.opening, Element.closing, writeAttribute]

/-- A tag that is neither a text nor an image is its shell around its children. -/
theorem render_element {escaped : Bool} {tag : Tag} {kind : Option Tag.Kind}
    (h : Tag.Kind.ofName? tag.kind = kind) (htext : kind ≠ some .text)
    (himage : kind ≠ some .image) :
    render escaped tag = (shell kind tag.options).opening ++
      String.join (tag.children.map fun child => (shell kind tag.options).itemOpening ++
        render escaped child ++ (shell kind tag.options).itemClosing) ++
      (shell kind tag.options).closing := by
  rw [render, h]
  split
  · exact absurd rfl htext
  · exact absurd rfl himage
  · rfl

/-- The escaped output of a tree is its tokens, written down. -/
theorem toList_render (tag : Tag) : (render true tag).toList = (tokens tag).flatMap write := by
  induction tag using Tag.induction with
  | node tag ih =>
    by_cases htext : Tag.Kind.ofName? tag.kind = some .text
    · rw [render, htext, tokens_text htext]
      exact toList_textLeaf tag.content
    by_cases himage : Tag.Kind.ofName? tag.kind = some .image
    · rw [render, himage, tokens_image himage, List.flatMap_singleton]
      exact toList_image tag.options
    obtain ⟨hopening, hclosing, hitemOpening, hitemClosing⟩ :=
      toList_shell (Tag.Kind.ofName? tag.kind) tag.options
    have hchildren : (tag.children.map fun child =>
          (shell (Tag.Kind.ofName? tag.kind) tag.options).itemOpening ++ render true child ++
            (shell (Tag.Kind.ofName? tag.kind) tag.options).itemClosing).flatMap String.toList =
        (tag.children.flatMap fun child =>
          (wrapper (Tag.Kind.ofName? tag.kind) tag.options).aroundItem (tokens child)).flatMap
            write := by
      rw [List.flatMap_map, List.flatMap_assoc]
      refine List.flatMap_congr fun child hchild => ?_
      rw [String.toList_append, String.toList_append, hitemOpening, hitemClosing, ih child hchild,
        Wrapper.aroundItem, List.flatMap_append, List.flatMap_append]
    rw [render_element rfl htext himage, tokens_element rfl htext himage, String.toList_append,
      String.toList_append, String.toList_join, hopening, hclosing, hchildren, List.flatMap_cons,
      List.flatMap_append, List.flatMap_singleton, List.append_assoc]

/-! ## Clean tokens -/

/-- No value of these options holds a double quote. -/
def HasCleanValues (options : Tag.Options) : Prop :=
  ∀ entry ∈ options.entries, '"' ∉ entry.2.toList

/-- Sound nodes have such options. -/
theorem hasCleanValues_of_isSound {node : Tag} (h : node.IsSound) : HasCleanValues node.options :=
  fun entry hentry hmem => (h.values entry hentry).1 '"' hmem (by decide)

/-- A value that is looked up is the value of an entry. -/
theorem exists_of_get?_eq_some {options : Tag.Options} {name value : String}
    (h : options.get? name = some value) : ∃ entry ∈ options.entries, entry.2 = value := by
  obtain ⟨entry, hfind, hvalue⟩ := Option.map_eq_some_iff.mp h
  exact ⟨entry, List.mem_of_find?_eq_some hfind, hvalue⟩

/-- A value that is looked up holds no double quote. -/
theorem not_mem_of_get?_eq_some {options : Tag.Options} (h : HasCleanValues options)
    {name value : String} (hvalue : options.get? name = some value) : '"' ∉ value.toList := by
  obtain ⟨entry, hentry, rfl⟩ := exists_of_get?_eq_some hvalue
  exact h entry hentry

/-- Nor does it if it may be a default, and the default holds none. -/
theorem not_mem_getD {options : Tag.Options} (h : HasCleanValues options) (name : String)
    (default : String) (hdefault : '"' ∉ default.toList) :
    '"' ∉ (options.getD name default).toList := by
  unfold Tag.Options.getD
  cases hvalue : options.get? name with
  | none => exact hdefault
  | some value => exact not_mem_of_get?_eq_some h hvalue

/-- The style of a font holds no double quote. -/
theorem not_mem_fontValue {options : Tag.Options} (h : HasCleanValues options) :
    '"' ∉ (fontValue options).toList := by
  rw [fontValue, String.toList_join, List.mem_flatMap]
  rintro ⟨text, htext, hmem⟩
  obtain ⟨part, hpart, rfl⟩ := List.mem_map.mp htext
  cases hvalue : options.get? part.1 with
  | none => simp [hvalue] at hmem
  | some value =>
    have hclean := not_mem_of_get?_eq_some h hvalue
    simp only [fontParts, List.mem_cons, List.not_mem_nil, or_false] at hpart
    rcases hpart with rfl | rfl | rfl <;> simp [hvalue, hclean] at hmem

/-- The elements of the table have names. -/
theorem isTagName_wrapper (kind : Option Tag.Kind) (options : Tag.Options) :
    IsTagName (wrapper kind options).element.name ∧
      ∀ item ∈ (wrapper kind options).item, IsTagName item.name := by
  have hlist (ordered : Prop) [Decidable ordered] :
      IsTagName (if ordered then "ol" else "ul") := by
    split <;> simp [IsTagName, isNameLetter]
  cases kind with
  | none => simp [wrapper, IsTagName, isNameLetter]
  | some kind =>
    cases kind
    case list => exact ⟨hlist _, by simp [wrapper, IsTagName, isNameLetter]⟩
    all_goals simp [wrapper, IsTagName, isNameLetter]

/-- The attributes of the table are clean, since the options' values are. -/
theorem isCleanAttribute_wrapper (kind : Option Tag.Kind) {options : Tag.Options}
    (h : HasCleanValues options) :
    (∀ pair ∈ (wrapper kind options).element.attributes, IsCleanAttribute pair) ∧
      ∀ item ∈ (wrapper kind options).item, ∀ pair ∈ item.attributes, IsCleanAttribute pair := by
  have halignment := not_mem_getD h "alignment" "left" (by simp)
  have hlevel := not_mem_getD h "level" "1" (by simp)
  have huri := not_mem_getD h "uri" "" (by simp)
  have hstyle := not_mem_fontValue h
  cases kind with
  | none => simp [wrapper]
  | some kind =>
    cases kind <;>
      simp [wrapper, IsCleanAttribute, IsTagName, isNameLetter, halignment, hlevel, huri, hstyle]

/-- The elements of the table are clean, since the options' values are. -/
theorem isClean_wrapper (kind : Option Tag.Kind) {options : Tag.Options}
    (h : HasCleanValues options) :
    ((wrapper kind options).element.opening.IsClean ∧
      (wrapper kind options).element.closing.IsClean) ∧
      ∀ item ∈ (wrapper kind options).item, item.opening.IsClean ∧ item.closing.IsClean := by
  obtain ⟨hvoid, hitemVoid⟩ := wrapper_not_void kind options
  obtain ⟨hname, hitemName⟩ := isTagName_wrapper kind options
  obtain ⟨hattributes, hitemAttributes⟩ := isCleanAttribute_wrapper kind h
  exact ⟨⟨⟨hname, hvoid, hattributes⟩, hname⟩, fun item hitem =>
    ⟨⟨hitemName item hitem, hitemVoid item hitem, hitemAttributes item hitem⟩,
      hitemName item hitem⟩⟩

/-- The token of an image is clean. -/
theorem isClean_imageToken {options : Tag.Options} (h : HasCleanValues options) :
    (imageToken options).IsClean := by
  have huri := not_mem_getD h "uri" "" (by simp)
  simp [imageToken, Token.IsClean, IsCleanAttribute, IsTagName, isNameLetter, voidNames, huri]

/-- The token of a character is clean, whatever the character. -/
theorem isClean_textToken (c : Char) : (textToken c).IsClean := by
  unfold textToken
  split
  · simp [breakToken, Token.IsClean, IsTagName, isNameLetter, voidNames]
  · simp [Token.IsClean]

/-- The tokens of a tree are clean when the values of all its options are. -/
theorem isClean_of_mem_tokens {root : Tag} (h : ∀ node ∈ root.walk, HasCleanValues node.options) :
    ∀ token ∈ tokens root, token.IsClean := by
  induction root using Tag.induction with
  | node root ih =>
    have hself : HasCleanValues root.options := h root root.mem_walk_self
    by_cases htext : Tag.Kind.ofName? root.kind = some .text
    · rw [tokens_text htext]
      intro token htoken
      obtain ⟨c, -, rfl⟩ := List.mem_map.mp htoken
      exact isClean_textToken c
    by_cases himage : Tag.Kind.ofName? root.kind = some .image
    · rw [tokens_image himage]
      intro token htoken
      rw [List.mem_singleton.mp htoken]
      exact isClean_imageToken hself
    obtain ⟨⟨hopening, hclosing⟩, hitem⟩ :=
      isClean_wrapper (Tag.Kind.ofName? root.kind) hself
    rw [tokens_element rfl htext himage]
    intro token htoken
    rw [List.mem_cons, List.mem_append, List.mem_flatMap, List.mem_singleton] at htoken
    rcases htoken with rfl | ⟨child, hchild, hmem⟩ | rfl
    · exact hopening
    · rw [Wrapper.aroundItem, List.mem_append, List.mem_append, Option.mem_toList,
        Option.mem_toList, Option.map_eq_some_iff, Option.map_eq_some_iff] at hmem
      rcases hmem with (⟨item, hmem, rfl⟩ | hinner) | ⟨item, hmem, rfl⟩
      · exact (hitem item hmem).1
      · have hbelow : ∀ node ∈ child.walk, HasCleanValues node.options :=
          fun node hnode => h node (Tag.mem_walk_of_mem_children hchild hnode)
        exact ih child hchild hbelow token hinner
      · exact (hitem item hmem).2
    · exact hclosing

/-! ## Documents -/

/-- **Escaped output admits no injection.** Scanned as HTML, the escaped output of a document that
is accepted has exactly the tokens of its tree, neighbouring data merged. They are well nested, and
each tag among them is in the row of a node of the tree. -/
theorem scan_render_of_parse {frames : Nat} {asked : Int} {source : Source} {root : Tag}
    (h : (parse frames asked source).value = .ok root) :
    ∃ found, scan (render true root) = some found ∧ found = mergeData (tokens root) ∧
      WellNested found ∧
      ∀ token ∈ found, ¬ token.IsData → ∃ node ∈ root.walk, token ∈ templates node := by
  obtain ⟨hread, -⟩ := parse_eq_ok_iff.mp h
  obtain ⟨hsound, -⟩ := isSound_of_readMarkup hread
  have hclean : ∀ token ∈ tokens root, token.IsClean :=
    isClean_of_mem_tokens fun node hnode => hasCleanValues_of_isSound (hsound node hnode)
  refine ⟨mergeData (tokens root), ?_, rfl, wellNested_mergeData (wellNested_tokens root), ?_⟩
  · rw [scan, toList_render]
    exact scanFrom_write hclean
  · intro token htoken htag
    exact exists_mem_templates (mem_of_mem_mergeData htoken htag) htag

/-- The output of a document with signs of HTML in its text and in an option is scanned as its
tree has it. -/
theorem scan_render_of_parse_link :
    ∃ root found, (parse 1000 2 (.text
        "@main\x7ba<b> & \"c\"\\n@link(uri: \"x>y'\")\x7bgo\x7d\x7d")).value = .ok root ∧
      found = [.opening "div" [("class", "main-tag")], .data "a<b> & \"c\"", .void "br" [],
        .opening "a" [("href", "x>y'")], .data "go", .closing "a", .closing "div"] ∧
      scan (render true root) = some found ∧ found = mergeData (tokens root) ∧
      WellNested found ∧
      ∀ token ∈ found, ¬ token.IsData → ∃ node ∈ root.walk, token ∈ templates node := by
  let link : Tag := ⟨"link", .ofList [("uri", "x>y'")], "", ⟨18, 0, 18⟩,
    [.textLeaf "go" ⟨37, 0, 37⟩]⟩
  let root : Tag := ⟨"main", .empty, "", ⟨0, 0, 0⟩,
    [.textLeaf "a<b> & \"c\"\n" ⟨6, 0, 6⟩, link]⟩
  have hparse : (parse 1000 2 (.text
      "@main\x7ba<b> & \"c\"\\n@link(uri: \"x>y'\")\x7bgo\x7d\x7d")).value = .ok root := by
    cbv
  obtain ⟨found, hscan, hfound, hnested, htemplates⟩ := scan_render_of_parse hparse
  refine ⟨root, found, hparse, ?_, hscan, hfound, hnested, htemplates⟩
  rw [hfound]
  cbv

end AtMarkup.Html
