import Mathlib
import AtMarkup.Proofs.Scanner
import AtMarkup.Tag.Basic

/-!
# The table of output

What a tree is as HTML, said in tokens and not in characters. A text gives its characters, with a
`br` for each line break; an image gives an `img` and nothing of its children; any other tag is an
element around its children, and in lists and columns each child has an element of its own around
it (`wrapper`). `tokens` goes down a tree by this table.

Two things hold of every tree, whatever is in its texts and options: its tokens are well nested
(`wellNested_tokens`), and each of its tags belongs to a node by that node's own row of the table
(`exists_mem_templates`). Both survive the merging of neighbouring data.
-/

namespace AtMarkup.Html

/-! ## Elements around children -/

/-- An element that has content. -/
structure Element where
  /-- Its name. -/
  name : String
  /-- Its attributes. -/
  attributes : List (String × String) := []
  deriving DecidableEq, Repr, Inhabited

/-- The start of an element. -/
def Element.opening (element : Element) : Token :=
  .opening element.name element.attributes

/-- The end of an element. -/
def Element.closing (element : Element) : Token :=
  .closing element.name

/-- What stands around the children of a tag. -/
structure Wrapper where
  /-- The element around all of them. -/
  element : Element
  /-- The element around each of them, if there is one. -/
  item : Option Element := none
  deriving DecidableEq, Repr, Inhabited

/-- The style of a font: the options that count, each with what stands before and after it. -/
def fontParts : List (String × String × String) :=
  [("size", "font-size: ", "px; "), ("family", "font-family: ", "; "), ("color", "color: ", "; ")]

/-- The style of a font tag, made of the options that are given. -/
def fontValue (options : Tag.Options) : String :=
  String.join (fontParts.map fun part =>
    (options.get? part.1).elim "" fun value => part.2.1 ++ value ++ part.2.2)

/-- The row of a tag that is an element; names of no known kind are a plain span. -/
def wrapper (kind : Option Tag.Kind) (options : Tag.Options) : Wrapper :=
  match kind with
  | some .main => ⟨⟨"div", [("class", "main-tag")]⟩, none⟩
  | some .paragraph => ⟨⟨"p", [("class", "text-" ++ options.getD "alignment" "left")]⟩, none⟩
  | some .heading =>
    ⟨⟨"p", [("class", "h" ++ options.getD "level" "1" ++ " text-" ++
      options.getD "alignment" "left")]⟩, none⟩
  | some .list =>
    ⟨⟨if options.getD "style" "unordered" = "ordered" then "ol" else "ul", []⟩, some ⟨"li", []⟩⟩
  | some .bold => ⟨⟨"strong", []⟩, none⟩
  | some .italic => ⟨⟨"em", []⟩, none⟩
  | some .underlined => ⟨⟨"u", []⟩, none⟩
  | some .block => ⟨⟨"div", []⟩, none⟩
  | some .columns => ⟨⟨"div", [("class", "row")]⟩, some ⟨"div", [("class", "col-sm")]⟩⟩
  | some .link => ⟨⟨"a", [("href", options.getD "uri" "")]⟩, none⟩
  | some .font => ⟨⟨"span", [("style", fontValue options)]⟩, none⟩
  | some .text | some .image | none => ⟨⟨"span", []⟩, none⟩

/-- The row of an image. -/
def imageToken (options : Tag.Options) : Token :=
  .void "img" [("src", options.getD "uri" ""), ("class", "rounded mx-auto d-block")]

/-- The break that stands for a line break. -/
def breakToken : Token :=
  .void "br" []

/-- A character of a text. -/
def textToken (c : Char) : Token :=
  if c = '\n' then breakToken else .data (String.singleton c)

/-- A child in its own element, if it has one. -/
def Wrapper.aroundItem (around : Wrapper) (inner : List Token) : List Token :=
  (around.item.map Element.opening).toList ++ inner ++ (around.item.map Element.closing).toList

/-- The tokens of a tree. -/
def tokens (tag : Tag) : List Token :=
  match Tag.Kind.ofName? tag.kind with
  | some .text => tag.content.toList.map textToken
  | some .image => [imageToken tag.options]
  | kind =>
    let around := wrapper kind tag.options
    around.element.opening ::
      (tag.children.flatMap (fun child => around.aroundItem (tokens child)) ++
        [around.element.closing])
termination_by sizeOf tag
decreasing_by exact Tag.sizeOf_lt_of_mem_children ‹_›

/-- The tags that a node itself puts into the output, by its row of the table. -/
def templates (node : Tag) : List Token :=
  match Tag.Kind.ofName? node.kind with
  | some .text => [breakToken]
  | some .image => [imageToken node.options]
  | kind =>
    let around := wrapper kind node.options
    [around.element.opening, around.element.closing] ++
      (around.item.map Element.opening).toList ++ (around.item.map Element.closing).toList

variable {tag : Tag}

/-- A text gives its characters. -/
theorem tokens_text (h : Tag.Kind.ofName? tag.kind = some .text) :
    tokens tag = tag.content.toList.map textToken := by
  rw [tokens, h]

/-- An image gives one token. -/
theorem tokens_image (h : Tag.Kind.ofName? tag.kind = some .image) :
    tokens tag = [imageToken tag.options] := by
  rw [tokens, h]

/-- Any other tag gives an element around its children. -/
theorem tokens_element {kind : Option Tag.Kind} (h : Tag.Kind.ofName? tag.kind = kind)
    (htext : kind ≠ some .text) (himage : kind ≠ some .image) :
    tokens tag = (wrapper kind tag.options).element.opening ::
      (tag.children.flatMap (fun child => (wrapper kind tag.options).aroundItem (tokens child)) ++
        [(wrapper kind tag.options).element.closing]) := by
  rw [tokens, h]
  split
  · exact absurd rfl htext
  · exact absurd rfl himage
  · rfl

/-- The row of a text. -/
theorem templates_text (h : Tag.Kind.ofName? tag.kind = some .text) :
    templates tag = [breakToken] := by
  rw [templates, h]

/-- The row of an image. -/
theorem templates_image (h : Tag.Kind.ofName? tag.kind = some .image) :
    templates tag = [imageToken tag.options] := by
  rw [templates, h]

/-- The row of any other tag. -/
theorem templates_element {kind : Option Tag.Kind} (h : Tag.Kind.ofName? tag.kind = kind)
    (htext : kind ≠ some .text) (himage : kind ≠ some .image) :
    templates tag =
      [(wrapper kind tag.options).element.opening, (wrapper kind tag.options).element.closing] ++
        ((wrapper kind tag.options).item.map Element.opening).toList ++
        ((wrapper kind tag.options).item.map Element.closing).toList := by
  rw [templates, h]
  split
  · exact absurd rfl htext
  · exact absurd rfl himage
  · rfl

/-! ## Nesting -/

/-- Tokens in which every element that is opened is closed, in the reverse order; void elements
are neither opened nor closed. -/
inductive WellNested : List Token → Prop where
  | nil : WellNested []
  | data {text : String} {rest : List Token} (hrest : WellNested rest) :
      WellNested (.data text :: rest)
  | void {name : String} {attributes : List (String × String)} {rest : List Token}
      (hname : name ∈ voidNames) (hrest : WellNested rest) :
      WellNested (.void name attributes :: rest)
  | element {name : String} {attributes : List (String × String)} {inner rest : List Token}
      (hname : name ∉ voidNames) (hinner : WellNested inner) (hrest : WellNested rest) :
      WellNested (.opening name attributes :: (inner ++ .closing name :: rest))

/-- Well nested tokens may stand one behind the other. -/
theorem WellNested.append {a b : List Token} (ha : WellNested a) (hb : WellNested b) :
    WellNested (a ++ b) := by
  induction ha with
  | nil => exact hb
  | data hrest ih => exact .data ih
  | void hname hrest ih => exact .void hname ih
  | element hname hinner hrest ihinner ihrest =>
    rw [List.cons_append, List.append_assoc]
    exact .element hname hinner ihrest

/-- Well nested children stand one behind the other. -/
theorem wellNested_flatMap {α : Type} {items : List α} {f : α → List Token}
    (h : ∀ item ∈ items, WellNested (f item)) : WellNested (items.flatMap f) := by
  induction items with
  | nil => exact .nil
  | cons item items ih =>
    obtain ⟨hitem, hitems⟩ := List.forall_mem_cons.mp h
    rw [List.flatMap_cons]
    exact hitem.append (ih hitems)

/-- The elements of the table are not void. -/
theorem wrapper_not_void (kind : Option Tag.Kind) (options : Tag.Options) :
    (wrapper kind options).element.name ∉ voidNames ∧
      ∀ item ∈ (wrapper kind options).item, item.name ∉ voidNames := by
  have hlist (ordered : Prop) [Decidable ordered] :
      (if ordered then "ol" else "ul") ∉ voidNames := by
    split <;> decide
  cases kind with
  | none => simp [wrapper, voidNames]
  | some kind =>
    cases kind
    case list => exact ⟨hlist _, by simp [wrapper, voidNames]⟩
    all_goals simp [wrapper, voidNames]

/-- An element of the table is well nested around well nested tokens. -/
theorem wellNested_element {element : Element} (hname : element.name ∉ voidNames)
    {inner : List Token} (hinner : WellNested inner) :
    WellNested (element.opening :: (inner ++ [element.closing])) :=
  .element hname hinner .nil

/-- A child in its own element is well nested. -/
theorem wellNested_aroundItem {around : Wrapper}
    (hitem : ∀ item ∈ around.item, item.name ∉ voidNames) {inner : List Token}
    (hinner : WellNested inner) : WellNested (around.aroundItem inner) := by
  unfold Wrapper.aroundItem
  cases hcase : around.item with
  | none => simpa using hinner
  | some item => exact wellNested_element (hitem item hcase) hinner

/-- The characters of a text are well nested. -/
theorem wellNested_map_textToken (text : List Char) : WellNested (text.map textToken) := by
  induction text with
  | nil => exact .nil
  | cons c text ih =>
    rw [List.map_cons, textToken]
    split
    · exact .void (by decide) ih
    · exact .data ih

/-- The tokens of a tree are well nested. -/
theorem wellNested_tokens (tag : Tag) : WellNested (tokens tag) := by
  induction tag using Tag.induction with
  | node tag ih =>
    by_cases htext : Tag.Kind.ofName? tag.kind = some .text
    · rw [tokens_text htext]
      exact wellNested_map_textToken _
    by_cases himage : Tag.Kind.ofName? tag.kind = some .image
    · rw [tokens_image himage]
      exact .void (by decide) .nil
    · rw [tokens_element rfl htext himage]
      obtain ⟨helement, hitem⟩ := wrapper_not_void (Tag.Kind.ofName? tag.kind) tag.options
      refine wellNested_element helement (wellNested_flatMap fun child hchild => ?_)
      exact wellNested_aroundItem hitem (ih child hchild)

/-- Merging data leaves tokens well nested. -/
theorem wellNested_prepend_data {text : String} {given : List Token} (h : WellNested given) :
    WellNested (Token.prepend (.data text) given) := by
  cases h with
  | nil => exact .data .nil
  | data hrest => exact .data hrest
  | void hname hrest => exact .data (.void hname hrest)
  | element hname hinner hrest => exact .data (.element hname hinner hrest)

/-- Data is not merged across a tag. -/
theorem mergeData_append_cons (a : List Token) {token : Token} (htag : ¬ token.IsData)
    (b : List Token) : mergeData (a ++ token :: b) = mergeData a ++ token :: mergeData b := by
  induction a with
  | nil => exact prepend_of_not_isData htag _
  | cons first a ih =>
    rw [List.cons_append, mergeData_cons, ih, mergeData_cons]
    cases mergeData a with
    | nil =>
      have halone : first.prepend [] = [first] := by cases first <;> rfl
      rw [List.nil_append, prepend_cons_of_not_isData first htag, halone]
      rfl
    | cons second rest => cases first <;> cases second <;> rfl

/-- Merged tokens are as well nested as before. -/
theorem wellNested_mergeData {given : List Token} (h : WellNested given) :
    WellNested (mergeData given) := by
  induction h with
  | nil => exact .nil
  | data hrest ih => exact wellNested_prepend_data ih
  | void hname hrest ih => exact .void hname ih
  | @element name attributes inner rest hname hinner hrest ihinner ihrest =>
    have hopening : ¬ (Token.opening name attributes).IsData := fun h => h
    have hclosing : ¬ (Token.closing name).IsData := fun h => h
    rw [mergeData_cons, prepend_of_not_isData hopening, mergeData_append_cons _ hclosing]
    exact .element hname ihinner ihrest

/-! ## Templates -/

/-- Merging makes no tags. -/
theorem mem_of_mem_mergeData {given : List Token} {token : Token} (h : token ∈ mergeData given)
    (htag : ¬ token.IsData) : token ∈ given := by
  induction given with
  | nil => exact absurd h List.not_mem_nil
  | cons first given ih =>
    have hcases : token = first ∨ token ∈ mergeData given := by
      rw [mergeData_cons] at h
      unfold Token.prepend at h
      split at h
      · rename_i hmerged
        rw [List.mem_cons] at h
        rcases h with rfl | hmem
        · exact absurd trivial htag
        · exact .inr (hmerged ▸ List.mem_cons_of_mem _ hmem)
      · exact List.mem_cons.mp h
    exact List.mem_cons.mpr (hcases.imp_right ih)

/-- A tag among the characters of a text is a break. -/
theorem eq_breakToken_of_mem {text : List Char} {token : Token} (h : token ∈ text.map textToken)
    (htag : ¬ token.IsData) : token = breakToken := by
  obtain ⟨c, -, rfl⟩ := List.mem_map.mp h
  unfold textToken at htag ⊢
  split at htag
  · rename_i hbreak
    rw [if_pos hbreak]
  · exact absurd trivial htag

/-- Each tag of a tree is in the row of one of its nodes. -/
theorem exists_mem_templates {root : Tag} {token : Token} (h : token ∈ tokens root)
    (htag : ¬ token.IsData) : ∃ node ∈ root.walk, token ∈ templates node := by
  induction root using Tag.induction with
  | node root ih =>
    have hself := root.mem_walk_self
    by_cases htext : Tag.Kind.ofName? root.kind = some .text
    · rw [tokens_text htext] at h
      refine ⟨root, hself, ?_⟩
      rw [templates_text htext, eq_breakToken_of_mem h htag]
      exact List.mem_cons_self
    by_cases himage : Tag.Kind.ofName? root.kind = some .image
    · rw [tokens_image himage] at h
      refine ⟨root, hself, ?_⟩
      rwa [templates_image himage]
    rw [tokens_element rfl htext himage, List.mem_cons, List.mem_append, List.mem_flatMap,
      List.mem_singleton] at h
    have htemplates := templates_element rfl htext himage
    rcases h with rfl | ⟨child, hchild, hmem⟩ | rfl
    · exact ⟨root, hself, by simp [htemplates]⟩
    · rw [Wrapper.aroundItem, List.mem_append, List.mem_append] at hmem
      rcases hmem with (hopening | hinner) | hclosing
      · exact ⟨root, hself, by simp [htemplates, -Option.mem_toList, hopening]⟩
      · obtain ⟨node, hnode, hmem⟩ := ih child hchild hinner
        exact ⟨node, Tag.mem_walk_of_mem_children hchild hnode, hmem⟩
      · exact ⟨root, hself, by simp [htemplates, -Option.mem_toList, hclosing]⟩
    · exact ⟨root, hself, by simp [htemplates]⟩

end AtMarkup.Html
