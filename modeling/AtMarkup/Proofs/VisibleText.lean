import Mathlib
import AtMarkup.Proofs.Escaping

/-!
# Which text is visible

A text leaf that is not inside an image should be seen. The output of a tree is put together of
elements and texts (`MadeOf`), whether its text is escaped or not, and `Shows` says that the
elements are those of the table of output and the texts the given ones, each once and in their
order.

* Every tree shows the texts of its `text` nodes, as far as none of them is inside an image or
  inside another `text` node (`shows_shownTexts`, by induction on the tree). It shows nothing else,
  for the length of the output leaves no room for more (`eq_shownTexts_of_shows`).
* These are some of the text leaves outside images, in their order (`shownTexts_sublist`).
* They are all of them exactly if no node of the kind `text` has a text leaf inside
  (`shownTexts_eq_leafTexts_iff`).

The last condition can fail in a document. A tag may be written with the name `text`, and then
what is inside it is lost: `not_shows_text_in_text` has the smallest such document. Without such
tags every text leaf outside images is seen, and only then (`shows_leafTexts_iff`).
-/

namespace AtMarkup.Html

/-! ## The texts of a tree -/

/-- The node and all below it that is not inside an image, each before its children. -/
def outsideImages (tag : Tag) : List Tag :=
  tag :: if Tag.Kind.ofName? tag.kind = some .image then []
    else tag.children.flatMap outsideImages
termination_by sizeOf tag
decreasing_by exact Tag.sizeOf_lt_of_mem_children ‹_›

/-- The contents of the text leaves that are not inside an image, in document order. -/
def leafTexts (tag : Tag) : List String :=
  ((outsideImages tag).map Tag.content).filter (· ≠ "")

/-- A text that is not empty, as the only one. -/
def soleText (content : String) : List String :=
  [content].filter (· ≠ "")

/-- An image is the only node of its own that is not inside it. -/
theorem outsideImages_image {tag : Tag} (h : Tag.Kind.ofName? tag.kind = some .image) :
    outsideImages tag = [tag] := by
  rw [outsideImages, if_pos h]

/-- Below any other tag the children come in their order. -/
theorem outsideImages_of_ne {tag : Tag} (h : Tag.Kind.ofName? tag.kind ≠ some .image) :
    outsideImages tag = tag :: tag.children.flatMap outsideImages := by
  rw [outsideImages, if_neg h]

/-- An image has no leaf but itself. -/
theorem leafTexts_image {tag : Tag} (h : Tag.Kind.ofName? tag.kind = some .image) :
    leafTexts tag = soleText tag.content := by
  rw [leafTexts, outsideImages_image h]
  rfl

/-- The leaves of any other tag are those of its children, behind itself. -/
theorem leafTexts_of_ne {tag : Tag} (h : Tag.Kind.ofName? tag.kind ≠ some .image) :
    leafTexts tag = soleText tag.content ++ tag.children.flatMap leafTexts := by
  rw [leafTexts, outsideImages_of_ne h, List.map_cons, ← List.singleton_append, List.filter_append,
    List.map_flatMap, List.filter_flatMap]
  rfl

/-- Where there is no leaf, there is none further down. -/
theorem leafTexts_eq_nil_of_mem {tag node : Tag} (h : leafTexts tag = [])
    (hnode : node ∈ outsideImages tag) : leafTexts node = [] := by
  induction tag using Tag.induction with
  | node tag ih =>
    by_cases himage : Tag.Kind.ofName? tag.kind = some .image
    · rw [outsideImages_image himage, List.mem_singleton] at hnode
      rwa [hnode]
    · rw [outsideImages_of_ne himage, List.mem_cons, List.mem_flatMap] at hnode
      rcases hnode with rfl | ⟨child, hchild, hmem⟩
      · exact h
      · rw [leafTexts_of_ne himage, List.append_eq_nil_iff, List.flatMap_eq_nil_iff] at h
        exact ih child hchild (h.2 child hchild) hmem

/-! ## Elements and texts -/

/-- Some characters are elements and contents of texts, one behind the other: these elements and
these texts, each in their order. -/
inductive MadeOf (escaped : Bool) : List Char → List Token → List String → Prop where
  | nil : MadeOf escaped [] [] []
  | element {written : List Char} {elements : List Token} {texts : List String} (token : Token)
      (h : MadeOf escaped written elements texts) :
      MadeOf escaped (write token ++ written) (token :: elements) texts
  | text {written : List Char} {elements : List Token} {texts : List String} (content : String)
      (h : MadeOf escaped written elements texts) :
      MadeOf escaped ((textLeaf escaped content).toList ++ written) elements (content :: texts)

/-- Whether a token is an element, and not part of a text. A break is part of a text. -/
def Token.isElement : Token → Bool
  | .data _ => false
  | token => token != breakToken

/-- The output of the tree has the elements of the table, with these texts between them and no
other characters. -/
def Shows (escaped : Bool) (tag : Tag) (texts : List String) : Prop :=
  MadeOf escaped (render escaped tag).toList ((tokens tag).filter Token.isElement) texts

/-- The texts that a tree shows: those of its `text` nodes that are neither inside an image nor
inside another one. -/
def shownTexts (tag : Tag) : List String :=
  match Tag.Kind.ofName? tag.kind with
  | some .text => soleText tag.content
  | some .image => []
  | _ => tag.children.flatMap shownTexts
termination_by sizeOf tag
decreasing_by exact Tag.sizeOf_lt_of_mem_children ‹_›

variable {tag : Tag} {escaped : Bool}

/-- A text is no image. -/
theorem ofName?_ne_image (h : Tag.Kind.ofName? tag.kind = some .text) :
    Tag.Kind.ofName? tag.kind ≠ some .image := by
  rw [h]
  decide

/-- The only text that a text shows is its content. -/
theorem shownTexts_text (h : Tag.Kind.ofName? tag.kind = some .text) :
    shownTexts tag = soleText tag.content := by
  rw [shownTexts, h]

/-- An image shows no text. -/
theorem shownTexts_image (h : Tag.Kind.ofName? tag.kind = some .image) : shownTexts tag = [] := by
  rw [shownTexts, h]

/-- Any other tag shows the texts of its children. -/
theorem shownTexts_of_ne (htext : Tag.Kind.ofName? tag.kind ≠ some .text)
    (himage : Tag.Kind.ofName? tag.kind ≠ some .image) :
    shownTexts tag = tag.children.flatMap shownTexts := by
  rw [shownTexts]
  split
  · rename_i h
    exact absurd h htext
  · rename_i h
    exact absurd h himage
  · rfl

/-! ## Every tree shows its texts -/

section MadeOf

variable {written written' : List Char} {elements elements' : List Token}
  {texts texts' : List String}

/-- What is made of elements and texts may stand one behind the other. -/
theorem MadeOf.append (h : MadeOf escaped written elements texts)
    (h' : MadeOf escaped written' elements' texts') :
    MadeOf escaped (written ++ written') (elements ++ elements') (texts ++ texts') := by
  induction h with
  | nil => exact h'
  | element token h ih =>
    rw [List.append_assoc]
    exact .element token ih
  | text content h ih =>
    rw [List.append_assoc]
    exact .text content ih

/-- An element alone is made of itself. -/
theorem madeOf_write (token : Token) : MadeOf escaped (write token) [token] [] := by
  have h := MadeOf.element token (.nil : MadeOf escaped [] [] [])
  rwa [List.append_nil] at h

/-- A text alone is made of itself, if it is not empty. -/
theorem madeOf_textLeaf (content : String) :
    MadeOf escaped (textLeaf escaped content).toList [] (soleText content) := by
  by_cases hcontent : content = ""
  · have hwritten : (textLeaf escaped content).toList = [] := by
      cases escaped <;> simp [hcontent, textLeaf, withBreaks, escape]
    rw [hwritten, hcontent]
    exact .nil
  · have hsole : soleText content = [content] := by simp [soleText, hcontent]
    have h := MadeOf.text content (.nil : MadeOf escaped [] [] [])
    rwa [List.append_nil, ← hsole] at h

/-- Elements may stand around what is made of elements and texts. -/
theorem MadeOf.between (h : MadeOf escaped written elements texts) (before behind : List Token) :
    MadeOf escaped (before.flatMap write ++ written ++ behind.flatMap write)
      (before ++ elements ++ behind) texts := by
  have halone (tokens : List Token) : MadeOf escaped (tokens.flatMap write) tokens [] := by
    induction tokens with
    | nil => exact .nil
    | cons token tokens ih =>
      rw [List.flatMap_cons]
      exact .element token ih
  have hall := ((halone before).append h).append (halone behind)
  rwa [List.nil_append, List.append_nil] at hall

/-- Items that are made of elements and texts may stand one behind the other. -/
theorem madeOf_flatMap {α : Type} {items : List α} {write' : α → List Char}
    {elementsOf : α → List Token} {textsOf : α → List String}
    (h : ∀ item ∈ items, MadeOf escaped (write' item) (elementsOf item) (textsOf item)) :
    MadeOf escaped (items.flatMap write') (items.flatMap elementsOf) (items.flatMap textsOf) := by
  induction items with
  | nil => exact .nil
  | cons item items ih =>
    obtain ⟨hitem, hitems⟩ := List.forall_mem_cons.mp h
    rw [List.flatMap_cons, List.flatMap_cons, List.flatMap_cons]
    exact hitem.append (ih hitems)

end MadeOf

/-- The characters of a text are no elements. -/
theorem filter_isElement_textToken (text : List Char) :
    (text.map textToken).filter Token.isElement = [] := by
  rw [List.filter_eq_nil_iff]
  intro token htoken
  obtain ⟨c, -, rfl⟩ := List.mem_map.mp htoken
  unfold textToken
  split
  · simp [Token.isElement, breakToken]
  · simp [Token.isElement]

/-- The ends of an element are elements. -/
theorem isElement_ends (element : Element) :
    element.opening.isElement = true ∧ element.closing.isElement = true := by
  simp [Element.opening, Element.closing, Token.isElement, breakToken]

/-- The ends of the element around a child are elements. -/
theorem filter_isElement_aroundItem (around : Wrapper) (inner : List Token) :
    (around.aroundItem inner).filter Token.isElement =
      (around.item.map Element.opening).toList ++ inner.filter Token.isElement ++
        (around.item.map Element.closing).toList := by
  unfold Wrapper.aroundItem
  cases around.item with
  | none => simp
  | some item => simp [isElement_ends item]

/-- A text shows its content. -/
theorem shows_text (h : Tag.Kind.ofName? tag.kind = some .text) (escaped : Bool) :
    Shows escaped tag (soleText tag.content) := by
  have hrender : render escaped tag = textLeaf escaped tag.content := by
    rw [render, h]
  unfold Shows
  rw [hrender, tokens_text h, filter_isElement_textToken]
  exact madeOf_textLeaf tag.content

/-- An image shows an element and no text. -/
theorem shows_image (h : Tag.Kind.ofName? tag.kind = some .image) (escaped : Bool) :
    Shows escaped tag [] := by
  have hrender : render escaped tag = image tag.options := by
    rw [render, h]
  have helement : [imageToken tag.options].filter Token.isElement = [imageToken tag.options] := rfl
  unfold Shows
  rw [hrender, toList_image, tokens_image h, helement]
  exact madeOf_write _

/-- Any other tag shows what its children show. -/
theorem shows_flatMap (htext : Tag.Kind.ofName? tag.kind ≠ some .text)
    (himage : Tag.Kind.ofName? tag.kind ≠ some .image) {textsOf : Tag → List String}
    (h : ∀ child ∈ tag.children, Shows escaped child (textsOf child)) :
    Shows escaped tag (tag.children.flatMap textsOf) := by
  obtain ⟨hopening, hclosing, hitemOpening, hitemClosing⟩ :=
    toList_shell (Tag.Kind.ofName? tag.kind) tag.options
  have hchild : ∀ child ∈ tag.children,
      MadeOf escaped
        ((shell (Tag.Kind.ofName? tag.kind) tag.options).itemOpening ++ render escaped child ++
          (shell (Tag.Kind.ofName? tag.kind) tag.options).itemClosing).toList
        (((wrapper (Tag.Kind.ofName? tag.kind) tag.options).aroundItem (tokens child)).filter
          Token.isElement)
        (textsOf child) := by
    intro child hmem
    rw [String.toList_append, String.toList_append, hitemOpening, hitemClosing,
      filter_isElement_aroundItem]
    exact (h child hmem).between _ _
  obtain ⟨hfirst, hlast⟩ :=
    isElement_ends (wrapper (Tag.Kind.ofName? tag.kind) tag.options).element
  have hall := (madeOf_flatMap hchild).between
    [(wrapper (Tag.Kind.ofName? tag.kind) tag.options).element.opening]
    [(wrapper (Tag.Kind.ofName? tag.kind) tag.options).element.closing]
  rw [List.flatMap_singleton, List.flatMap_singleton] at hall
  unfold Shows
  rw [render_element rfl htext himage, tokens_element rfl htext himage, String.toList_append,
    String.toList_append, String.toList_join, List.flatMap_map, hopening, hclosing,
    List.filter_cons_of_pos hfirst, List.filter_append, List.filter_flatMap,
    List.filter_cons_of_pos hlast, List.filter_nil]
  exact hall

/-- Every tree shows the texts of its `text` nodes that are not inside an image or inside each
other. -/
theorem shows_shownTexts (escaped : Bool) (tag : Tag) : Shows escaped tag (shownTexts tag) := by
  induction tag using Tag.induction with
  | node tag ih =>
    by_cases htext : Tag.Kind.ofName? tag.kind = some .text
    · rw [shownTexts_text htext]
      exact shows_text htext escaped
    by_cases himage : Tag.Kind.ofName? tag.kind = some .image
    · rw [shownTexts_image himage]
      exact shows_image himage escaped
    rw [shownTexts_of_ne htext himage]
    exact shows_flatMap htext himage ih

/-! ## No tree shows anything else -/

/-- The room that texts take up in the output. -/
def room (escaped : Bool) (texts : List String) : Nat :=
  (texts.flatMap fun text => (textLeaf escaped text).toList).length

/-- The texts that something is made of take up the room that the elements leave. -/
theorem MadeOf.length_eq {written : List Char} {elements : List Token} {texts : List String}
    (h : MadeOf escaped written elements texts) :
    written.length = (elements.flatMap write).length + room escaped texts := by
  induction h with
  | nil => rfl
  | element token h ih =>
    rw [List.length_append, List.flatMap_cons, List.length_append, ih]
    omega
  | text content h ih =>
    rw [List.length_append, ih, room, room, List.flatMap_cons, List.length_append]
    omega

/-- A text that is not empty takes up room. -/
theorem room_singleton_pos {content : String} (h : content ≠ "") : 0 < room escaped [content] := by
  have hcontent : content.toList ≠ [] := by
    intro hnil
    exact h (String.toList_inj.mp hnil)
  obtain ⟨c, rest, hrest⟩ := List.exists_cons_of_ne_nil hcontent
  have hbreak (d : Char) : breakCharacter d ≠ [] := by
    unfold breakCharacter
    split <;> simp [lineBreak]
  obtain ⟨d, more, hmore⟩ := List.exists_cons_of_ne_nil (escapeCharacter_ne_nil c)
  apply List.length_pos_iff.mpr
  cases escaped with
  | false => simp [textLeaf, withBreaks, hrest, hbreak]
  | true => simp [textLeaf, withBreaks, escape, hrest, hmore, hbreak]

/-- Of texts that are not empty none can be left out without making room. -/
theorem eq_of_sublist_of_room_eq {a b : List String} (h : a.Sublist b) (hb : "" ∉ b)
    (hroom : room escaped a = room escaped b) : a = b := by
  have hle {a b : List String} (h : a.Sublist b) : room escaped a ≤ room escaped b :=
    (h.flatMap _).length_le
  have hcons (text : String) (texts : List String) :
      room escaped (text :: texts) = room escaped [text] + room escaped texts := by
    simp [room]
  induction h with
  | slnil => rfl
  | @cons a b text h ih =>
    rw [List.mem_cons, not_or] at hb
    have hpos := @room_singleton_pos escaped text (Ne.symm hb.1)
    have hless := hle h
    rw [hcons text b] at hroom
    omega
  | @cons_cons a b text h ih =>
    rw [List.mem_cons, not_or] at hb
    rw [hcons text a, hcons text b] at hroom
    rw [ih hb.2 (Nat.add_left_cancel hroom)]

/-- A tree does not show more texts than those of its `text` nodes. -/
theorem eq_shownTexts_of_shows {texts : List String} (h : Shows escaped tag texts)
    (hsublist : (shownTexts tag).Sublist texts) (hempty : "" ∉ texts) : shownTexts tag = texts := by
  apply eq_of_sublist_of_room_eq hsublist hempty
  have hlength := h.length_eq
  rw [(shows_shownTexts escaped tag).length_eq] at hlength
  exact Nat.add_left_cancel hlength

/-! ## Shown texts and text leaves -/

/-- No leaf has an empty text. -/
theorem not_mem_leafTexts (tag : Tag) : "" ∉ leafTexts tag := by
  simp [leafTexts]

/-- The texts that are shown are some of the text leaves outside images, in their order. -/
theorem shownTexts_sublist (tag : Tag) : (shownTexts tag).Sublist (leafTexts tag) := by
  induction tag using Tag.induction with
  | node tag ih =>
    by_cases htext : Tag.Kind.ofName? tag.kind = some .text
    · rw [shownTexts_text htext, leafTexts_of_ne (ofName?_ne_image htext)]
      exact List.sublist_append_left _ _
    by_cases himage : Tag.Kind.ofName? tag.kind = some .image
    · rw [shownTexts_image himage]
      exact List.nil_sublist _
    rw [shownTexts_of_ne htext himage, leafTexts_of_ne himage]
    exact (List.Sublist.flatMap_right _ ih).trans (List.sublist_append_right _ _)

/-- Lists of which none is longer than its counterpart are the same together exactly if each is. -/
theorem flatMap_eq_flatMap_iff {α β : Type} {items : List α} {f g : α → List β}
    (h : ∀ item ∈ items, (f item).Sublist (g item)) :
    items.flatMap f = items.flatMap g ↔ ∀ item ∈ items, f item = g item := by
  refine ⟨fun heq => ?_, fun heq => List.flatMap_congr heq⟩
  induction items with
  | nil => simp
  | cons item items ih =>
    obtain ⟨hitem, hitems⟩ := List.forall_mem_cons.mp h
    rw [List.flatMap_cons, List.flatMap_cons] at heq
    have hlength := congrArg List.length heq
    have hrest := (List.Sublist.flatMap_right items hitems).length_le
    rw [List.length_append, List.length_append] at hlength
    have hsame : f item = g item := by
      apply hitem.eq_of_length_le
      omega
    rw [hsame] at heq
    exact List.forall_mem_cons.mpr ⟨hsame, ih hitems (List.append_cancel_left heq)⟩

/-- A sound node that is not of the kind `text` is no leaf. -/
theorem soleText_eq_nil {node : Tag} (h : node.IsSound)
    (htext : Tag.Kind.ofName? node.kind ≠ some .text) : soleText node.content = [] := by
  have hcontent : node.content = "" := by
    by_contra hcontent
    apply htext
    rw [(h.leaf hcontent).kind]
    rfl
  rw [hcontent]
  rfl

/-- The kind of text nodes is known by its name. -/
theorem kind_eq_text_iff {node : Tag} :
    node.kind = "text" ↔ Tag.Kind.ofName? node.kind = some .text := by
  rw [Tag.Kind.ofName?_eq_some_iff]
  exact eq_comm

/-- A node of the kind `text` has no leaf inside exactly if none outside images has one. -/
theorem leafless_text_iff (h : Tag.Kind.ofName? tag.kind = some .text) :
    tag.children.flatMap leafTexts = [] ↔
      ∀ node ∈ outsideImages tag, node.kind = "text" → node.children.flatMap leafTexts = [] := by
  rw [outsideImages_of_ne (ofName?_ne_image h)]
  constructor
  · intro hnone node hnode hkind
    rcases List.mem_cons.mp hnode with rfl | hbelow
    · exact hnone
    · obtain ⟨child, hchild, hmem⟩ := List.mem_flatMap.mp hbelow
      have hleaf := leafTexts_eq_nil_of_mem (List.flatMap_eq_nil_iff.mp hnone child hchild) hmem
      rw [leafTexts_of_ne (ofName?_ne_image (kind_eq_text_iff.mp hkind)),
        List.append_eq_nil_iff] at hleaf
      exact hleaf.2
  · intro hall
    exact hall tag List.mem_cons_self (kind_eq_text_iff.mpr h)

/-- Of any other node what is said of the nodes of the kind `text` is said of its children. -/
theorem forall_text_outsideImages_iff (htext : Tag.Kind.ofName? tag.kind ≠ some .text)
    (himage : Tag.Kind.ofName? tag.kind ≠ some .image) {P : Tag → Prop} :
    (∀ node ∈ outsideImages tag, node.kind = "text" → P node) ↔
      ∀ child ∈ tag.children, ∀ node ∈ outsideImages child, node.kind = "text" → P node := by
  rw [outsideImages_of_ne himage, List.forall_mem_cons]
  constructor
  · rintro ⟨-, hall⟩ child hchild node hnode
    exact hall node (List.mem_flatMap.mpr ⟨child, hchild, hnode⟩)
  · intro hall
    refine ⟨fun hkind => absurd (kind_eq_text_iff.mp hkind) htext, ?_⟩
    intro node hnode
    obtain ⟨child, hchild, hmem⟩ := List.mem_flatMap.mp hnode
    exact hall child hchild node hmem

/-- All text leaves of a sound tree that are outside images are shown exactly if no node of the kind
`text` has one inside. -/
theorem shownTexts_eq_leafTexts_iff (hsound : ∀ node ∈ tag.walk, node.IsSound) :
    shownTexts tag = leafTexts tag ↔
      ∀ node ∈ outsideImages tag, node.kind = "text" → node.children.flatMap leafTexts = [] := by
  induction tag using Tag.induction with
  | node tag ih =>
    have hself := hsound tag tag.mem_walk_self
    by_cases htext : Tag.Kind.ofName? tag.kind = some .text
    · rw [shownTexts_text htext, leafTexts_of_ne (ofName?_ne_image htext),
        List.self_eq_append_right, leafless_text_iff htext]
    by_cases himage : Tag.Kind.ofName? tag.kind = some .image
    · rw [shownTexts_image himage, leafTexts_image himage, soleText_eq_nil hself htext,
        outsideImages_image himage, List.forall_mem_singleton]
      exact ⟨fun _ hkind => absurd (kind_eq_text_iff.mp hkind) htext, fun _ => rfl⟩
    have hchildren : ∀ child ∈ tag.children, ∀ node ∈ child.walk, node.IsSound := by
      intro child hchild node hnode
      exact hsound node (Tag.mem_walk_of_mem_children hchild hnode)
    rw [shownTexts_of_ne htext himage, leafTexts_of_ne himage, soleText_eq_nil hself htext,
      List.nil_append, flatMap_eq_flatMap_iff fun child _ => shownTexts_sublist child,
      forall_text_outsideImages_iff htext himage]
    exact forall₂_congr fun child hchild => ih child hchild (hchildren child hchild)

/-! ## Documents -/

/-- **All visible text is shown, as long as no text is written into a tag called `text`.** The
output of a document that is accepted, escaped or not, has the contents of its text leaves outside
images between the elements of its tree, each once and in document order, exactly if none of these
leaves is inside a tag that is written with the name `text`. -/
theorem shows_leafTexts_iff {frames : Nat} {asked : Int} {source : Source} {root : Tag}
    (h : (parse frames asked source).value = .ok root) (escaped : Bool) :
    Shows escaped root (leafTexts root) ↔
      ∀ node ∈ outsideImages root, node.kind = "text" → node.children.flatMap leafTexts = [] := by
  obtain ⟨hsound, -⟩ := isSound_of_readMarkup (parse_eq_ok_iff.mp h).1
  rw [← shownTexts_eq_leafTexts_iff hsound]
  constructor
  · intro hshows
    exact eq_shownTexts_of_shows hshows (shownTexts_sublist root) (not_mem_leafTexts root)
  · intro hsame
    rw [← hsame]
    exact shows_shownTexts escaped root

/-- A document with a list, a tag of no known name, an image with a text inside and a tag called
`text` with nothing but an image inside shows all its leaves but the ones in the images. -/
theorem shows_leafTexts_iff_list :
    ∃ root, (parse 1000 3 (.text
      ("@main\x7ba\\n<@list\x7bb@x\x7bc\x7d\x7d@image(uri: \"u\")\x7bd\x7d" ++
        "@text\x7b@image(uri: \"v\")\x7be\x7d\x7d\x7d"))).value = .ok root ∧
      (∀ node ∈ outsideImages root, node.kind = "text" → node.children.flatMap leafTexts = []) ∧
      ∀ escaped, Shows escaped root ["a\n<", "b", "c"] := by
  let list : Tag := ⟨"list", .empty, "", ⟨10, 0, 10⟩,
    [.textLeaf "b" ⟨16, 0, 16⟩, ⟨"x", .empty, "", ⟨17, 0, 17⟩, [.textLeaf "c" ⟨20, 0, 20⟩]⟩]⟩
  let picture : Tag := ⟨"image", .ofList [("uri", "u")], "", ⟨23, 0, 23⟩,
    [.textLeaf "d" ⟨40, 0, 40⟩]⟩
  let written : Tag := ⟨"text", .empty, "", ⟨42, 0, 42⟩,
    [⟨"image", .ofList [("uri", "v")], "", ⟨48, 0, 48⟩, [.textLeaf "e" ⟨65, 0, 65⟩]⟩]⟩
  let root : Tag := ⟨"main", .empty, "", ⟨0, 0, 0⟩,
    [.textLeaf "a\n<" ⟨6, 0, 6⟩, list, picture, written]⟩
  have hparse : (parse 1000 3 (.text
      ("@main\x7ba\\n<@list\x7bb@x\x7bc\x7d\x7d@image(uri: \"u\")\x7bd\x7d" ++
        "@text\x7b@image(uri: \"v\")\x7be\x7d\x7d\x7d"))).value = .ok root := by
    cbv
  have hleaves : leafTexts root = ["a\n<", "b", "c"] := by cbv
  have hinside : ∀ node ∈ outsideImages root, node.kind = "text" →
      node.children.flatMap leafTexts = [] := by
    obtain ⟨hsound, -⟩ := isSound_of_readMarkup (parse_eq_ok_iff.mp hparse).1
    have hshown : shownTexts root = ["a\n<", "b", "c"] := by cbv
    exact (shownTexts_eq_leafTexts_iff hsound).mp (hshown.trans hleaves.symm)
  refine ⟨root, hparse, hinside, fun escaped => ?_⟩
  rw [← hleaves]
  exact (shows_leafTexts_iff hparse escaped).mpr hinside

/-- In the smallest document with a text inside a tag called `text` that text is lost. -/
theorem not_shows_text_in_text :
    ∃ root, (parse 1000 2 (.text "@main\x7b@text\x7bhello\x7d\x7d")).value = .ok root ∧
      leafTexts root = ["hello"] ∧
      ∀ escaped, render escaped root = "<div class=\"main-tag\"></div>" ∧
        ¬ Shows escaped root (leafTexts root) := by
  let root : Tag := ⟨"main", .empty, "", ⟨0, 0, 0⟩,
    [⟨"text", .empty, "", ⟨6, 0, 6⟩, [.textLeaf "hello" ⟨12, 0, 12⟩]⟩]⟩
  have hparse : (parse 1000 2 (.text "@main\x7b@text\x7bhello\x7d\x7d")).value = .ok root := by
    cbv
  have hleaves : leafTexts root = ["hello"] := by cbv
  have hshown : shownTexts root = [] := by cbv
  refine ⟨root, hparse, hleaves, fun escaped => ⟨?_, fun hshows => ?_⟩⟩
  · cases escaped <;> cbv
  · have hsame := eq_shownTexts_of_shows hshows (shownTexts_sublist root) (not_mem_leafTexts root)
    rw [hshown, hleaves] at hsame
    cases hsame

end AtMarkup.Html
