import Mathlib
import AtMarkup.Proofs.VisibleText

/-!
# Escaping is for texts

Whether output is escaped is asked for once, at the root, and holds for the whole tree. Here is what
it comes to, for every tree there is, read or built by hand.

* `Tag.mapTexts f` is a tree with `f` applied to the content of its texts, at every depth, and
  nothing else changed. To show a tree escaped is to show it as it is after its texts have been
  escaped (`render_mapTexts`). So no option and no markup of the output is ever escaped.
* A tree whose texts have none of the five characters that escaping writes as references is shown
  alike both ways. Which characters these are is said apart from `escape` (`references`).
* Only texts that are shown count, and each of them does: one such character makes the escaped
  output longer (`length_render_lt`), since both outputs are made of the same elements.
-/

namespace AtMarkup

namespace Tag

/-! ## Texts of a tree -/

/-- The tree with `f` applied to the content of every text in it. -/
def mapTexts (f : String → String) (tag : Tag) : Tag :=
  ⟨tag.kind, tag.options, if tag.isText then f tag.content else tag.content, tag.position,
    tag.children.map (mapTexts f)⟩
termination_by sizeOf tag
decreasing_by exact sizeOf_lt_of_mem_children ‹_›

variable {f : String → String}

@[simp] theorem kind_mapTexts (tag : Tag) : (tag.mapTexts f).kind = tag.kind := by
  rw [mapTexts]

@[simp] theorem options_mapTexts (tag : Tag) : (tag.mapTexts f).options = tag.options := by
  rw [mapTexts]

@[simp] theorem children_mapTexts (tag : Tag) :
    (tag.mapTexts f).children = tag.children.map (mapTexts f) := by
  rw [mapTexts]

/-- The content of a text is changed. -/
theorem content_mapTexts {tag : Tag} (h : tag.isText = true) :
    (tag.mapTexts f).content = f tag.content := by
  rw [mapTexts, if_pos h]

/-- Leaving the contents as they are leaves the tree as it is. -/
theorem mapTexts_id (tag : Tag) : tag.mapTexts id = tag := by
  induction tag using Tag.induction with
  | node tag ih =>
    have hchildren : tag.children.map (mapTexts id) = tag.children := by
      rw [List.map_congr_left ih, List.map_id']
    rw [mapTexts, hchildren, id, ite_self]
    cases tag
    rfl

/-- A text is a node of the kind `text`. -/
theorem isText_iff {tag : Tag} : tag.isText = true ↔ Kind.ofName? tag.kind = some .text := by
  rw [isText, beq_iff_eq, Kind.ofName?_eq_some_iff, eq_comm]

end Tag

namespace Html

/-! ## Escaping a text -/

/-- The characters that escaping writes as references. -/
def references : List Char :=
  ['&', '<', '>', '"', '\'']

/-- A text in which escaping finds nothing to do. -/
def IsPlain (text : String) : Prop :=
  ∀ c ∈ text.toList, c ∉ references

/-- All other characters stand for themselves. -/
theorem escapeCharacter_of_not_mem {c : Char} (h : c ∉ references) : escapeCharacter c = [c] := by
  simp only [references, List.mem_cons, List.not_mem_nil, or_false, not_or] at h
  obtain ⟨hamp, hless, hgreater, hquote, happ⟩ := h
  rw [escapeCharacter, if_neg hamp, if_neg hless, if_neg hgreater, if_neg hquote, if_neg happ]

/-- A plain text is written alike both ways. -/
theorem textLeaf_of_isPlain {content : String} (h : IsPlain content) :
    textLeaf true content = textLeaf false content := by
  have hsame : content.toList.flatMap escapeCharacter = content.toList.flatMap fun c => [c] :=
    List.flatMap_congr fun c hc => escapeCharacter_of_not_mem (h c hc)
  have hescape : escape content = content := by
    rw [escape, hsame, List.flatMap_singleton', String.ofList_toList]
  rw [textLeaf, if_pos rfl, hescape, textLeaf, if_neg Bool.false_ne_true]

/-! ## The whole output -/

/-- Two ways of writing texts, one of them after the texts have been changed, give the same output
of a tree when they write the texts alike that are shown. -/
theorem render_mapTexts {f : String → String} {changed asked : Bool} {tag : Tag}
    (hempty : textLeaf changed (f "") = textLeaf asked "")
    (h : ∀ text ∈ shownTexts tag, textLeaf changed (f text) = textLeaf asked text) :
    render changed (tag.mapTexts f) = render asked tag := by
  induction tag using Tag.induction with
  | node tag ih =>
    have hkind : Tag.Kind.ofName? (tag.mapTexts f).kind = Tag.Kind.ofName? tag.kind := by
      rw [Tag.kind_mapTexts]
    -- A text and an image are shown without their children, any other node around all of them.
    by_cases htext : Tag.Kind.ofName? tag.kind = some .text
    · rw [shownTexts_text htext] at h
      rw [render, hkind, htext, render, htext]
      simp only [Tag.content_mapTexts (Tag.isText_iff.mpr htext)]
      by_cases hcontent : tag.content = ""
      · rw [hcontent, hempty]
      · exact h tag.content (by simp [soleText, hcontent])
    by_cases himage : Tag.Kind.ofName? tag.kind = some .image
    · rw [render, hkind, himage, render, himage]
      simp only [Tag.options_mapTexts]
    rw [shownTexts_of_ne htext himage] at h
    have hchildren : (tag.mapTexts f).children.map (fun child =>
          (shell (Tag.Kind.ofName? tag.kind) tag.options).itemOpening ++ render changed child ++
            (shell (Tag.Kind.ofName? tag.kind) tag.options).itemClosing) =
        tag.children.map fun child =>
          (shell (Tag.Kind.ofName? tag.kind) tag.options).itemOpening ++ render asked child ++
            (shell (Tag.Kind.ofName? tag.kind) tag.options).itemClosing := by
      rw [Tag.children_mapTexts, List.map_map]
      refine List.map_congr_left fun child hchild => ?_
      rw [Function.comp, ih child hchild fun text htext =>
        h text (List.mem_flatMap.mpr ⟨child, hchild, htext⟩)]
    rw [render_element hkind htext himage, Tag.options_mapTexts, hchildren,
      render_element rfl htext himage]

/-- A tree is shown alike both ways when the texts that are shown are plain. -/
theorem render_of_isPlain {tag : Tag} (h : ∀ text ∈ shownTexts tag, IsPlain text) :
    render true tag = render false tag := by
  have hshown := @render_mapTexts id true false tag rfl fun text htext =>
    textLeaf_of_isPlain (h text htext)
  rwa [Tag.mapTexts_id] at hshown

/-! ## What escaping adds -/

/-- Joined texts get longer when none of them gets shorter and one gets longer. -/
theorem length_flatMap_lt {α : Type} {items : List α} {f g : α → List Char}
    (hle : ∀ item ∈ items, (f item).length ≤ (g item).length) {item : α} (hmem : item ∈ items)
    (hlt : (f item).length < (g item).length) :
    (items.flatMap f).length < (items.flatMap g).length := by
  rw [List.length_flatMap, List.length_flatMap]
  exact List.sum_lt_sum _ _ hle ⟨item, hmem, hlt⟩

/-- The room of a character in a text, where escaping takes more for some and never less. -/
theorem length_breakCharacter_le (c : Char) :
    (breakCharacter c).length ≤ ((escapeCharacter c).flatMap breakCharacter).length ∧
      (c ∈ references →
        (breakCharacter c).length < ((escapeCharacter c).flatMap breakCharacter).length) := by
  by_cases hc : c ∈ references
  · have hlt : (breakCharacter c).length <
        ((escapeCharacter c).flatMap breakCharacter).length := by
      simp only [references, List.mem_cons, List.not_mem_nil, or_false] at hc
      rcases hc with rfl | rfl | rfl | rfl | rfl <;> simp [escapeCharacter, breakCharacter]
    exact ⟨hlt.le, fun _ => hlt⟩
  · rw [escapeCharacter_of_not_mem hc, List.flatMap_singleton]
    exact ⟨Nat.le_refl _, fun hmem => absurd hmem hc⟩

/-- A text as it is goes character by character into the output. -/
theorem toList_textLeaf_false (content : String) :
    (textLeaf false content).toList = content.toList.flatMap breakCharacter := by
  rw [textLeaf, if_neg Bool.false_ne_true, withBreaks, String.toList_ofList]

/-- An escaped text does so, too. -/
theorem toList_textLeaf_true (content : String) :
    (textLeaf true content).toList =
      content.toList.flatMap fun c => (escapeCharacter c).flatMap breakCharacter := by
  rw [textLeaf, if_pos rfl, withBreaks, escape, String.toList_ofList, String.toList_ofList,
    List.flatMap_assoc]

/-- Escaping makes no text shorter, and makes it longer if there is something to escape. -/
theorem length_textLeaf_le (content : String) :
    (textLeaf false content).toList.length ≤ (textLeaf true content).toList.length ∧
      (¬ IsPlain content →
        (textLeaf false content).toList.length < (textLeaf true content).toList.length) := by
  rw [toList_textLeaf_false, toList_textLeaf_true]
  have hle : ∀ c ∈ content.toList,
      (breakCharacter c).length ≤ ((escapeCharacter c).flatMap breakCharacter).length :=
    fun c _ => (length_breakCharacter_le c).1
  by_cases hplain : IsPlain content
  · rw [← toList_textLeaf_true, textLeaf_of_isPlain hplain, toList_textLeaf_false]
    exact ⟨Nat.le_refl _, fun h => absurd hplain h⟩
  · have hmem := hplain
    simp only [IsPlain, not_forall, not_not] at hmem
    obtain ⟨c, hc, hreference⟩ := hmem
    have hlt := length_flatMap_lt hle hc ((length_breakCharacter_le c).2 hreference)
    exact ⟨hlt.le, fun _ => hlt⟩

/-- A tree is shown with more characters when one of its texts has something to escape. -/
theorem length_render_lt {tag : Tag} {text : String} (htext : text ∈ shownTexts tag)
    (h : ¬ IsPlain text) :
    (render false tag).toList.length < (render true tag).toList.length := by
  have hroom : room false (shownTexts tag) < room true (shownTexts tag) :=
    length_flatMap_lt (fun content _ => (length_textLeaf_le content).1) htext
      ((length_textLeaf_le text).2 h)
  rw [(shows_shownTexts false tag).length_eq, (shows_shownTexts true tag).length_eq]
  omega

/-- The texts that are shown are contents of texts. -/
theorem exists_of_mem_shownTexts {tag : Tag} {text : String} (h : text ∈ shownTexts tag) :
    ∃ node ∈ tag.walk, node.isText = true ∧ node.content = text := by
  induction tag using Tag.induction with
  | node tag ih =>
    by_cases htext : Tag.Kind.ofName? tag.kind = some .text
    · rw [shownTexts_text htext, soleText, List.mem_filter, List.mem_singleton] at h
      exact ⟨tag, tag.mem_walk_self, Tag.isText_iff.mpr htext, h.1.symm⟩
    by_cases himage : Tag.Kind.ofName? tag.kind = some .image
    · rw [shownTexts_image himage] at h
      exact absurd h List.not_mem_nil
    rw [shownTexts_of_ne htext himage, List.mem_flatMap] at h
    obtain ⟨child, hchild, hmem⟩ := h
    obtain ⟨node, hnode, hfound⟩ := ih child hchild hmem
    exact ⟨node, Tag.mem_walk_of_mem_children hchild hnode, hfound⟩

/-- **Main result.** Escaping is for texts. To show a tree escaped is to show it as it is after the
contents of its texts have been escaped, at every depth and whatever its kinds and options. If none
of these contents has a character that is written as a reference, both outputs are the same; and
they are the same for no other reason than that no text which is shown has one. -/
theorem escaping_is_for_texts (root : Tag) :
    render true root = render false (root.mapTexts escape) ∧
      ((∀ node ∈ root.walk, node.isText = true → IsPlain node.content) →
        render true root = render false root) ∧
      (render true root = render false root ↔ ∀ text ∈ shownTexts root, IsPlain text) := by
  have hescape : ∀ content, textLeaf false (escape content) = textLeaf true content :=
    fun _ => rfl
  refine ⟨(render_mapTexts (hescape "") fun text _ => hescape text).symm, fun hplain => ?_,
    fun hsame => ?_, render_of_isPlain⟩
  · refine render_of_isPlain fun text htext => ?_
    obtain ⟨node, hnode, hkind, rfl⟩ := exists_of_mem_shownTexts htext
    exact hplain node hnode hkind
  · intro text htext
    by_contra hreference
    have hlt := length_render_lt htext hreference
    rw [hsame] at hlt
    exact Nat.lt_irrefl _ hlt

/-- A tree with signs of HTML in its options, in the content of a node that is no text and in the
content of an image, and a plain text three nodes down; and the same tree with one sign in that
text. -/
theorem escaping_is_for_texts_list :
    let tree (content : String) : Tag := ⟨"main", .ofList [("a", "<&>")], "<&>", {},
      [⟨"list", .ofList [("style", "\"")], "", {},
          [⟨"x", .empty, "'", {}, [.textLeaf content {}]⟩]⟩,
        ⟨"image", .ofList [("uri", "a&b")], "<", {}, [.textLeaf "c" {}]⟩]⟩
    (∀ node ∈ (tree "d").walk, node.isText = true → IsPlain node.content) ∧
      render true (tree "d") = render false (tree "d") ∧
      render true (tree "d<") = render false ((tree "d<").mapTexts escape) ∧
      render true (tree "d<") ≠ render false (tree "d<") := by
  intro tree
  have hplain : ∀ node ∈ (tree "d").walk, node.isText = true → IsPlain node.content := by
    have hwalk : ((tree "d").walk.filter Tag.isText).map Tag.content = ["d", "c"] := by cbv
    intro node hnode htext
    have hmem : node.content ∈ ["d", "c"] :=
      hwalk ▸ List.mem_map_of_mem (List.mem_filter.mpr ⟨hnode, htext⟩)
    rcases List.mem_pair.mp hmem with hcontent | hcontent <;>
      simp [hcontent, IsPlain, references]
  refine ⟨hplain, (escaping_is_for_texts (tree "d")).2.1 hplain,
    (escaping_is_for_texts (tree "d<")).1, fun hsame => ?_⟩
  have hshown : shownTexts (tree "d<") = ["d<"] := by cbv
  have hnone := (escaping_is_for_texts (tree "d<")).2.2.mp hsame "d<" (by simp [hshown])
  exact hnone '<' (by simp) (by simp [references])

end Html

end AtMarkup
