import Mathlib
import AtMarkup.Proofs.Escaping

/-!
# Effective options

Output looks at few things of a node, and of the options only at some, by the kind of the node. An
option that it looks for and does not find has a default, which has the same effect as if it were
written out. All else a node carries may differ and is not seen.

* `SameEffect`: two dictionaries that a node of a kind cannot tell apart. Then its row of the table
  is the same (`shell_eq_of_sameEffect`).
* `RendersAlike`: two trees of one shape whose nodes agree in what counts, said without any output.
  They are shown alike (`render_eq_of_rendersAlike`), by induction on the first tree.
* `WritesOut`: a default is written out somewhere in a tree. Such trees render alike
  (`rendersAlike_of_writesOut`), by induction on the way down to the node.
-/

namespace AtMarkup.Html

/-! ## Options of one node -/

/-- Two dictionaries have the same effect at a node of a kind: the options that the kind has a use
for have the same values, where an option that is not given has its default. Of the style of a list
it only counts whether this is `ordered`, and the options of a font have no defaults. -/
def SameEffect (kind : Option Tag.Kind) (a b : Tag.Options) : Prop :=
  match kind with
  | some .paragraph => a.getD "alignment" "left" = b.getD "alignment" "left"
  | some .heading =>
    a.getD "level" "1" = b.getD "level" "1" ∧
      a.getD "alignment" "left" = b.getD "alignment" "left"
  | some .list => a.get? "style" = some "ordered" ↔ b.get? "style" = some "ordered"
  | some .image | some .link => a.getD "uri" "" = b.getD "uri" ""
  | some .font =>
    a.get? "size" = b.get? "size" ∧ a.get? "family" = b.get? "family" ∧
      a.get? "color" = b.get? "color"
  | _ => True

theorem SameEffect.refl (kind : Option Tag.Kind) (options : Tag.Options) :
    SameEffect kind options options := by
  unfold SameEffect
  split <;> simp

/-- A list is ordered only if its style says so. -/
theorem getD_style_eq_ordered_iff (options : Tag.Options) :
    options.getD "style" "unordered" = "ordered" ↔ options.get? "style" = some "ordered" := by
  unfold Tag.Options.getD
  cases options.get? "style" <;> simp

/-- Options with the same effect put the same around the children of a node. -/
theorem shell_eq_of_sameEffect {kind : Option Tag.Kind} {a b : Tag.Options}
    (h : SameEffect kind a b) : shell kind a = shell kind b := by
  rcases kind with _ | kind
  · rfl
  cases kind
  case paragraph =>
    have halignment : a.getD "alignment" "left" = b.getD "alignment" "left" := h
    simp only [shell, halignment]
  case heading =>
    obtain ⟨hlevel, halignment⟩ := h
    simp only [shell, hlevel, halignment]
  case list =>
    have hstyle : (a.getD "style" "unordered" == "ordered") =
        (b.getD "style" "unordered" == "ordered") := by
      rw [Bool.eq_iff_iff, beq_iff_eq, beq_iff_eq, getD_style_eq_ordered_iff,
        getD_style_eq_ordered_iff]
      exact h
    simp only [shell, hstyle]
  case link =>
    have huri : a.getD "uri" "" = b.getD "uri" "" := h
    simp only [shell, huri]
  case font =>
    obtain ⟨hsize, hfamily, hcolor⟩ := h
    simp only [shell, fontStyle, styleOption, hsize, hfamily, hcolor]
  all_goals rfl

/-! ## Trees that are shown alike -/

/-- Two trees agree in what counts: in the kind of a node, and further in the content of a text, in
the address of an image, and for every other kind in the effect of the options and in the children,
one by one. -/
inductive RendersAlike : Tag → Tag → Prop where
  /-- Of a text the content counts. -/
  | text {a b : Tag} (ha : a.kind = "text") (hb : b.kind = "text")
      (hcontent : a.content = b.content) : RendersAlike a b
  /-- Of an image its address counts. -/
  | image {a b : Tag} (ha : a.kind = "image") (hb : b.kind = "image")
      (huri : a.options.getD "uri" "" = b.options.getD "uri" "") : RendersAlike a b
  /-- Of any other node the options count that its kind has a use for, and the children. -/
  | element {a b : Tag} (hkind : a.kind = b.kind) (htext : a.kind ≠ "text")
      (himage : a.kind ≠ "image")
      (hoptions : SameEffect (Tag.Kind.ofName? a.kind) a.options b.options)
      (hchildren : List.Forall₂ RendersAlike a.children b.children) : RendersAlike a b

theorem RendersAlike.refl (tag : Tag) : RendersAlike tag tag := by
  induction tag using Tag.induction with
  | node tag ih =>
    by_cases htext : tag.kind = "text"
    · exact .text htext htext rfl
    by_cases himage : tag.kind = "image"
    · exact .image himage himage rfl
    exact .element rfl htext himage (.refl _ _) (List.forall₂_same.mpr ih)

theorem forall₂_rendersAlike_refl (tags : List Tag) : List.Forall₂ RendersAlike tags tags :=
  List.forall₂_same.mpr fun tag _ => .refl tag

/-- A kind that is not of that name is not found under it. -/
theorem ofName?_ne_of_ne {name : String} {kind : Tag.Kind} (h : name ≠ kind.name) :
    Tag.Kind.ofName? name ≠ some kind :=
  fun hkind => h (Tag.Kind.ofName?_eq_some_iff.mp hkind).symm

/-- Lists whose members are related pair by pair have the same image under a function that does not
tell related members apart. -/
theorem map_eq_map_of_forall₂ {α β : Type} {r : α → α → Prop} {f : α → β} {as bs : List α}
    (h : List.Forall₂ r as bs) (hf : ∀ a ∈ as, ∀ b, r a b → f a = f b) : as.map f = bs.map f := by
  induction h with
  | nil => rfl
  | cons hhead _ ih =>
    rw [List.map_cons, List.map_cons, hf _ List.mem_cons_self _ hhead,
      ih fun a ha => hf a (List.mem_cons_of_mem _ ha)]

/-- Trees that agree in what counts are shown alike. -/
theorem render_eq_of_rendersAlike {a b : Tag} (h : RendersAlike a b) (escaped : Bool) :
    render escaped a = render escaped b := by
  induction a using Tag.induction generalizing b with
  | node a ih =>
    cases h with
    | text ha hb hcontent =>
      have hkind : Tag.Kind.ofName? "text" = some .text := rfl
      rw [render, ha, hkind, render, hb, hkind]
      simp only [hcontent]
    | image ha hb huri =>
      have hkind : Tag.Kind.ofName? "image" = some .image := rfl
      rw [render, ha, hkind, render, hb, hkind]
      simp only [image, huri]
    | element hkind htext himage hoptions hchildren =>
      have hshell := shell_eq_of_sameEffect hoptions
      have hitems : (a.children.map fun child =>
            (shell (Tag.Kind.ofName? a.kind) a.options).itemOpening ++ render escaped child ++
              (shell (Tag.Kind.ofName? a.kind) a.options).itemClosing) =
          b.children.map fun child =>
            (shell (Tag.Kind.ofName? a.kind) a.options).itemOpening ++ render escaped child ++
              (shell (Tag.Kind.ofName? a.kind) a.options).itemClosing := by
        apply map_eq_map_of_forall₂ hchildren
        intro child hchild other halike
        rw [ih child hchild halike]
      have htext' : Tag.Kind.ofName? a.kind ≠ some .text := ofName?_ne_of_ne htext
      have himage' : Tag.Kind.ofName? a.kind ≠ some .image := ofName?_ne_of_ne himage
      rw [render_element rfl htext' himage', render_element (by rw [hkind]) htext' himage', hitems,
        hshell]

/-! ## Defaults -/

/-- The options that have a default at a node of a kind, each with its default. -/
def defaults : Option Tag.Kind → List (String × String)
  | some .paragraph => [("alignment", "left")]
  | some .heading => [("level", "1"), ("alignment", "left")]
  | some .list => [("style", "unordered")]
  | some .image | some .link => [("uri", "")]
  | _ => []

/-- The second dictionary is the first with one more option, at whatever place. -/
structure IsWritten (name value : String) (before after : Tag.Options) : Prop where
  /-- The option was not given before. -/
  absent : before.get? name = none
  /-- It is given now. -/
  given : after.get? name = some value
  /-- All others are as before. -/
  others : ∀ other, other ≠ name → after.get? other = before.get? other

/-- A default is written out at one node of a tree. -/
inductive WritesOut : Tag → Tag → Prop where
  /-- The node is the root. -/
  | atRoot {tag : Tag} {options : Tag.Options} {name value : String}
      (hdefault : (name, value) ∈ defaults (Tag.Kind.ofName? tag.kind))
      (hwritten : IsWritten name value tag.options options) :
      WritesOut tag { tag with options := options }
  /-- The node is in a child of the root. -/
  | inChild {tag child changed : Tag} {front back : List Tag}
      (hchildren : tag.children = front ++ child :: back) (hchild : WritesOut child changed) :
      WritesOut tag { tag with children := front ++ changed :: back }

section

variable {name value : String} {before after : Tag.Options}

/-- A default that is written out is what stood for it before. -/
theorem IsWritten.getD_eq (h : IsWritten name value before after) :
    before.getD name value = after.getD name value := by
  rw [Tag.Options.getD, h.absent, Tag.Options.getD, h.given]
  rfl

theorem IsWritten.getD_eq_of_ne (h : IsWritten name value before after) {other : String}
    (hother : other ≠ name) (default : String) :
    before.getD other default = after.getD other default := by
  rw [Tag.Options.getD, Tag.Options.getD, h.others other hother]

/-- A default that is written out has no effect. -/
theorem sameEffect_of_isWritten {kind : Option Tag.Kind} (hdefault : (name, value) ∈ defaults kind)
    (h : IsWritten name value before after) : SameEffect kind before after := by
  rcases kind with _ | kind
  · trivial
  cases kind
  case paragraph =>
    obtain ⟨rfl, rfl⟩ := Prod.mk.inj (List.mem_singleton.mp hdefault)
    exact h.getD_eq
  case heading =>
    rcases List.mem_pair.mp hdefault with hlevel | halignment
    · obtain ⟨rfl, rfl⟩ := Prod.mk.inj hlevel
      exact ⟨h.getD_eq, h.getD_eq_of_ne (by decide) "left"⟩
    · obtain ⟨rfl, rfl⟩ := Prod.mk.inj halignment
      exact ⟨h.getD_eq_of_ne (by decide) "1", h.getD_eq⟩
  case list =>
    obtain ⟨rfl, rfl⟩ := Prod.mk.inj (List.mem_singleton.mp hdefault)
    simp [SameEffect, h.absent, h.given]
  case image =>
    obtain ⟨rfl, rfl⟩ := Prod.mk.inj (List.mem_singleton.mp hdefault)
    exact h.getD_eq
  case link =>
    obtain ⟨rfl, rfl⟩ := Prod.mk.inj (List.mem_singleton.mp hdefault)
    exact h.getD_eq
  all_goals cases hdefault

end

/-- Trees with and without a default written out agree in what counts. -/
theorem rendersAlike_of_writesOut {a b : Tag} (h : WritesOut a b) : RendersAlike a b := by
  induction h with
  | @atRoot tag options name value hdefault hwritten =>
    have heffect := sameEffect_of_isWritten hdefault hwritten
    by_cases htext : tag.kind = "text"
    · exact .text htext htext rfl
    by_cases himage : tag.kind = "image"
    · rw [himage] at heffect
      exact .image himage himage heffect
    exact .element rfl htext himage heffect (forall₂_rendersAlike_refl _)
  | @inChild tag child changed front back hchildren _ ih =>
    by_cases htext : tag.kind = "text"
    · exact .text htext htext rfl
    by_cases himage : tag.kind = "image"
    · exact .image himage himage rfl
    refine .element rfl htext himage (.refl _ _) ?_
    rw [hchildren]
    exact List.rel_append (forall₂_rendersAlike_refl front)
      (.cons ih (forall₂_rendersAlike_refl back))

/-! ## Output -/

/-- **Main result.** Output depends on what counts and on nothing else: trees that agree in this are
shown alike, their text escaped or as it is. In particular defaults may be written out anywhere in a
tree, any number of them. -/
theorem effective_options_decide (escaped : Bool) :
    (∀ a b, RendersAlike a b → render escaped a = render escaped b) ∧
      ∀ a b, Relation.ReflTransGen WritesOut a b → render escaped a = render escaped b := by
  refine ⟨fun a b h => render_eq_of_rendersAlike h escaped, ?_⟩
  intro a b h
  induction h with
  | refl => rfl
  | tail _ hlast ih =>
    rw [ih, render_eq_of_rendersAlike (rendersAlike_of_writesOut hlast) escaped]

/-- A heading and an image, once with options, contents and children that are not seen, and once
with one default written out and the other not. In a third tree both are. -/
theorem effective_options_decide_heading :
    let text : Tag := ⟨"text", .ofList [("level", "9")], "Hi", ⟨4, 1, 2⟩, []⟩
    let a : Tag := ⟨"main", .empty, "", {},
      [⟨"heading", .ofList [("mood", "x"), ("level", "1")], "unseen", {}, [.textLeaf "Hi" {}]⟩,
        ⟨"image", .empty, "", {}, [.textLeaf "unseen" {}]⟩]⟩
    let b : Tag := ⟨"main", .ofList [("uri", "u")], "", ⟨1, 0, 1⟩,
      [⟨"heading", .ofList [("alignment", "left")], "", ⟨9, 2, 3⟩, [text]⟩,
        ⟨"image", .ofList [("uri", "")], "", {}, []⟩]⟩
    let c : Tag := { b with children :=
      [⟨"heading", .ofList [("level", "1"), ("alignment", "left")], "", ⟨9, 2, 3⟩, [text]⟩,
        ⟨"image", .ofList [("uri", "")], "", {}, []⟩] }
    RendersAlike a b ∧ render true a = render true b ∧ WritesOut b c ∧
      render true b = render true c := by
  intro text a b c
  have halike : RendersAlike a b := by
    refine .element rfl (by decide) (by decide) trivial (.cons ?_ (.cons ?_ .nil))
    · exact .element rfl (by decide) (by decide) ⟨by decide, by decide⟩
        (.cons (.text rfl rfl rfl) .nil)
    · exact .image rfl rfl (by decide)
  have hwritten : IsWritten "level" "1" (.ofList [("alignment", "left")])
      (.ofList [("level", "1"), ("alignment", "left")]) := by
    refine ⟨by decide, by decide, ?_⟩
    intro other hother
    simp [Tag.Options.ofList, Tag.Options.get?_insert, hother]
  have hdefault : WritesOut b c :=
    @WritesOut.inChild b _ _ [] _ rfl (.atRoot (by decide) hwritten)
  exact ⟨halike, (effective_options_decide true).1 a b halike, hdefault,
    (effective_options_decide true).2 b c (.single hdefault)⟩

end AtMarkup.Html
