import Mathlib
import AtMarkup.Proofs.Acceptance

/-!
# The depth limit

A limit on the depth of tags decides one thing: at which `@` the reader gives up. Whatever it does
not give up on it reads as it would without a limit.

* `Tag.levels` lists the nodes of a tree in document order with the number of tags on the way down
  to each, and `Tag.firstTooDeep?` is the first tag among them that lies below a limit.
* **Larger limits** (`step_of_le`, `run_of_le`): a step that does not find its tag too deep is the
  same under any larger limit, hence a run is.
* **Smaller limits** (`run_items_of_tooDeep`): along a text that the grammar spells, the reader
  gives up at the first tag in document order that lies below the limit. The induction is on the
  derivation; a tag whose inside fits is passed as a whole, by `run_tag`.
* `depth_limit_exact` is both for documents.
-/

namespace AtMarkup

namespace Tag

/-! ## Levels -/

/-- The nodes of a tree in document order, each with its level: how many tags there are on the way
down to it, when `above` are above the tree. A tag counts itself and a text leaf does not. -/
def levels (above : Nat) (tag : Tag) : List (Nat × Tag) :=
  let level := above + if tag.content = "" then 1 else 0
  (level, tag) :: tag.children.flatMap (levels level)
termination_by sizeOf tag
decreasing_by exact sizeOf_lt_of_mem_children ‹_›

/-- Whether a node is a tag that lies below a limit. -/
def isTooDeep (limit : Int) (entry : Nat × Tag) : Bool :=
  entry.2.content == "" && decide (limit < entry.1)

/-- The first tag in document order that lies below a limit, when `above` tags are above the
nodes. -/
def firstTooDeep? (limit : Int) (above : Nat) (nodes : List Tag) : Option Tag :=
  ((nodes.flatMap (levels above)).find? (isTooDeep limit)).map Prod.snd

/-- A bound on the levels of the tags in a tree is a bound on how deep they are nested. -/
theorem add_nesting_le_of_levels {tag : Tag} {above bound : Nat} (habove : above ≤ bound)
    (h : ∀ entry ∈ tag.levels above, entry.2.content = "" → entry.1 ≤ bound) :
    above + tag.nesting ≤ bound := by
  induction tag using Tag.induction generalizing above with
  | node tag ih =>
    rw [levels, List.forall_mem_cons] at h
    obtain ⟨hself, hbelow⟩ := h
    rw [nesting, ← Nat.add_assoc]
    set level := above + if tag.content = "" then 1 else 0 with hlevel
    have hle : level ≤ bound := by
      by_cases hcontent : tag.content = ""
      · exact hself hcontent
      · rwa [hlevel, if_neg hcontent]
    have hchildren : ∀ child ∈ tag.children, level + child.nesting ≤ bound := by
      intro child hchild
      refine ih child hchild hle fun entry hentry => hbelow entry ?_
      exact List.mem_flatMap.mpr ⟨child, hchild, hentry⟩
    have hmax : (tag.children.map nesting).foldr max 0 ≤ bound - level := by
      refine foldr_max_le_iff.mpr (List.forall_mem_map.mpr fun child hchild => ?_)
      exact Nat.le_sub_of_add_le' (hchildren child hchild)
    omega

/-- Where no tag lies below the limit, none is nested deeper. -/
theorem add_nesting_le_of_firstTooDeep?_eq_none {limit : Int} {above : Nat} {nodes : List Tag}
    (habove : above ≤ limit.toNat) (h : firstTooDeep? limit above nodes = none) :
    ∀ node ∈ nodes, above + node.nesting ≤ limit.toNat := by
  intro node hnode
  refine add_nesting_le_of_levels habove fun entry hentry hcontent => ?_
  rw [firstTooDeep?, Option.map_eq_none_iff, List.find?_eq_none] at h
  have hentry := h entry (List.mem_flatMap.mpr ⟨node, hnode, hentry⟩)
  simp only [isTooDeep, hcontent, beq_self_eq_true, Bool.true_and, decide_eq_true_eq] at hentry
  omega

/-- The first tag in two lists is in the first, or else in the second. -/
theorem firstTooDeep?_append (limit : Int) (above : Nat) (a b : List Tag) :
    firstTooDeep? limit above (a ++ b) =
      (firstTooDeep? limit above a).or (firstTooDeep? limit above b) := by
  rw [firstTooDeep?, List.flatMap_append, List.find?_append, Option.map_or]
  rfl

/-- A tag in front lies below the limit itself, or what is inside it is looked at first. -/
theorem firstTooDeep?_cons {tag : Tag} (h : tag.content = "") (limit : Int) (above : Nat)
    (nodes : List Tag) :
    firstTooDeep? limit above (tag :: nodes) =
      if limit < above + 1 then some tag
      else (firstTooDeep? limit (above + 1) tag.children).or (firstTooDeep? limit above nodes) := by
  rw [firstTooDeep?, List.flatMap_cons, levels, if_pos h, List.cons_append, List.find?_cons]
  simp only [isTooDeep, h, beq_self_eq_true, Bool.true_and, Nat.cast_add, Nat.cast_one]
  split
  · rename_i hdeep
    rw [if_pos (of_decide_eq_true hdeep)]
    rfl
  · rename_i hdeep
    rw [if_neg (of_decide_eq_false hdeep), List.find?_append, Option.map_or]
    rfl

end Tag

namespace Grammar

open Tag

/-- The leaf of a run is no tag. -/
theorem firstTooDeep?_leaf? (limit : Int) (above : Nat) (run : List (Char × Position)) :
    firstTooDeep? limit above (leaf? run).toList = none := by
  cases hleaf : leaf? run with
  | none => rfl
  | some leaf =>
    obtain ⟨content, position, hcontent, rfl⟩ := exists_of_leaf?_eq_some hleaf
    have hlevels : (textLeaf content position).levels above =
        [(above, textLeaf content position)] := by
      rw [levels]
      simp [textLeaf, hcontent]
    have hnot : isTooDeep limit (above, textLeaf content position) = false := by
      simp [isTooDeep, textLeaf, hcontent]
    rw [Option.toList_some, firstTooDeep?, List.flatMap_singleton, hlevels, List.find?_singleton,
      hnot]
    rfl

/-- Behind a run, a tag is looked at first. -/
theorem firstTooDeep?_nodesAfter_tag {tag : Tag} (h : tag.content = "") (limit : Int) (above : Nat)
    (run : List (Char × Position)) (items : List Item) :
    firstTooDeep? limit above (nodesAfter run (.tag tag :: items)) =
      if limit < above + 1 then some tag
      else (firstTooDeep? limit (above + 1) tag.children).or
        (firstTooDeep? limit above (nodes items)) := by
  rw [nodesAfter, firstTooDeep?_append, firstTooDeep?_leaf?, Option.none_or, firstTooDeep?_cons h]
  rfl

/-- Items fit where no tag lies below the limit. -/
theorem fits_of_firstTooDeep?_eq_none {limit : Int} {depth : Nat} {items : List Item}
    (hdepth : (depth : Int) ≤ limit) (h : firstTooDeep? limit depth (nodes items) = none) :
    Fits limit depth items := by
  intro tag htag
  have := add_nesting_le_of_firstTooDeep?_eq_none (by omega) h tag (mem_nodesAfter htag [])
  omega

/-- A header starts with its `@`. -/
theorem Header.exists_cons {header : List Char} {kind : String} {options : Tag.Options}
    (h : Header header kind options) : ∃ tail, header = '@' :: tail := by
  cases h <;> exact ⟨_, rfl⟩

end Grammar

namespace Markup

open Grammar Tag

variable {limit larger : Int} {p : Progress} {here : Position}

/-! ## Larger limits -/

/-- In text, the reader gives up at an `@` whose tag lies too deep. -/
theorem step_text_marker_of_lt (hmode : p.mode = .text) (h : limit < p.enclosing.length + 1) :
    step limit p here '@' = .error (.tooDeep limit) := by
  rw [step, hmode]
  exact if_pos h

/-- A step that does not find its tag too deep is the same under a larger limit. -/
theorem step_of_le (hle : limit ≤ larger) {c : Char}
    (h : ∀ n, step limit p here c ≠ .error (.tooDeep n)) :
    step larger p here c = step limit p here c := by
  cases hmode : p.mode with
  | text =>
    by_cases hmarker : c = '@'
    · subst hmarker
      have hnot : ¬ limit < p.enclosing.length + 1 :=
        fun hlt => h limit (step_text_marker_of_lt hmode hlt)
      rw [step_text_marker hmode (by omega), step_text_marker hmode (by omega)]
    · simp only [step, hmode, stepText, if_neg hmarker]
  | escaped | name | named | options | optioned => simp only [step, hmode]

/-- A run that does not find a tag too deep is the same under a larger limit. -/
theorem run_of_le (hle : limit ≤ larger) {text : List Char}
    (h : ∀ n position, run limit p here text ≠ .error ⟨.tooDeep n, position⟩) :
    run larger p here text = run limit p here text := by
  induction text generalizing p here with
  | nil => rfl
  | cons c text ih =>
    have hstep : step larger p here c = step limit p here c :=
      step_of_le hle fun n hdeep => h n here (run_cons_of_error hdeep text)
    cases hsmaller : step limit p here c with
    | ok q =>
      rw [run_cons_of_ok hsmaller] at h ⊢
      rw [run_cons_of_ok (hstep.trans hsmaller)]
      exact ih h
    | error fault =>
      rw [run_cons_of_error hsmaller, run_cons_of_error (hstep.trans hsmaller)]

/-- A document in which no tag is too deep has the same outcome under a larger limit. -/
theorem outcome_readUnified_of_le (hle : limit ≤ larger) {text : List Char}
    (h : ∀ n position, (readUnified limit text).outcome ≠ .error ⟨.tooDeep n, position⟩) :
    (readUnified larger text).outcome = (readUnified limit text).outcome := by
  simp only [readUnified, outcome_read] at h ⊢
  rw [run_of_le hle fun n position hrun => h n position (by rw [hrun]; rfl)]

/-! ## Smaller limits -/

/-- Along what the grammar spells, the reader gives up at the first tag that lies too deep. -/
theorem run_items_of_tooDeep {text : List Char} {items : List Item} (h : Items here text items)
    (hmode : p.mode = .text) {before : List (Char × Position)} {tag : Tag}
    (hdeep : firstTooDeep? limit p.enclosing.length (nodesAfter before items) = some tag) :
    run limit p here text = .error ⟨.tooDeep limit, tag.position⟩ := by
  induction h generalizing p before with
  | nil here =>
    rw [nodesAfter, firstTooDeep?_leaf?] at hdeep
    cases hdeep
  | unit hunit hrest ih =>
    rw [run_append_of_ok (run_unit hunit hmode)]
    exact ih rfl hdeep
  | @tag here header body rest kind options inner items hheader hbody hrest ihbody ihrest =>
    rw [firstTooDeep?_nodesAfter_tag rfl] at hdeep
    split at hdeep
    · rename_i hlt
      obtain ⟨tail, rfl⟩ := hheader.exists_cons
      obtain rfl := Option.some.inj hdeep
      exact run_cons_of_error (step_text_marker_of_lt hmode hlt) _
    · rename_i hnot
      have hdepth : ((p.enclosing.length + 1 : Nat) : Int) ≤ limit := by omega
      cases hinner : firstTooDeep? limit (p.enclosing.length + 1) (nodes inner) with
      | some first =>
        rw [hinner, Option.some_or] at hdeep
        obtain rfl := Option.some.inj hdeep
        have hopened : run limit p here (header ++ body) =
            .error ⟨.tooDeep limit, first.position⟩ := by
          rw [run_append_of_ok (run_header hheader hmode hdepth)]
          exact ihbody rfl hinner
        rw [List.append_assoc, run_append_of_error hopened]
      | none =>
        rw [hinner, Option.none_or] at hdeep
        have hfits : Fits limit (p.enclosing.length + 1) inner :=
          fits_of_firstTooDeep?_eq_none hdepth hinner
        rw [run_append_of_ok (run_tag hheader hmode hdepth (run_items hbody rfl hfits))]
        exact ihrest rfl hdeep

/-- In a document the reader gives up at the first tag that lies too deep. -/
theorem run_of_document_of_tooDeep {text : List Char} {top : List Tag} (h : Document text top)
    {tag : Tag} (hdeep : firstTooDeep? limit 0 top = some tag) :
    run limit .start .origin text = .error ⟨.tooDeep limit, tag.position⟩ := by
  cases h with
  | whole h => exact run_items_of_tooDeep h rfl hdeep
  | dangling h => exact run_append_of_error (run_items_of_tooDeep h rfl hdeep) _

/-- A document that is read under one limit is read under another, or the first tag below that one
is reported. -/
theorem outcome_readUnified_of_ok {text : List Char} {root : Tag}
    (h : (readUnified larger text).outcome = .ok root) :
    (readUnified limit text).outcome =
      match firstTooDeep? limit 0 [root] with
      | none => .ok root
      | some tag => .error ⟨.tooDeep limit, tag.position⟩ := by
  obtain ⟨hdocument, -⟩ := outcome_readUnified_eq_ok_iff.mp h
  cases hdeep : firstTooDeep? limit 0 [root] with
  | none =>
    have hnesting := add_nesting_le_of_firstTooDeep?_eq_none (Nat.zero_le _) hdeep root
      List.mem_cons_self
    exact outcome_readUnified_eq_ok_iff.mpr ⟨hdocument, by omega⟩
  | some tag =>
    rw [readUnified, outcome_read, run_of_document_of_tooDeep hdocument hdeep]
    rfl

end Markup

/-! ## Documents -/

/-- Honouring limits keeps their order. -/
theorem effectiveDepth_mono {frames : Nat} {asked larger : Int} (h : asked ≤ larger) :
    effectiveDepth frames asked ≤ effectiveDepth frames larger :=
  min_le_min_right _ h

/-- **The depth limit is exact and changes nothing else.** Let two limits be asked for, of any size
and sign. A document that is not rejected for its depth under the smaller one is treated alike under
the larger one. And a document that can be read under the larger one can be read under the smaller
one, with the same tree, if no tag of it has a level above the limit that is honoured; otherwise the
first such tag in document order is reported, with that limit. -/
theorem depth_limit_exact {frames : Nat} {asked larger : Int} (hle : asked ≤ larger)
    (source : Source) :
    ((∀ limit position,
        (parse frames asked source).value ≠ .error (.markup ⟨.tooDeep limit, position⟩)) →
      parse frames larger source = parse frames asked source) ∧
    ∀ root, (readMarkup frames larger source.characters).outcome = .ok root →
      (readMarkup frames asked source.characters).outcome =
        match Tag.firstTooDeep? (effectiveDepth frames asked) 0 [root] with
        | none => .ok root
        | some tag => .error ⟨.tooDeep (effectiveDepth frames asked), tag.position⟩ := by
  refine ⟨fun h => ?_, fun root hroot => Markup.outcome_readUnified_of_ok hroot⟩
  have hread : (readMarkup frames larger source.characters).outcome =
      (readMarkup frames asked source.characters).outcome :=
    Markup.outcome_readUnified_of_le (effectiveDepth_mono hle)
      fun n position hdeep => h n position (parse_eq_markup_iff.mpr hdeep)
  rw [parse, hread, parse]

/-- A document with tags on three levels: a limit of three is as good as a thousand, under two the
first tag of the third level is reported, and under a limit below zero the root is. -/
theorem depth_limit_exact_three_levels :
    let source := Source.text "@main\x7b@a\x7b\x7d@b\x7b\n@c\x7bx\x7d\x7d@d\x7b@e\x7b\x7d\x7d\x7d"
    ∃ root, (readMarkup 1000 1000 source.characters).outcome = .ok root ∧
      parse 1000 1000 source = parse 1000 3 source ∧
      (readMarkup 1000 3 source.characters).outcome = .ok root ∧
      (readMarkup 1000 2 source.characters).outcome = .error ⟨.tooDeep 2, ⟨14, 1, 0⟩⟩ ∧
      (readMarkup 1000 (-7) source.characters).outcome = .error ⟨.tooDeep (-7), ⟨0, 0, 0⟩⟩ := by
  intro source
  let root : Tag := ⟨"main", .empty, "", ⟨0, 0, 0⟩,
    [⟨"a", .empty, "", ⟨6, 0, 6⟩, []⟩,
      ⟨"b", .empty, "", ⟨10, 0, 10⟩, [⟨"c", .empty, "", ⟨14, 1, 0⟩, [.textLeaf "x" ⟨17, 1, 3⟩]⟩]⟩,
      ⟨"d", .empty, "", ⟨20, 1, 6⟩, [⟨"e", .empty, "", ⟨23, 1, 9⟩, []⟩]⟩]⟩
  have hread : (readMarkup 1000 1000 source.characters).outcome = .ok root := by cbv
  have hparse : (parse 1000 3 source).value = .ok root := by cbv
  have hfits : Tag.firstTooDeep? (effectiveDepth 1000 3) 0 [root] = none := by cbv
  have htwo : (Tag.firstTooDeep? (effectiveDepth 1000 2) 0 [root]).map Tag.position =
      some ⟨14, 1, 0⟩ := by cbv
  have hnegative : (Tag.firstTooDeep? (effectiveDepth 1000 (-7)) 0 [root]).map Tag.position =
      some ⟨0, 0, 0⟩ := by cbv
  refine ⟨root, hread, ?_, ?_, ?_, ?_⟩
  · exact (depth_limit_exact (by decide) source).1 fun limit position h => by
      rw [hparse] at h
      cases h
  · rw [(depth_limit_exact (by decide) source).2 root hread, hfits]
  · rw [(depth_limit_exact (by decide) source).2 root hread]
    obtain ⟨tag, htag, hposition⟩ := Option.map_eq_some_iff.mp htwo
    rw [htag, ← hposition]
    rfl
  · rw [(depth_limit_exact (by decide) source).2 root hread]
    obtain ⟨tag, htag, hposition⟩ := Option.map_eq_some_iff.mp hnegative
    rw [htag, ← hposition]
    rfl

end AtMarkup
