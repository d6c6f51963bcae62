import Mathlib
import AtMarkup.Proofs.Compiling
import AtMarkup.Proofs.KeptTags
import AtMarkup.Proofs.LastWins
import AtMarkup.Proofs.ReadBack

/-!
# Option blocks

What a tag gets from the text between its parentheses, said of documents as they are written, with
any line ends, and of any tag that the reader comes to.

* A written option is a segment whose value holds no carriage return, and it is one exactly if it is
  a segment of the grammar once its line ends are unified (`segment_unifyLineBreaks_iff`). Cutting
  at commas does not care about line ends (`splitWhere_unifyLineBreaks`), so what the grammar says
  of the unified text carries over to the text itself.
* At the closing parenthesis the reader has the options that the grammar gives the text
  (`takesOptions_of_optionText`), and it gets there with no other text (`optionText_of_run`). If the
  text holds no sign of a tag, it is the first bad piece for which the document is rejected
  (`readOptions_of_bad`).
* `options_last_wins` puts these together with what the dictionary of a list of pairs holds
  (`isLastOf_ofList`) and with what becomes of a tag whose options have been read
  (`exists_node_of_run`).
-/

namespace AtMarkup

namespace Grammar

open Markup Text

/-! ## Written options -/

/-- One option in a document whose lines may end in any way: among its blanks there may be line
ends, in its value there is none. -/
def IsWrittenOption (text : List Char) (pair : String × String) : Prop :=
  Segment text pair ∧ '\r' ∉ pair.2.toList

/-- A written option stays one when its line ends are unified. -/
theorem IsWrittenOption.unified {text : List Char} {pair : String × String}
    (h : IsWrittenOption text pair) : Segment (unifyLineBreaks text) pair := by
  obtain ⟨hsegment, hreturn⟩ := h
  obtain @⟨before, key, behind, ahead, value, after, hbefore, hkey, hbehind, hahead, hvalue,
    hafter⟩ := hsegment
  have hentry : Entry (String.ofList key, String.ofList value)
      (before ++ key ++ behind ++ ':' :: (ahead ++ '"' :: (value ++ '"' :: after))) := by
    have hwritten := @Entry.mk (String.ofList key, String.ofList value) before behind ahead after
      hbefore hbehind hahead hafter
    rwa [String.toList_ofList, String.toList_ofList] at hwritten
  rw [← @String.toList_ofList key] at hkey
  rw [← @String.toList_ofList value] at hvalue
  exact (hentry.unified hkey hreturn).segment hkey hvalue

/-- What is a segment when its line ends are unified was written as an option. -/
theorem isWrittenOption_of_unified {text : List Char} {pair : String × String}
    (h : Segment (unifyLineBreaks text) pair) : IsWrittenOption text pair := by
  generalize hunified : unifyLineBreaks text = unified at h
  obtain @⟨before, key, behind, ahead, value, after, hbefore, hkey, hbehind, hahead, hvalue,
    hafter⟩ := h
  have hreturn : '\r' ∉ value := by
    intro hmem
    refine not_mem_unifyLineBreaks text ?_
    rw [hunified]
    simp [hmem]
  have hvalueFeed : '\n' ∉ value := fun hmem => hvalue '\n' hmem (by decide)
  obtain ⟨first, others, rfl⟩ := List.exists_cons_of_ne_nil hkey.1
  obtain ⟨-, hkeyFeed⟩ := not_mem_of_isKey hkey.2
  rw [List.mem_cons, not_or] at hkeyFeed
  -- The text is taken apart from left to right: at the key, the colon and the two quotes.
  rw [List.append_assoc, List.append_assoc, List.cons_append] at hunified
  obtain ⟨before', fromKey, rfl, rfl, hfromKey⟩ :=
    exists_of_unifyLineBreaks_eq (Ne.symm hkeyFeed.1) hunified
  obtain ⟨fromGap, rfl, hfromGap⟩ := exists_of_unifyLineBreaks_eq_append hkeyFeed.2 hfromKey
  obtain ⟨behind', fromColon, rfl, rfl, hfromColon⟩ :=
    exists_of_unifyLineBreaks_eq (by decide) hfromGap
  obtain ⟨ahead', fromQuote, rfl, rfl, hfromQuote⟩ :=
    exists_of_unifyLineBreaks_eq (by decide) hfromColon
  obtain ⟨fromEnd, rfl, hfromEnd⟩ := exists_of_unifyLineBreaks_eq_append hvalueFeed hfromQuote
  obtain ⟨nothing, after', rfl, hnothing, rfl⟩ :=
    @exists_of_unifyLineBreaks_eq fromEnd [] after '"' (by decide) hfromEnd
  obtain rfl := eq_nil_of_unifyLineBreaks_eq_nil hnothing
  rw [IsGap, isBlankText_unifyLineBreaks] at hbefore hbehind hahead hafter
  refine ⟨?_, by rwa [String.toList_ofList]⟩
  have hsegment := Segment.mk hbefore hkey hbehind hahead hvalue hafter
  rwa [List.append_assoc, List.append_assoc, List.cons_append] at hsegment

/-- An option is written exactly if it is a segment once its line ends are unified. -/
theorem segment_unifyLineBreaks_iff {text : List Char} {pair : String × String} :
    Segment (unifyLineBreaks text) pair ↔ IsWrittenOption text pair :=
  ⟨isWrittenOption_of_unified, IsWrittenOption.unified⟩

/-- Cutting at commas leaves the line ends to the pieces. -/
theorem splitWhere_unifyLineBreaks (text : List Char) :
    splitWhere (· == ',') (unifyLineBreaks text) =
      (splitWhere (· == ',') text).map unifyLineBreaks := by
  have hcomma {piece : List Char} (h : ',' ∉ piece) : ',' ∉ unifyLineBreaks piece :=
    fun hmem => h ((mem_unifyLineBreaks_iff (by decide)).mp hmem)
  induction text using separator_induction ',' with
  | last piece hpiece =>
    rw [splitWhere_eq_singleton (not_isComma hpiece),
      splitWhere_eq_singleton (not_isComma (hcomma hpiece)), List.map_singleton]
  | cons piece rest hpiece ih =>
    rw [unifyLineBreaks_append_cons piece (by decide),
      splitWhere_append_cons (not_isComma hpiece) (beq_self_eq_true ','),
      splitWhere_append_cons (not_isComma (hcomma hpiece)) (beq_self_eq_true ','), ih,
      List.map_cons]

/-- The unified text is made of segments exactly if the pieces of the text are written options. -/
theorem segments_unifyLineBreaks_iff {text : List Char} {pairs : List (String × String)} :
    Segments (unifyLineBreaks text) pairs ↔
      List.Forall₂ IsWrittenOption (splitWhere (· == ',') text) pairs := by
  rw [← forall₂_splitWhere_iff, splitWhere_unifyLineBreaks, List.forall₂_map_left_iff]
  simp only [segment_unifyLineBreaks_iff]

/-- What can stand between parentheses still can when its line ends are unified. -/
theorem IsOptionBody.unified {text : List Char} (h : IsOptionBody text) :
    IsOptionBody (unifyLineBreaks text) := by
  intro c hc hsign
  have hend : c ≠ '\n' ∧ c ≠ '\r' := by
    constructor <;> rintro rfl <;> exact absurd hsign (by decide)
  exact h c ((mem_unifyLineBreaks_iff hend).mp hc) hsign

/-! ## The first bad part -/

/-- Reading stops at the first piece that is no segment. -/
theorem foldlM_addOption_of_bad {good more : List (List Char)} {bad : List Char}
    (hgood : ∀ piece ∈ good, ∃ pair, Segment piece pair) (hbody : IsOptionBody bad)
    (hbad : ¬ ∃ pair, Segment bad pair) (options : Tag.Options) :
    (good ++ bad :: more).foldlM addOption options =
      .error (.badOption (String.ofList bad)) := by
  induction good generalizing options with
  | nil =>
    have hnone : readOption? bad = none := by
      rw [Option.eq_none_iff_forall_ne_some]
      exact fun pair hpair => hbad ⟨pair, segment_of_readOption? hbody hpair⟩
    rw [List.nil_append, List.foldlM_cons, addOption, hnone]
    rfl
  | cons piece good ih =>
    obtain ⟨⟨pair, hpair⟩, hgood⟩ := List.forall_mem_cons.mp hgood
    rw [List.cons_append, List.foldlM_cons, addOption_of_segment hpair]
    exact ih hgood _

/-- A list with a piece that is no written option is bad for the first such piece. -/
theorem readOptions_of_bad {text bad : List Char} {good more : List (List Char)}
    (hbody : IsOptionBody text) (hgap : ¬ IsGap text)
    (hpieces : splitWhere (· == ',') text = good ++ bad :: more)
    (hgood : ∀ piece ∈ good, ∃ pair, IsWrittenOption piece pair)
    (hbad : ¬ ∃ pair, IsWrittenOption bad pair) :
    readOptions (unifyLineBreaks text) =
      .error (.badOption (String.ofList (unifyLineBreaks bad))) := by
  have hmem : bad ∈ splitWhere (· == ',') text := by
    rw [hpieces]
    simp
  have hblank : ¬ isBlankText (unifyLineBreaks text) = true := by
    rw [isBlankText_unifyLineBreaks]
    exact hgap
  rw [readOptions, if_neg hblank, splitWhere_unifyLineBreaks, hpieces, List.map_append,
    List.map_cons]
  refine foldlM_addOption_of_bad ?_ (hbody.of_mem_splitWhere hmem).unified ?_ _
  · intro piece hpiece
    obtain ⟨written, hwritten, rfl⟩ := List.mem_map.mp hpiece
    obtain ⟨pair, hpair⟩ := hgood written hwritten
    exact ⟨pair, hpair.unified⟩
  · rintro ⟨pair, hpair⟩
    exact hbad ⟨pair, isWrittenOption_of_unified hpair⟩

end Grammar

namespace Markup

open Grammar

variable {limit : Int} {p : Progress} {here marker : Position} {kind : String}

/-! ## From the opening parenthesis to the closing one -/

/-- A sign in an option list that does not close it is a fault. -/
theorem exists_error_of_not_isOptionBody {typed text : List Char} (hclose : ')' ∉ text)
    (h : ¬ IsOptionBody text) :
    ∃ located, run limit { p with mode := .options marker kind typed } here text =
      .error located := by
  induction text generalizing typed here with
  | nil => exact absurd (fun _ hc => absurd hc List.not_mem_nil) h
  | cons c text ih =>
    rw [List.mem_cons, not_or] at hclose
    by_cases hsign : c ∈ tagSigns
    · -- Of the signs only the closing parenthesis ends the list, and it does not come.
      have hforbidden : isForbiddenInOptions c = true := by
        simp only [tagSigns, List.mem_cons, List.not_mem_nil, or_false] at hsign
        rcases hsign with rfl | rfl | rfl | rfl | rfl
        all_goals first | rfl | exact absurd rfl hclose.1
      have hstep : step limit { p with mode := .options marker kind typed } here c =
          .error .unexpectedCharacter := by
        simp [step, stepOptions, hforbidden, Ne.symm hclose.1]
      exact ⟨_, run_cons_of_error hstep text⟩
    · have hrest : ¬ IsOptionBody text := by
        intro hbody
        exact h (List.forall_mem_cons.mpr ⟨hsign, hbody⟩)
      rw [run_cons_of_ok (step_options_of_not_mem hsign)]
      exact ih hclose.2 hrest

/-- At the closing parenthesis a bad option list is a fault. -/
theorem run_optionList_of_error {text : List Char} {fault : Fault}
    (hbody : IsOptionBody text) (hread : readOptions text = .error fault) :
    run limit { p with mode := .options marker kind [] } here (text ++ [')']) =
      .error ⟨fault, here.afterText text⟩ := by
  rw [run_append_of_ok (run_options hbody)]
  simp [run, step, stepOptions, hread]

/-! ## From the start of a document -/

/-- The reader is in the text of a block behind `before`, and a tag may be opened there. -/
def TakesTag (limit : Int) (before : List Char) : Prop :=
  ∃ p, run limit .start .origin (Text.unifyLineBreaks before) = .ok p ∧ p.mode = .text ∧
    ((p.enclosing.length + 1 : Nat) : Int) ≤ limit

/-- When a parenthesis closes the text `opened`, the reader has a tag with this name and these
options, whose `@` stands at this place, and is in front of the tag's block. -/
def TakesOptions (limit : Int) (opened : List Char) (marker : Position) (kind : String)
    (options : Tag.Options) : Prop :=
  ∃ p, run limit .start .origin (Text.unifyLineBreaks (opened ++ [')'])) = .ok p ∧
    p.mode = .optioned marker kind options

/-- A tag behind `before`, up to the parenthesis in front of its options. -/
def optionOpening (before name gap : List Char) : List Char :=
  before ++ '@' :: (name ++ (gap ++ ['(']))

variable {before name gap : List Char}

/-- The opening and the text behind it are unified apart. -/
theorem unifyLineBreaks_optionOpening (rest : List Char) :
    Text.unifyLineBreaks (optionOpening before name gap ++ rest) =
      Text.unifyLineBreaks (optionOpening before name gap) ++ Text.unifyLineBreaks rest := by
  have hapart := @Text.unifyLineBreaks_behind (before ++ '@' :: (name ++ gap)) '(' (by decide) rest
  simpa only [optionOpening, List.append_assoc, List.cons_append, List.nil_append] using hapart

/-- Behind the opening of a tag the reader is in the tag's option list. -/
theorem run_optionOpening (hrun : run limit .start .origin (Text.unifyLineBreaks before) = .ok p)
    (hmode : p.mode = .text) (hdepth : ((p.enclosing.length + 1 : Nat) : Int) ≤ limit)
    (hname : IsName name) (hgap : IsGap gap) :
    run limit .start .origin (Text.unifyLineBreaks (optionOpening before name gap)) =
      .ok { p.flush with
        mode := .options (Position.origin.afterText (Text.unifyLineBreaks before))
          (String.ofList name) [] } := by
  have hreturn : '\r' ∉ name := (not_mem_of_isKey fun c hc => .inl (hname.2 c hc)).1
  rw [optionOpening, Text.unifyLineBreaks_append_cons _ (by decide),
    Text.unifyLineBreaks_append_of_not_mem hreturn,
    Text.unifyLineBreaks_append_cons gap (by decide), Text.unifyLineBreaks_nil,
    run_append_of_ok hrun, run_marker_name hmode hdepth hname (isGap_unifyLineBreaks hgap) rfl,
    run_append_of_ok (run_named_gap (isGap_unifyLineBreaks hgap))]
  rfl

/-- The opening, the text behind it and the closing parenthesis are unified apart. -/
theorem unifyLineBreaks_optionBlock (text : List Char) :
    Text.unifyLineBreaks (optionOpening before name gap ++ text ++ [')']) =
      Text.unifyLineBreaks (optionOpening before name gap) ++
        (Text.unifyLineBreaks text ++ [')']) := by
  rw [List.append_assoc, unifyLineBreaks_optionOpening,
    Text.unifyLineBreaks_append_cons text (by decide), Text.unifyLineBreaks_nil]

/-- The text of options is taken. -/
theorem takesOptions_of_optionText (hbefore : TakesTag limit before) (hname : IsName name)
    (hgap : IsGap gap) {text : List Char} {options : Tag.Options}
    (htext : OptionText (Text.unifyLineBreaks text) options) :
    TakesOptions limit (optionOpening before name gap ++ text)
      (Position.origin.afterText (Text.unifyLineBreaks before)) (String.ofList name) options := by
  obtain ⟨p, hrun, hmode, hdepth⟩ := hbefore
  have hbody := htext.isOptionBody
  have hread := (readOptions_eq_ok_iff hbody).mpr htext
  have htaken := run_append_of_ok (run_optionOpening hrun hmode hdepth hname hgap)
    (Text.unifyLineBreaks text ++ [')'])
  rw [run_optionList hbody hread, ← unifyLineBreaks_optionBlock] at htaken
  exact ⟨_, htaken, rfl⟩

/-- What is taken is the text of options. -/
theorem optionText_of_run (hbefore : TakesTag limit before) (hname : IsName name)
    (hgap : IsGap gap) {text : List Char} (hclose : ')' ∉ text)
    (hrun : run limit .start .origin
      (Text.unifyLineBreaks (optionOpening before name gap ++ text ++ [')'])) = .ok p) :
    ∃ options, OptionText (Text.unifyLineBreaks text) options ∧
      p.mode = .optioned (Position.origin.afterText (Text.unifyLineBreaks before))
        (String.ofList name) options := by
  obtain ⟨q, hq, hmode, hdepth⟩ := hbefore
  rw [unifyLineBreaks_optionBlock,
    run_append_of_ok (run_optionOpening hq hmode hdepth hname hgap)] at hrun
  by_cases hbody : IsOptionBody (Text.unifyLineBreaks text)
  · cases hread : readOptions (Text.unifyLineBreaks text) with
    | ok options =>
      rw [run_optionList hbody hread] at hrun
      cases hrun
      exact ⟨options, (readOptions_eq_ok_iff hbody).mp hread, rfl⟩
    | error fault =>
      rw [run_optionList_of_error hbody hread] at hrun
      cases hrun
  · -- Without the closing parenthesis there is another sign, and the run does not pass it.
    have hunified : ')' ∉ Text.unifyLineBreaks text :=
      fun hmem => hclose ((Text.mem_unifyLineBreaks_iff (by decide)).mp hmem)
    obtain ⟨located, hfault⟩ := exists_error_of_not_isOptionBody hunified hbody
    rw [run_append_of_error hfault] at hrun
    cases hrun

/-- An accepted document has been read up to any place in it. -/
theorem exists_run_of_accepted {a b : List Char} {root : Tag}
    (h : (readUnified limit (a ++ b)).outcome = .ok root) :
    ∃ p, run limit .start .origin a = .ok p := by
  rw [readUnified, outcome_read, run_append] at h
  obtain ⟨last, hlast, -⟩ := bind_eq_ok_iff.mp h
  obtain ⟨p, hp, -⟩ := bind_eq_ok_iff.mp hlast
  exact ⟨p, hp⟩

/-- A document with a bad option list is rejected at the closing parenthesis. -/
theorem outcome_of_bad (hbefore : TakesTag limit before) (hname : IsName name) (hgap : IsGap gap)
    {text : List Char} {fault : Fault} (hbody : IsOptionBody text)
    (hread : readOptions (Text.unifyLineBreaks text) = .error fault) (rest : List Char) :
    (readUnified limit
        (Text.unifyLineBreaks (optionOpening before name gap ++ text ++ ')' :: rest))).outcome =
      .error ⟨fault, Position.origin.afterText
        (Text.unifyLineBreaks (optionOpening before name gap ++ text))⟩ := by
  obtain ⟨p, hrun, hmode, hdepth⟩ := hbefore
  have hfault : run limit .start .origin
      (Text.unifyLineBreaks (optionOpening before name gap ++ text ++ [')'])) =
        .error ⟨fault, Position.origin.afterText
          (Text.unifyLineBreaks (optionOpening before name gap ++ text))⟩ := by
    rw [unifyLineBreaks_optionBlock,
      run_append_of_ok (run_optionOpening hrun hmode hdepth hname hgap),
      run_optionList_of_error hbody.unified hread, unifyLineBreaks_optionOpening,
      Position.afterText_append]
  rw [readUnified, outcome_read, Text.unifyLineBreaks_behind _ (by decide),
    run_append_of_error hfault]
  rfl

end Markup

/-! ## Option blocks of documents -/

open Grammar Markup Tag.Options

/-- If not all of a list have a property, some are in front that do, and then comes one that does
not. -/
theorem exists_first_not {α : Type} {p : α → Prop} {all : List α} (h : ¬ ∀ a ∈ all, p a) :
    ∃ good bad more, all = good ++ bad :: more ∧ (∀ a ∈ good, p a) ∧ ¬ p bad := by
  induction all with
  | nil => exact absurd (fun _ ha => absurd ha List.not_mem_nil) h
  | cons a all ih =>
    by_cases ha : p a
    · have hall : ¬ ∀ b ∈ all, p b := fun hall => h (List.forall_mem_cons.mpr ⟨ha, hall⟩)
      obtain ⟨good, bad, more, rfl, hgood, hbad⟩ := ih hall
      exact ⟨a :: good, bad, more, rfl, List.forall_mem_cons.mpr ⟨ha, hgood⟩, hbad⟩
    · exact ⟨[], a, all, rfl, fun _ hb => absurd hb List.not_mem_nil, ha⟩

/-- **Later options win.** For a tag anywhere in a document where a tag may stand, with any blanks
behind its name:

* written options with commas between them are taken, and the tag gets the dictionary in which each
  name has its later value;
* what is taken from any text between the parentheses that is not blank comes from the pieces
  between the commas in this way, and each of them is a written option;
* a document that is accepted has taken the text, and has the tag with what was taken;
* if a text without signs of tags is not blank and has a piece that is no written option, an empty
  one for instance, the document is rejected at the closing parenthesis, and the diagnostic names
  the first such piece. -/
theorem options_last_wins {frames : Nat} {asked : Int} {before name gap : List Char}
    (hbefore : TakesTag (effectiveDepth frames asked) before) (hname : IsName name)
    (hgap : IsGap gap) :
    let limit := effectiveDepth frames asked
    let opened := optionOpening before name gap
    let marker := Position.origin.afterText (Text.unifyLineBreaks before)
    let kind := String.ofList name
    (∀ written pairs, pairs ≠ [] → List.Forall₂ IsWrittenOption written pairs →
      ∃ options, TakesOptions limit (opened ++ [','].intercalate written) marker kind options ∧
        IsLastOf pairs options.entries) ∧
    (∀ text options, ')' ∉ text → ¬ IsGap text →
      TakesOptions limit (opened ++ text) marker kind options →
        ∃ pairs, List.Forall₂ IsWrittenOption (Text.splitWhere (· == ',') text) pairs ∧
          IsLastOf pairs options.entries) ∧
    (∀ text rest root,
      (readMarkup frames asked (opened ++ text ++ ')' :: rest)).outcome = .ok root →
      (')' ∉ text → ∃ options, TakesOptions limit (opened ++ text) marker kind options) ∧
        ∀ options, TakesOptions limit (opened ++ text) marker kind options →
          ∃ node ∈ root.walk, node.IsWrittenAs marker kind options) ∧
    ∀ text, IsOptionBody text → ¬ IsGap text →
      (¬ ∀ piece ∈ Text.splitWhere (· == ',') text, ∃ pair, IsWrittenOption piece pair) →
        ∃ good bad more, Text.splitWhere (· == ',') text = good ++ bad :: more ∧
          (∀ piece ∈ good, ∃ pair, IsWrittenOption piece pair) ∧
          (¬ ∃ pair, IsWrittenOption bad pair) ∧
          ∀ rest, ∃ rejection,
            (parse frames asked (.text (String.ofList (opened ++ text ++ ')' :: rest)))).value =
              .error rejection ∧
            rejection.diagnostics = [⟨.markup,
              "invalid tag option format `" ++ String.ofList (Text.unifyLineBreaks bad) ++ "`",
              Position.origin.afterText (Text.unifyLineBreaks (opened ++ text))⟩] := by
  intro limit opened marker kind
  refine ⟨?taken, ?read, ?accepted, ?rejected⟩
  case taken =>
    intro written pairs hsome hwritten
    have hpieces : written ≠ [] := by
      rintro rfl
      cases hwritten
      exact hsome rfl
    have hcomma : ∀ piece ∈ written, ',' ∉ piece :=
      ((List.forall₂_and_left written pairs).mp
        (hwritten.imp fun _ _ h => ⟨h.1.not_mem_comma, h⟩)).1
    have hsegments : Segments (Text.unifyLineBreaks ([','].intercalate written)) pairs := by
      rw [segments_unifyLineBreaks_iff, splitWhere_intercalate hpieces hcomma]
      exact hwritten
    have hoptions := OptionText.list hsegments (gives_ofList pairs)
    exact ⟨_, takesOptions_of_optionText hbefore hname hgap hoptions, isLastOf_ofList pairs⟩
  case read =>
    rintro text options hclose hblank ⟨p, hrun, hmode⟩
    obtain ⟨others, htext, hothers⟩ := optionText_of_run hbefore hname hgap hclose hrun
    rw [hmode] at hothers
    injection hothers with hmarker hkind hoptions
    subst hoptions
    cases htext with
    | blank hunified =>
      rw [IsGap, Text.isBlankText_unifyLineBreaks] at hunified
      exact absurd hunified hblank
    | @list pairs _ hsegments hgives =>
      obtain rfl := hgives.eq_ofList
      exact ⟨pairs, segments_unifyLineBreaks_iff.mp hsegments, isLastOf_ofList pairs⟩
  case accepted =>
    intro text rest root haccepted
    rw [readMarkup, Text.unifyLineBreaks_behind _ (by decide)] at haccepted
    constructor
    · intro hclose
      obtain ⟨p, hrun⟩ := exists_run_of_accepted haccepted
      obtain ⟨options, -, hmode⟩ := optionText_of_run hbefore hname hgap hclose hrun
      exact ⟨options, p, hrun, hmode⟩
    · rintro options ⟨p, hrun, hmode⟩
      exact exists_node_of_run hrun (.header hmode) haccepted
  case rejected =>
    intro text hbody hblank hsome
    obtain ⟨good, bad, more, hpieces, hgood, hbad⟩ := exists_first_not hsome
    refine ⟨good, bad, more, hpieces, hgood, hbad, fun rest => ?_⟩
    have hread := readOptions_of_bad hbody hblank hpieces hgood hbad
    have houtcome := outcome_of_bad hbefore hname hgap hbody hread rest
    refine ⟨.markup _, parse_eq_markup_iff.mpr (Eq.trans ?_ houtcome), rfl⟩
    rw [Source.characters, String.toList_ofList]
    rfl

/-- A font whose color comes twice, with line ends and other blanks in its option list: the later
color wins. A comma in front of the list leaves an empty piece, and the document is rejected for
it. -/
theorem options_last_wins_font :
    let before := "@main\x7b".toList
    let opened := optionOpening before "font".toList "\r\n".toList
    let text := "color: \"red\",size\r:\"2\",\u00a0color :\"blue\"".toList
    let pairs := [("color", "red"), ("size", "2"), ("color", "blue")]
    TakesTag (effectiveDepth 1000 9) before ∧ IsName "font".toList ∧ IsGap "\r\n".toList ∧
      (∃ options root, IsLastOf pairs options.entries ∧
        (readMarkup 1000 9 (opened ++ text ++ ')' :: "\x7b\x7d\x7d".toList)).outcome = .ok root ∧
          ∃ node ∈ root.walk, node.IsWrittenAs ⟨6, 0, 6⟩ "font" options) ∧
      ∃ rejection,
        (parse 1000 9 (.text (String.ofList (opened ++ ",size:\"2\"".toList ++ ')' :: [])))).value =
          .error rejection ∧
        rejection.diagnostics = [⟨.markup, "invalid tag option format ``", ⟨22, 1, 10⟩⟩] := by
  intro before opened text pairs
  have hbefore : TakesTag (effectiveDepth 1000 9) before := ⟨_, rfl, rfl, by decide⟩
  have hname : IsName "font".toList := by decide
  have hgap : IsGap "\r\n".toList := by decide
  obtain ⟨htaken, -, haccepted, hrejected⟩ :=
    @options_last_wins 1000 9 before _ _ hbefore hname hgap
  refine ⟨hbefore, hname, hgap, ?_, ?_⟩
  · have hwritten : List.Forall₂ IsWrittenOption
        ["color: \"red\"".toList, "size\r:\"2\"".toList, "\u00a0color :\"blue\"".toList] pairs :=
      .cons ⟨segment_of_readOption? (by decide) rfl, by decide⟩
        (.cons ⟨segment_of_readOption? (by decide) rfl, by decide⟩
          (.cons ⟨segment_of_readOption? (by decide) rfl, by decide⟩ .nil))
    obtain ⟨options, hoptions, hlast⟩ := htaken _ pairs (List.cons_ne_nil _ _) hwritten
    have hread : ∃ root,
        (readMarkup 1000 9 (opened ++ text ++ ')' :: "\x7b\x7d\x7d".toList)).outcome = .ok root :=
      ⟨_, rfl⟩
    obtain ⟨root, hroot⟩ := hread
    exact ⟨options, root, hlast, hroot, (haccepted _ _ _ hroot).2 options hoptions⟩
  · have hempty : ¬ ∃ pair, IsWrittenOption [] pair := by
      rintro ⟨pair, hpair⟩
      exact absurd (readOption?_of_segment hpair.1) (by simp [readOption?])
    obtain ⟨good, bad, more, hpieces, hgood, -, hrejection⟩ :=
      hrejected ",size:\"2\"".toList (by decide) (by decide)
        fun hall => hempty (hall [] (by decide))
    obtain rfl : bad = [] := by
      cases good with
      | nil => exact (List.cons.inj hpieces).1.symm
      | cons piece good =>
        obtain rfl : piece = [] := (List.cons.inj hpieces).1.symm
        exact absurd (hgood [] List.mem_cons_self) hempty
    obtain ⟨rejection, hvalue, hdiagnostics⟩ := hrejection []
    exact ⟨rejection, hvalue, hdiagnostics⟩

end AtMarkup
