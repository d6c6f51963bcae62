import Mathlib
import AtMarkup.Document
import AtMarkup.Proofs.LineBreaks

/-!
# Line ends do not show

A document says the same whichever way its lines end. Its text is unified before anything else is
done with it, so all that is to be shown is about `Text.unifyLineBreaks`.

* Unifying undoes the choice of a line end (`unifyLineBreaks_withLineEnds`). The choice is made once
  for a whole text: a carriage return for one line and a line feed for the next would be one line
  end together.
* It may be said as two replacements, one after the other: first every CR LF, then every CR that is
  left (`unifyLineBreaks_eq_replaceAll`). The second finds nothing that the first has written.
* Documents whose texts are unified to the same are parsed and compiled alike, in result and events
  (`parse_of_unified_eq`, `compile_of_unified_eq`), so their positions are counted alike, and the
  parts of the text that a fault names are unified, too.
-/

namespace AtMarkup

namespace Text

/-! ## The choice of a line end -/

/-- The ways in which a line may end. -/
def lineEnds : List (List Char) :=
  [['\n'], ['\r', '\n'], ['\r']]

/-- The text with every line feed written as the given line end. -/
def withLineEnds (ending text : List Char) : List Char :=
  text.flatMap fun c => if c = '\n' then ending else [c]

/-- Any line end is unified to a line feed, if no line feed follows. -/
theorem unifyLineBreaks_lineEnd {ending rest : List Char} (hending : ending ∈ lineEnds)
    (h : ending = ['\r'] → rest.head? ≠ some '\n') :
    unifyLineBreaks (ending ++ rest) = '\n' :: unifyLineBreaks rest := by
  simp only [lineEnds, List.mem_cons, List.not_mem_nil, or_false] at hending
  rcases hending with rfl | rfl | rfl
  · exact unifyLineBreaks_cons (by decide) rest
  · exact unifyLineBreaks_crlf rest
  · exact unifyLineBreaks_cr (h rfl)

/-- A text whose lines end in carriage returns has no line feed. -/
theorem not_mem_withLineEnds (text : List Char) : '\n' ∉ withLineEnds ['\r'] text := by
  intro hmem
  obtain ⟨c, -, hmem⟩ := List.mem_flatMap.mp hmem
  split at hmem
  · exact absurd hmem (by decide)
  · rename_i hc
    exact hc (List.mem_singleton.mp hmem).symm

/-- Unifying undoes the choice of a line end. -/
theorem unifyLineBreaks_withLineEnds {ending text : List Char} (hending : ending ∈ lineEnds)
    (htext : '\r' ∉ text) : unifyLineBreaks (withLineEnds ending text) = text := by
  induction text with
  | nil => rfl
  | cons c text ih =>
    rw [List.mem_cons, not_or] at htext
    have hcons : withLineEnds ending (c :: text) =
        (if c = '\n' then ending else [c]) ++ withLineEnds ending text := List.flatMap_cons
    rw [hcons]
    split
    · rename_i hc
      rw [unifyLineBreaks_lineEnd hending, ih htext.2, hc]
      -- A lone carriage return needs that no line feed follows, and the text has none left.
      rintro rfl hhead
      exact not_mem_withLineEnds text (List.mem_of_mem_head? hhead)
    · rw [List.singleton_append, unifyLineBreaks_cons (Ne.symm htext.1), ih htext.2]

/-! ## Two replacements -/

/-- The text with a pattern replaced wherever it stands, from left to right. The pattern has a first
character and possibly others behind it. -/
def replaceAll (first : Char) (others replacement : List Char) : List Char → List Char
  | [] => []
  | c :: rest =>
    if c = first ∧ others <+: rest then
      replacement ++ replaceAll first others replacement (rest.drop others.length)
    else c :: replaceAll first others replacement rest
termination_by text => text.length
decreasing_by
  · exact Nat.lt_succ_of_le (List.drop_sublist _ _).length_le
  · exact Nat.lt_succ_self _

section

variable {first : Char} {others replacement rest : List Char}

/-- The pattern is replaced where it stands. -/
theorem replaceAll_of_pattern :
    replaceAll first others replacement (first :: (others ++ rest)) =
      replacement ++ replaceAll first others replacement rest := by
  rw [replaceAll, if_pos ⟨rfl, List.prefix_append others rest⟩, List.drop_left]

/-- What does not start the pattern is kept. -/
theorem replaceAll_of_not_pattern {c : Char} (h : ¬ (c = first ∧ others <+: rest)) :
    replaceAll first others replacement (c :: rest) =
      c :: replaceAll first others replacement rest := by
  rw [replaceAll, if_neg h]

end

/-- Line ends are unified by two replacements, of CR LF and then of CR. -/
theorem unifyLineBreaks_eq_replaceAll (text : List Char) :
    unifyLineBreaks text =
      replaceAll '\r' [] ['\n'] (replaceAll '\r' ['\n'] ['\n'] text) := by
  induction text using lineBreak_induction with
  | nil => rw [replaceAll, replaceAll, unifyLineBreaks_nil]
  | crlf rest ih =>
    have hfirst : replaceAll '\r' ['\n'] ['\n'] ('\r' :: '\n' :: rest) =
        '\n' :: replaceAll '\r' ['\n'] ['\n'] rest := replaceAll_of_pattern
    rw [unifyLineBreaks_crlf, hfirst, replaceAll_of_not_pattern (by simp), ih]
  | cr rest hhead ih =>
    have hfirst : ¬ ('\r' = '\r' ∧ ['\n'] <+: rest) := by
      rintro ⟨-, tail, rfl⟩
      exact hhead rfl
    have hsecond (rest : List Char) : replaceAll '\r' [] ['\n'] ('\r' :: rest) =
        '\n' :: replaceAll '\r' [] ['\n'] rest := replaceAll_of_pattern
    rw [unifyLineBreaks_cr hhead, replaceAll_of_not_pattern hfirst, hsecond, ih]
  | cons c rest hc ih =>
    have hother {others : List Char} : ¬ (c = '\r' ∧ others <+: rest) := fun h => hc h.1
    rw [unifyLineBreaks_cons hc, replaceAll_of_not_pattern hother,
      replaceAll_of_not_pattern (fun h => hc h.1), ih]

end Text

/-! ## Documents -/

/-- Documents that are unified to the same are parsed alike, the events included. -/
theorem parse_of_unified_eq {a b : Source}
    (h : Text.unifyLineBreaks a.characters = Text.unifyLineBreaks b.characters) (frames : Nat)
    (asked : Int) :
    parse frames asked a = parse frames asked b := by
  unfold parse readMarkup
  rw [h]

/-- Documents that are unified to the same are compiled alike, the events included. -/
theorem compile_of_unified_eq {a b : Source}
    (h : Text.unifyLineBreaks a.characters = Text.unifyLineBreaks b.characters)
    (settings : Settings) (escaped : Bool) :
    compile settings escaped a = compile settings escaped b := by
  unfold compile
  rw [parse_of_unified_eq h]

/-- **Line ends do not show.** A text without carriage returns may have its line feeds written in
any of the three ways: it is parsed and compiled to the same, be it a tree with its positions, an
output with its dump or a rejection with its messages and positions. Any text whatsoever may be
unified beforehand. Unifying twice is unifying once, leaves no carriage return, and is replacing
every CR LF and then every CR. -/
theorem line_ends_do_not_show :
    (∀ text : String, '\r' ∉ text.toList → ∀ ending ∈ Text.lineEnds,
      let rewritten : Source := .text (String.ofList (Text.withLineEnds ending text.toList))
      (∀ frames asked, parse frames asked rewritten = parse frames asked (.text text)) ∧
        ∀ settings escaped,
          compile settings escaped rewritten = compile settings escaped (.text text)) ∧
    ∀ text : String,
      let unified := Text.unifyLineBreaks text.toList
      (∀ frames asked,
        parse frames asked (.text (String.ofList unified)) = parse frames asked (.text text)) ∧
        (∀ settings escaped, compile settings escaped (.text (String.ofList unified)) =
          compile settings escaped (.text text)) ∧
        Text.unifyLineBreaks unified = unified ∧ '\r' ∉ unified ∧
        unified = Text.replaceAll '\r' [] ['\n']
          (Text.replaceAll '\r' ['\n'] ['\n'] text.toList) := by
  constructor
  · intro text htext ending hending rewritten
    have hsame : Text.unifyLineBreaks rewritten.characters =
        Text.unifyLineBreaks (Source.text text).characters := by
      show Text.unifyLineBreaks (String.ofList (Text.withLineEnds ending text.toList)).toList =
        Text.unifyLineBreaks text.toList
      rw [String.toList_ofList, Text.unifyLineBreaks_withLineEnds hending htext,
        Text.unifyLineBreaks_of_not_mem htext]
    exact ⟨parse_of_unified_eq hsame, compile_of_unified_eq hsame⟩
  · intro text unified
    have hreturn : '\r' ∉ unified := Text.not_mem_unifyLineBreaks text.toList
    have hidempotent : Text.unifyLineBreaks unified = unified :=
      Text.unifyLineBreaks_of_not_mem hreturn
    have hsame : Text.unifyLineBreaks (Source.text (String.ofList unified)).characters =
        Text.unifyLineBreaks (Source.text text).characters := by
      show Text.unifyLineBreaks (String.ofList unified).toList = unified
      rw [String.toList_ofList, hidempotent]
    exact ⟨parse_of_unified_eq hsame, compile_of_unified_eq hsame, hidempotent, hreturn,
      Text.unifyLineBreaks_eq_replaceAll text.toList⟩

/-- A fault behind a blank line, in an option that goes over two lines: with any line ends it names
the same text at the same place. -/
theorem line_ends_do_not_show_option :
    let text := "@main\x7b\n\n@link(a\n: b)\x7b\x7d\x7d"
    '\r' ∉ text.toList ∧
      String.ofList (Text.withLineEnds ['\r', '\n'] text.toList) =
        "@main\x7b\r\n\r\n@link(a\r\n: b)\x7b\x7d\x7d" ∧
      ∀ ending ∈ Text.lineEnds,
        (parse 1000 9 (.text (String.ofList (Text.withLineEnds ending text.toList)))).value =
          .error (.markup ⟨.badOption "a\n: b", ⟨19, 3, 3⟩⟩) := by
  intro text
  have htext : '\r' ∉ text.toList := by decide
  have hfault : (parse 1000 9 (.text text)).value =
      .error (.markup ⟨.badOption "a\n: b", ⟨19, 3, 3⟩⟩) := by
    cbv
  refine ⟨htext, by decide, fun ending hending => ?_⟩
  rw [(line_ends_do_not_show.1 text htext ending hending).1 1000 9]
  exact hfault

end AtMarkup
