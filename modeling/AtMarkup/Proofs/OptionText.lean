import Mathlib
import AtMarkup.Markup.OptionList
import AtMarkup.Proofs.Dictionaries
import AtMarkup.Proofs.Grammar

/-!
# Option lists are read by their grammar

`Markup.readOptions` cuts the text between the parentheses at its commas and takes each segment
apart. Here that is tied to the grammar in both directions:

* a segment is read exactly if it has the written form `Segment`, and gives that pair
  (`readOption?_of_segment`, `segment_of_readOption?`);
* cutting at commas undoes `Segments` (`forall₂_splitWhere_iff`);
* the whole text is read exactly if it is an `OptionText`, and gives those options
  (`readOptions_eq_ok_iff`).

The reader never sees braces, parentheses or an `@` in this text, since each of them ends the
list or is a fault before any segment is looked at. The directions that need this ask for
`IsOptionBody`.
-/

namespace AtMarkup.Grammar

open Markup

/-- The signs that tags are made of. -/
def tagSigns : List Char :=
  ['{', '}', '(', ')', '@']

/-- What can stand between the parentheses at all: none of the signs. -/
def IsOptionBody (text : List Char) : Prop :=
  ∀ c ∈ text, c ∉ tagSigns

instance : DecidablePred IsOptionBody := fun text =>
  List.decidableBAll (· ∉ tagSigns) text

/-! ## Character classes -/

/-- The ASCII letters and digits, with the underscore. -/
theorem isAlphanum_or_underscore_iff (c : Char) :
    (c.isAlphanum || c == '_') = true ↔ IsWordCharacter c := by
  simp only [Char.isAlphanum, Char.isAlpha, Char.isUpper, Char.isLower, Char.isDigit,
    IsWordCharacter, Bool.or_eq_true, Bool.and_eq_true, decide_eq_true_eq, beq_iff_eq,
    Char.le_def, UInt32.le_iff_toNat_le, ge_iff_le]
  tauto

/-- A key is made of the characters that the reader takes for one. -/
theorem isOptionNameCharacter_iff (c : Char) :
    isOptionNameCharacter c = true ↔ IsKeyCharacter c := by
  rw [isOptionNameCharacter, Bool.or_eq_true, isAlphanum_or_underscore_iff, IsKeyCharacter,
    beq_iff_eq]

/-- In the body of an option list the reader's value characters are those of the grammar. -/
theorem isOptionValueCharacter_iff {c : Char} (h : c ∉ tagSigns) :
    isOptionValueCharacter c = true ↔ c ∉ valueDelimiters := by
  simp only [tagSigns, List.mem_cons, List.not_mem_nil, or_false, not_or] at h
  simp only [isOptionValueCharacter, valueDelimiters, bne_iff_ne, Bool.and_eq_true, ne_eq,
    List.mem_cons, List.not_mem_nil, or_false, not_or]
  tauto

/-- A value character of the grammar is one of the reader's. -/
theorem isOptionValueCharacter_of_not_mem {c : Char} (h : c ∉ valueDelimiters) :
    isOptionValueCharacter c = true := by
  simp only [valueDelimiters, List.mem_cons, List.not_mem_nil, or_false, not_or] at h
  simp [isOptionValueCharacter, h]

/-- Key characters by their code points. -/
theorem IsKeyCharacter.toNat_cases {c : Char} (h : IsKeyCharacter c) :
    (65 ≤ c.toNat ∧ c.toNat ≤ 90) ∨ (97 ≤ c.toNat ∧ c.toNat ≤ 122) ∨
      (48 ≤ c.toNat ∧ c.toNat ≤ 57) ∨ c.toNat = 95 ∨ c.toNat = 45 := by
  simp only [IsKeyCharacter, IsWordCharacter, Char.le_def, UInt32.le_iff_toNat_le] at h
  rcases h with (h | h | h | rfl) | rfl
  · exact .inl h
  · exact .inr (.inl h)
  · exact .inr (.inr (.inl h))
  · exact .inr (.inr (.inr (.inl rfl)))
  · exact .inr (.inr (.inr (.inr rfl)))

/-- No key character is blank. -/
theorem IsKeyCharacter.not_isBlank {c : Char} (h : IsKeyCharacter c) : Text.isBlank c = false := by
  have hcases := h.toNat_cases
  simp only [Text.isBlank, Bool.or_eq_false_iff, Bool.and_eq_false_iff, decide_eq_false_iff_not,
    beq_eq_false_iff_ne]
  omega

/-- No key character is one of the signs that end a key. -/
theorem IsKeyCharacter.ne_of_toNat {c d : Char} (h : IsKeyCharacter c)
    (hd : d.toNat = 58 ∨ d.toNat = 44) : c ≠ d := by
  rintro rfl
  have hcases := h.toNat_cases
  omega

/-- A blank is no sign of the grammar. -/
theorem ne_of_isBlank {c d : Char} (h : Text.isBlank c = true) (hd : Text.isBlank d = false) :
    c ≠ d := by
  rintro rfl
  rw [h] at hd
  exact Bool.noConfusion hd

/-- A sign of a tag is no blank, no character of a key, no colon and no quote, and it delimits
values. -/
theorem of_mem_tagSigns {c : Char} (h : c ∈ tagSigns) :
    Text.isBlank c = false ∧ ¬ IsKeyCharacter c ∧ c ≠ ':' ∧ c ≠ '"' ∧ c ∈ valueDelimiters := by
  simp only [tagSigns, List.mem_cons, List.not_mem_nil, or_false] at h
  rcases h with rfl | rfl | rfl | rfl | rfl <;>
    exact ⟨rfl, fun hkey => absurd hkey.toNat_cases (by decide), by decide, by decide, by decide⟩

/-! ## One segment -/

/-- Blanks in front are skipped. -/
theorem dropWhile_isBlank_append {gap rest : List Char} (h : IsGap gap) :
    (gap ++ rest).dropWhile Text.isBlank = rest.dropWhile Text.isBlank :=
  List.dropWhile_append_of_pos (List.all_eq_true.mp h)

/-- A text is the blanks that it starts with and what stands behind them. -/
theorem exists_gap (text : List Char) :
    ∃ gap, IsGap gap ∧ text = gap ++ text.dropWhile Text.isBlank :=
  ⟨text.takeWhile Text.isBlank, List.all_takeWhile, List.takeWhile_append_dropWhile.symm⟩

/-- A quoted value with blanks around it is read. -/
theorem readOptionValue?_quoted {ahead value after : List Char} (hahead : IsGap ahead)
    (hvalue : IsValue value) (hafter : IsGap after) :
    readOptionValue? (ahead ++ '"' :: (value ++ '"' :: after)) = some (String.ofList value) := by
  have hall : ∀ c ∈ value, isOptionValueCharacter c = true :=
    fun c hc => isOptionValueCharacter_of_not_mem (hvalue c hc)
  have hquote : isOptionValueCharacter '"' = false := rfl
  have hblank : Text.isBlank '"' = false := rfl
  unfold readOptionValue?
  rw [dropWhile_isBlank_append hahead, List.dropWhile_cons_of_neg (by simp [hblank])]
  simp only
  rw [List.dropWhile_append_of_pos hall, List.takeWhile_append_of_pos hall,
    List.dropWhile_cons_of_neg (by simp [hquote]), List.takeWhile_cons_of_neg (by simp [hquote])]
  simp only [List.append_nil]
  exact if_pos hafter

/-- What is read as a quoted value has that form. -/
theorem quoted_of_readOptionValue? {text : List Char} {value : String}
    (h : readOptionValue? text = some value) :
    ∃ ahead chars after, IsGap ahead ∧ (∀ c ∈ chars, isOptionValueCharacter c = true) ∧
      IsGap after ∧ text = ahead ++ '"' :: (chars ++ '"' :: after) ∧
        value = String.ofList chars := by
  obtain ⟨ahead, hahead, htext⟩ := exists_gap text
  unfold readOptionValue? at h
  split at h
  · rename_i quoted hquoted
    split at h
    · rename_i after hafter
      split at h
      · rename_i hblank
        refine ⟨ahead, quoted.takeWhile isOptionValueCharacter, after, hahead,
          fun c hc => List.mem_takeWhile_imp hc, hblank, ?_, (Option.some.inj h).symm⟩
        rw [← hafter, List.takeWhile_append_dropWhile, ← hquoted]
        exact htext
      · cases h
    · cases h
  · cases h

/-- Behind a key stands a blank or the colon, and neither belongs to the key. -/
theorem exists_cons_behind_key {behind : List Char} (h : IsGap behind) (rest : List Char) :
    ∃ c tail, behind ++ ':' :: rest = c :: tail ∧ isOptionNameCharacter c = false := by
  cases behind with
  | nil => exact ⟨':', rest, rfl, rfl⟩
  | cons c tail =>
    refine ⟨c, tail ++ ':' :: rest, rfl, ?_⟩
    have hblank : Text.isBlank c = true := List.all_eq_true.mp h c List.mem_cons_self
    by_contra hc
    have hkey := (isOptionNameCharacter_iff c).mp (by simpa using hc)
    rw [hkey.not_isBlank] at hblank
    exact Bool.noConfusion hblank

/-- A segment in its written form is read as its pair. -/
theorem readOption?_of_segment {text : List Char} {pair : String × String}
    (h : Segment text pair) : readOption? text = some pair := by
  obtain @⟨before, key, behind, ahead, value, after, hbefore, hkey, hbehind, hahead, hvalue,
    hafter⟩ := h
  have hchars : ∀ c ∈ key, isOptionNameCharacter c = true :=
    fun c hc => (isOptionNameCharacter_iff c).mpr (hkey.2 c hc)
  obtain ⟨first, others, rfl⟩ := List.exists_cons_of_ne_nil hkey.1
  have hfirst : Text.isBlank first = false := (hkey.2 first List.mem_cons_self).not_isBlank
  obtain ⟨stop, tail, hstop, hnot⟩ :=
    exists_cons_behind_key hbehind (ahead ++ '"' :: (value ++ '"' :: after))
  have htext : (before ++ first :: others ++ behind ++
      ':' :: (ahead ++ '"' :: (value ++ '"' :: after))).dropWhile Text.isBlank =
      (first :: others) ++ stop :: tail := by
    rw [List.append_assoc, List.append_assoc, dropWhile_isBlank_append hbefore, ← hstop,
      List.cons_append, List.dropWhile_cons_of_neg (by simp [hfirst])]
  have hcolon : (stop :: tail).dropWhile Text.isBlank =
      ':' :: (ahead ++ '"' :: (value ++ '"' :: after)) := by
    rw [← hstop, dropWhile_isBlank_append hbehind, List.dropWhile_cons_of_neg (by decide)]
  unfold readOption?
  rw [htext]
  simp only
  rw [List.takeWhile_append_of_pos hchars, List.dropWhile_append_of_pos hchars,
    List.takeWhile_cons_of_neg (by simp [hnot]), List.dropWhile_cons_of_neg (by simp [hnot]),
    List.append_nil, if_neg (by simp), hcolon]
  simp only
  rw [readOptionValue?_quoted hahead hvalue hafter, Option.map_some]

/-- What is read as an option has its written form, in the body of an option list. -/
theorem segment_of_readOption? {text : List Char} {pair : String × String}
    (hbody : IsOptionBody text) (h : readOption? text = some pair) : Segment text pair := by
  obtain ⟨before, hbefore, htext⟩ := exists_gap text
  unfold readOption? at h
  simp only at h
  set inner := text.dropWhile Text.isBlank with hinner
  split at h
  · cases h
  · rename_i hkey
    obtain ⟨behind, hbehind, hrest⟩ := exists_gap (inner.dropWhile isOptionNameCharacter)
    split at h
    · rename_i rest hcolon
      obtain ⟨value, hvalue, rfl⟩ := Option.map_eq_some_iff.mp h
      obtain ⟨ahead, chars, after, hahead, hchars, hafter, rfl, rfl⟩ :=
        quoted_of_readOptionValue? hvalue
      have hwritten : text = before ++ inner.takeWhile isOptionNameCharacter ++ behind ++
          ':' :: (ahead ++ '"' :: (chars ++ '"' :: after)) := by
        rw [← hcolon, List.append_assoc, ← hrest, List.append_assoc,
          List.takeWhile_append_dropWhile]
        exact htext
      have hmem : ∀ c ∈ chars, c ∈ text := by
        intro c hc
        rw [hwritten]
        simp [hc]
      rw [hwritten]
      refine .mk hbefore ⟨?_, ?_⟩ hbehind hahead ?_ hafter
      · simpa using hkey
      · exact fun c hc => (isOptionNameCharacter_iff c).mp (List.mem_takeWhile_imp hc)
      · exact fun c hc => (isOptionValueCharacter_iff (hbody c (hmem c hc))).mp (hchars c hc)
    · cases h

/-! ## Cutting at commas -/

/-- Text without a separator is one piece. -/
theorem splitWhere_eq_singleton {isSeparator : Char → Bool} {text : List Char}
    (h : ∀ c ∈ text, isSeparator c = false) : Text.splitWhere isSeparator text = [text] := by
  induction text with
  | nil => rfl
  | cons c text ih =>
    rw [Text.splitWhere_cons, ih fun d hd => h d (List.mem_cons_of_mem c hd), Text.prependPiece,
      h c List.mem_cons_self]
    rfl

/-- The first piece ends at the first separator. -/
theorem splitWhere_append_cons {isSeparator : Char → Bool} {piece : List Char} {separator : Char}
    (hpiece : ∀ c ∈ piece, isSeparator c = false) (hseparator : isSeparator separator = true)
    (rest : List Char) :
    Text.splitWhere isSeparator (piece ++ separator :: rest) =
      piece :: Text.splitWhere isSeparator rest := by
  induction piece with
  | nil => rw [List.nil_append, Text.splitWhere_cons, Text.prependPiece, if_pos hseparator]
  | cons c piece ih =>
    rw [List.cons_append, Text.splitWhere_cons,
      ih fun d hd => hpiece d (List.mem_cons_of_mem c hd), Text.prependPiece,
      hpiece c List.mem_cons_self]
    rfl

/-- A property of texts holds when it holds of text without the separator and passes to a text from
what stands behind its first separator. -/
theorem separator_induction (separator : Char) {motive : List Char → Prop}
    (last : ∀ piece, separator ∉ piece → motive piece)
    (cons : ∀ piece rest, separator ∉ piece → motive rest → motive (piece ++ separator :: rest))
    (text : List Char) : motive text := by
  induction hlength : text.length using Nat.strong_induction_on generalizing text with
  | _ n ih =>
    by_cases hmem : separator ∈ text
    · obtain ⟨piece, rest, rfl, hpiece⟩ := List.eq_append_cons_of_mem hmem
      rw [List.length_append, List.length_cons] at hlength
      exact cons piece rest hpiece (ih rest.length (by omega) rest rfl)
    · exact last text hmem

/-- In text without commas no character is taken for one. -/
theorem not_isComma {text : List Char} (h : ',' ∉ text) : ∀ c ∈ text, (c == ',') = false :=
  fun _ hc => beq_eq_false_iff_ne.mpr (ne_of_mem_of_not_mem hc h)

/-- Cutting at commas undoes joining with commas. -/
theorem splitWhere_intercalate {pieces : List (List Char)} (hsome : pieces ≠ [])
    (h : ∀ piece ∈ pieces, ',' ∉ piece) :
    Text.splitWhere (· == ',') ([','].intercalate pieces) = pieces := by
  induction pieces with
  | nil => exact absurd rfl hsome
  | cons piece pieces ih =>
    obtain ⟨hpiece, hpieces⟩ := List.forall_mem_cons.mp h
    cases pieces with
    | nil =>
      rw [List.intercalate_singleton]
      exact splitWhere_eq_singleton (not_isComma hpiece)
    | cons next pieces =>
      rw [List.intercalate_cons_cons, List.append_assoc, List.singleton_append,
        splitWhere_append_cons (not_isComma hpiece) (beq_self_eq_true ','),
        ih (List.cons_ne_nil _ _) hpieces]

/-- What the characters of a segment are. -/
theorem Segment.mem_cases {text : List Char} {pair : String × String} (h : Segment text pair)
    {c : Char} (hc : c ∈ text) :
    Text.isBlank c = true ∨ IsKeyCharacter c ∨ c = ':' ∨ c = '"' ∨ c ∉ valueDelimiters := by
  obtain @⟨before, key, behind, ahead, value, after, hbefore, hkey, hbehind, hahead, hvalue,
    hafter⟩ := h
  have hgap : ∀ {gap : List Char}, IsGap gap → c ∈ gap → Text.isBlank c = true :=
    fun hblank hmem => List.all_eq_true.mp hblank c hmem
  simp only [List.mem_append, List.mem_cons] at hc
  rcases hc with ((hc | hc) | hc) | rfl | hc | rfl | hc | rfl | hc
  · exact .inl (hgap hbefore hc)
  · exact .inr (.inl (hkey.2 c hc))
  · exact .inl (hgap hbehind hc)
  · exact .inr (.inr (.inl rfl))
  · exact .inl (hgap hahead hc)
  · exact .inr (.inr (.inr (.inl rfl)))
  · exact .inr (.inr (.inr (.inr (hvalue c hc))))
  · exact .inr (.inr (.inr (.inl rfl)))
  · exact .inl (hgap hafter hc)

/-- A segment holds no comma. -/
theorem Segment.not_mem_comma {text : List Char} {pair : String × String}
    (h : Segment text pair) : ',' ∉ text := by
  intro hc
  rcases h.mem_cases hc with hc | hc | hc | hc | hc
  · exact absurd hc (by decide)
  · exact hc.ne_of_toNat (.inr rfl) rfl
  · exact absurd hc (by decide)
  · exact absurd hc (by decide)
  · exact hc (by decide)

/-- A segment holds no sign of a tag. -/
theorem Segment.isOptionBody {text : List Char} {pair : String × String} (h : Segment text pair) :
    IsOptionBody text := by
  intro c hmem hsign
  obtain ⟨hblank, hkey, hcolon, hquote, hdelimiter⟩ := of_mem_tagSigns hsign
  rcases h.mem_cases hmem with h | h | h | h | h
  · rw [hblank] at h
    exact Bool.noConfusion h
  · exact hkey h
  · exact hcolon h
  · exact hquote h
  · exact h hdelimiter

/-- A segment is not blank, since it holds a colon. -/
theorem Segment.not_isGap {text : List Char} {pair : String × String} (h : Segment text pair) :
    ¬ IsGap text := by
  obtain ⟨-, -, -, -, -, -⟩ := h
  intro hgap
  have hcolon := List.all_eq_true.mp hgap ':' (by simp)
  exact absurd hcolon (by decide)

/-- Text that starts with a segment is not blank. -/
theorem Segments.not_isGap {text : List Char} {pairs : List (String × String)}
    (h : Segments text pairs) : ¬ IsGap text := by
  cases h with
  | last h => exact h.not_isGap
  | cons h hrest =>
    intro hgap
    rw [IsGap, Text.isBlankText_append, Bool.and_eq_true] at hgap
    exact h.not_isGap hgap.1

/-- Segments hold no sign of a tag. -/
theorem Segments.isOptionBody {text : List Char} {pairs : List (String × String)}
    (h : Segments text pairs) : IsOptionBody text := by
  induction h with
  | last h => exact h.isOptionBody
  | cons h hrest ih =>
    intro c hc
    rw [List.mem_append, List.mem_cons] at hc
    rcases hc with hc | rfl | hc
    · exact h.isOptionBody c hc
    · decide
    · exact ih c hc

/-- The pieces between commas are segments exactly if the text is made of these segments. -/
theorem forall₂_splitWhere_iff {text : List Char} {pairs : List (String × String)} :
    List.Forall₂ Segment (Text.splitWhere (· == ',') text) pairs ↔ Segments text pairs := by
  constructor
  · intro h
    induction text using separator_induction ',' generalizing pairs with
    | last piece hpiece =>
      rw [splitWhere_eq_singleton (not_isComma hpiece)] at h
      cases h with
      | cons hsegment hrest =>
        cases hrest
        exact .last hsegment
    | cons piece rest hpiece ih =>
      rw [splitWhere_append_cons (not_isComma hpiece) (beq_self_eq_true ',')] at h
      cases h with
      | cons hsegment hrest => exact .cons hsegment (ih hrest)
  · intro h
    induction h with
    | last h =>
      rw [splitWhere_eq_singleton (not_isComma h.not_mem_comma)]
      exact .cons h .nil
    | cons h hrest ih =>
      rw [splitWhere_append_cons (not_isComma h.not_mem_comma) (beq_self_eq_true ',')]
      exact .cons h ih

/-! ## Option lists -/

/-- Two steps succeed together when the first one succeeds and the second one does from there. -/
theorem bind_eq_ok_iff {ε α β : Type} {x : Except ε α} {f : α → Except ε β} {b : β} :
    x >>= f = .ok b ↔ ∃ a, x = .ok a ∧ f a = .ok b := by
  cases x with
  | error e => simp [bind, Except.bind]
  | ok a => simp [bind, Except.bind]

/-- A segment adds its pair. -/
theorem addOption_of_segment {text : List Char} {pair : String × String} (h : Segment text pair)
    (options : Tag.Options) : addOption options text = .ok (options.insert pair.1 pair.2) := by
  rw [addOption, readOption?_of_segment h]

/-- A segment that adds something has the written form of a pair, and adds that pair. -/
theorem segment_of_addOption {text : List Char} {options result : Tag.Options}
    (hbody : IsOptionBody text) (h : addOption options text = .ok result) :
    ∃ pair, Segment text pair ∧ result = options.insert pair.1 pair.2 := by
  unfold addOption at h
  split at h
  · rename_i name value hpair
    exact ⟨(name, value), segment_of_readOption? hbody hpair, (Except.ok.inj h).symm⟩
  · cases h

/-- Segments are read from left to right, each adding its pair. -/
theorem foldlM_addOption_of_forall₂ {pieces : List (List Char)} {pairs : List (String × String)}
    (h : List.Forall₂ Segment pieces pairs) (options : Tag.Options) :
    pieces.foldlM addOption options =
      .ok (pairs.foldl (fun options pair => options.insert pair.1 pair.2) options) := by
  induction h generalizing options with
  | nil => rfl
  | cons hsegment _ ih =>
    rw [List.foldlM_cons, addOption_of_segment hsegment]
    exact ih _

/-- Pieces that all add something are segments. -/
theorem forall₂_of_foldlM_addOption {pieces : List (List Char)} {options result : Tag.Options}
    (hbody : ∀ piece ∈ pieces, IsOptionBody piece)
    (h : pieces.foldlM addOption options = .ok result) :
    ∃ pairs, List.Forall₂ Segment pieces pairs ∧
      result = pairs.foldl (fun options pair => options.insert pair.1 pair.2) options := by
  induction pieces generalizing options with
  | nil => exact ⟨[], .nil, (Except.ok.inj h).symm⟩
  | cons piece pieces ih =>
    obtain ⟨hpiece, hpieces⟩ := List.forall_mem_cons.mp hbody
    rw [List.foldlM_cons] at h
    obtain ⟨next, hnext, h⟩ := bind_eq_ok_iff.mp h
    obtain ⟨pair, hsegment, rfl⟩ := segment_of_addOption hpiece hnext
    obtain ⟨pairs, hpairs, rfl⟩ := ih hpieces h
    exact ⟨pair :: pairs, .cons hsegment hpairs, rfl⟩

/-- The pieces of a body are bodies. -/
theorem IsOptionBody.of_mem_splitWhere {isSeparator : Char → Bool} {text piece : List Char}
    (h : IsOptionBody text) (hpiece : piece ∈ Text.splitWhere isSeparator text) :
    IsOptionBody piece :=
  fun c hc => h c (Text.mem_of_mem_splitWhere hpiece hc)

/-- What is written pair by pair is what the pairs give. -/
theorem gives_ofList (pairs : List (String × String)) : Gives pairs (.ofList pairs) where
  names := Tag.Options.names_ofList pairs
  values := Tag.Options.get?_ofList pairs

/-- Pairs give nothing else. -/
theorem Gives.eq_ofList {pairs : List (String × String)} {options : Tag.Options}
    (h : Gives pairs options) : options = .ofList pairs :=
  Tag.Options.eq_of_views (h.names.trans (Tag.Options.names_ofList pairs).symm) fun name =>
    (h.values name).trans (Tag.Options.get?_ofList pairs name).symm

/-- The text of options holds no sign of a tag. -/
theorem OptionText.isOptionBody {text : List Char} {options : Tag.Options}
    (h : OptionText text options) : IsOptionBody text := by
  cases h with
  | blank hgap =>
    intro c hmem hsign
    have hblank : Text.isBlank c = true := List.all_eq_true.mp hgap c hmem
    rw [(of_mem_tagSigns hsign).1] at hblank
    exact Bool.noConfusion hblank
  | list hpairs _ => exact hpairs.isOptionBody

/-- The body of an option list is read exactly if it is the text of some options, and gives those
options. -/
theorem readOptions_eq_ok_iff {text : List Char} {options : Tag.Options}
    (hbody : IsOptionBody text) : readOptions text = .ok options ↔ OptionText text options := by
  unfold readOptions
  constructor
  · intro h
    split at h
    · rename_i hgap
      rw [← Except.ok.inj h]
      exact .blank hgap
    · obtain ⟨pairs, hpairs, rfl⟩ :=
        forall₂_of_foldlM_addOption (fun _ hpiece => hbody.of_mem_splitWhere hpiece) h
      exact .list (forall₂_splitWhere_iff.mp hpairs) (gives_ofList pairs)
  · intro h
    cases h with
    | blank hgap => exact if_pos hgap
    | list hpairs hgives =>
      obtain rfl := hgives.eq_ofList
      have hgap : ¬ Text.isBlankText text = true := hpairs.not_isGap
      rw [if_neg hgap]
      exact foldlM_addOption_of_forall₂ (forall₂_splitWhere_iff.mpr hpairs) _

end AtMarkup.Grammar
