import Mathlib
import AtMarkup.Proofs.Cutting
import AtMarkup.Text.Words

/-!
# What separates words

A text is cut into words at every character that is neither a letter nor a numeral, so no letter is
ever lost (`isCut_isWordCharacter_iff`). It is cut at every character that is not a letter only as
long as it has no numerals such as a superscript or a fraction: these stay inside the words,
although they are no letters (`isLetter_eq_false_of_isNumeral`).

That the two classes have nothing in common is read off their tables. Both are in order, so one walk
along the two of them is enough (`lieApart`).
-/

namespace AtMarkup.Text

/-! ## Tables in order -/

/-- Whether two tables whose ranges are in order have no code point in common. -/
def lieApart : List (Nat × Nat) → List (Nat × Nat) → Bool
  | [], _ => true
  | range :: ranges, others =>
    let above := others.dropWhile fun other => Nat.blt other.2 range.1
    above.head?.all (fun other => Nat.blt range.2 other.1) && lieApart ranges above

/-- The ranges of a table are in the order of their first code points. -/
def IsInOrder (ranges : List (Nat × Nat)) : Prop :=
  ranges.Pairwise fun range next => range.1 ≤ next.1

/-- It is enough to compare neighbours. -/
theorem isInOrder_of_isChain {ranges : List (Nat × Nat)}
    (h : ranges.IsChain fun range next => range.1 ≤ next.1) : IsInOrder ranges := by
  have : IsTrans (Nat × Nat) fun range next => range.1 ≤ next.1 := ⟨fun _ _ _ => le_trans⟩
  exact h.pairwise

/-- What lies before the first range of a table in order lies before all of them. -/
theorem lt_of_lt_head {ranges : List (Nat × Nat)} {codePoint : Nat} (hranges : IsInOrder ranges)
    (h : ranges.head?.all (fun range => Nat.blt codePoint range.1) = true) :
    ∀ range ∈ ranges, codePoint < range.1 := by
  cases ranges with
  | nil => simp
  | cons first ranges =>
    have hfirst : codePoint < first.1 := by simpa using h
    exact List.forall_mem_cons.mpr ⟨hfirst, fun range hrange =>
      hfirst.trans_le ((List.pairwise_cons.mp hranges).1 range hrange)⟩

/-- Of any two ranges of tables that lie apart one ends before the other starts. -/
theorem lt_or_lt_of_lieApart {ranges others : List (Nat × Nat)} (hranges : IsInOrder ranges)
    (hothers : IsInOrder others) (h : lieApart ranges others = true) :
    ∀ range ∈ ranges, ∀ other ∈ others, other.2 < range.1 ∨ range.2 < other.1 := by
  induction ranges generalizing others with
  | nil => simp
  | cons first ranges ih =>
    set isBelow : Nat × Nat → Bool := fun other => Nat.blt other.2 first.1
    obtain ⟨hfirst, hranges⟩ := List.pairwise_cons.mp hranges
    obtain ⟨hhead, hrest⟩ := Bool.and_eq_true_iff.mp h
    have habove : IsInOrder (others.dropWhile isBelow) :=
      List.Pairwise.sublist (List.dropWhile_sublist isBelow) hothers
    intro range hrange other hother
    rw [← List.takeWhile_append_dropWhile (p := isBelow) (l := others), List.mem_append] at hother
    rcases hother with hother | hother
    · -- What ends before the first range ends before the later ones too.
      have hbelow : other.2 < first.1 := by simpa [isBelow] using List.mem_takeWhile_imp hother
      rcases List.mem_cons.mp hrange with rfl | hrange
      · exact .inl hbelow
      · exact .inl (hbelow.trans_le (hfirst range hrange))
    · rcases List.mem_cons.mp hrange with rfl | hrange
      · exact .inr (lt_of_lt_head habove hhead other hother)
      · exact ih hranges habove hrest range hrange other hother

/-- A code point of a table is in no table that lies apart. -/
theorem inRanges_eq_false_of_lieApart {table others : Array (Nat × Nat)} {codePoint : Nat}
    (htable : IsInOrder table.toList) (hothers : IsInOrder others.toList)
    (hapart : lieApart table.toList others.toList = true) (h : inRanges table codePoint = true) :
    inRanges others codePoint = false := by
  obtain ⟨range, hrange, hfrom, hto⟩ := (inRanges_iff table codePoint).mp h
  refine Bool.eq_false_iff.mpr fun hother => ?_
  obtain ⟨other, hother, hotherFrom, hotherTo⟩ := (inRanges_iff others codePoint).mp hother
  rcases lt_or_lt_of_lieApart htable hothers hapart range (Array.mem_toList_iff.mpr hrange) other
    (Array.mem_toList_iff.mpr hother) with hlt | hlt
  · omega
  · omega

/-! ## Letters and numerals -/

/-- The table of the letters is in order. -/
theorem isInOrder_letterRanges : IsInOrder letterRanges.toList :=
  isInOrder_of_isChain (by decide +kernel)

/-- The table of the numerals is in order. -/
theorem isInOrder_numeralRanges : IsInOrder numeralRanges.toList :=
  isInOrder_of_isChain (by decide +kernel)

/-- There are no numerals among the first code points, where letters are not looked up. -/
theorem le_of_inRanges_numeralRanges {codePoint : Nat}
    (h : inRanges numeralRanges codePoint = true) : 0x80 ≤ codePoint := by
  obtain ⟨range, hrange, hfrom, -⟩ := (inRanges_iff numeralRanges codePoint).mp h
  have hall : ∀ range ∈ numeralRanges.toList, 0x80 ≤ range.1 := by decide +kernel
  exact (hall range (Array.mem_toList_iff.mpr hrange)).trans hfrom

/-- A numeral is no letter. -/
theorem isLetter_eq_false_of_isNumeral {c : Char} (h : isNumeral c = true) :
    isLetter c = false := by
  rw [isLetter, if_neg (Nat.not_lt.mpr (le_of_inRanges_numeralRanges h))]
  exact inRanges_eq_false_of_lieApart isInOrder_numeralRanges isInOrder_letterRanges
    (by decide +kernel) h

/-! ## Words -/

/-- The words are the runs of letters and numerals, and what is between them is all the rest. -/
theorem isCut_isWordCharacter_iff {text separators : List Char} {words : List (List Char)} :
    IsCut isWordCharacter text words separators ↔
      words = splitWords text ∧ separators = text.filter fun c => !isWordCharacter c :=
  isCut_iff

/-- What separates words is no letter. -/
theorem isLetter_eq_false_of_not_isWordCharacter {c : Char} (h : isWordCharacter c = false) :
    isLetter c = false :=
  (Bool.or_eq_false_iff.mp h).1

/-- A numeral stays in a word. -/
theorem exists_word_of_isNumeral {text : List Char} {c : Char} (hc : c ∈ text)
    (h : isNumeral c = true) : ∃ word ∈ splitWords text, c ∈ word := by
  have hkept : c ∈ (splitWords text).flatten := by
    rw [splitWords, flatten_splitWhere, List.mem_filter]
    exact ⟨hc, by simp [isWordCharacter, h]⟩
  exact List.mem_flatten.mp hkept

/-- Words with a numeral are not the runs of letters. -/
theorem not_isCut_of_isNumeral {text separators : List Char} {c : Char} (hc : c ∈ text)
    (h : isNumeral c = true) : ¬ IsCut isLetter text (splitWords text) separators := by
  intro hcut
  obtain ⟨word, hword, hmem⟩ := exists_word_of_isNumeral hc h
  have hletter := hcut.inside word hword c hmem
  rw [isLetter_eq_false_of_isNumeral h] at hletter
  exact Bool.false_ne_true hletter

/-- **What separates words.** The words of a text are its runs of letters and numerals: between them
stand all characters that are neither, one fewer than there are words, and no letter is among these.
The words are the runs of letters, cut at every character that is no letter, exactly if the text has
no numerals. -/
theorem words_are_letters_iff (text : List Char) :
    (∃ separators, IsCut isWordCharacter text (splitWords text) separators ∧
        ∀ c ∈ separators, isLetter c = false) ∧
      (∀ words separators, IsCut isWordCharacter text words separators ↔
        words = splitWords text ∧ separators = text.filter fun c => !isWordCharacter c) ∧
      ((∃ separators, IsCut isLetter text (splitWords text) separators) ↔
        ∀ c ∈ text, isNumeral c = false) := by
  have hcut := isCut_splitWhere isWordCharacter text
  have hseparates : ∀ c ∈ text.filter (fun c => !isWordCharacter c), isLetter c = false :=
    fun c hc => isLetter_eq_false_of_not_isWordCharacter (hcut.separates c hc)
  refine ⟨⟨_, hcut, hseparates⟩, fun _ _ => isCut_isWordCharacter_iff, ?_, fun hnone =>
    ⟨_, hcut.length_eq, hcut.interleave_eq, ?_, hseparates⟩⟩
  · rintro ⟨separators, hletters⟩ c hc
    exact Bool.eq_false_iff.mpr fun hnumeral => not_isCut_of_isNumeral hc hnumeral hletters
  · intro word hword c hc
    have hinside : (isLetter c || isNumeral c) = true := hcut.inside word hword c hc
    rwa [hnone c (mem_of_mem_splitWhere hword hc), Bool.or_false] at hinside

/-- A decimal digit and an underscore are no such numerals: they separate words, as all does that
is no letter. -/
theorem words_are_letters_iff_digit :
    (∀ c ∈ ['n', '4', 'x', '_'], isNumeral c = false) ∧
      ∃ separators, IsCut isLetter ['n', '4', 'x', '_'] (splitWords ['n', '4', 'x', '_'])
        separators := by
  have hlow : ∀ c ∈ ['n', '4', 'x', '_'], c.toNat < 0x80 := by simp
  have hnone : ∀ c ∈ ['n', '4', 'x', '_'], isNumeral c = false := fun c hc =>
    Bool.eq_false_iff.mpr fun h => (le_of_inRanges_numeralRanges h).not_gt (hlow c hc)
  exact ⟨hnone, (words_are_letters_iff _).2.2.mpr hnone⟩

/-- A superscript between two letters does not separate them. -/
theorem superscript_stays_in_word :
    splitWords ['a', '²', 'b'] = [['a', '²', 'b']] ∧
      ¬ ∃ separators, IsCut isLetter ['a', '²', 'b'] (splitWords ['a', '²', 'b']) separators := by
  have hnumeral : isNumeral '²' = true :=
    (inRanges_iff numeralRanges _).mpr ⟨(0xB2, 0xB3), by simp [numeralRanges], by decide⟩
  have hinside : ∀ c ∈ ['a', '²', 'b'], isWordCharacter c = true := by
    simp [isWordCharacter, hnumeral, isLetter_of_isAlpha (show 'a'.isAlpha = true by decide),
      isLetter_of_isAlpha (show 'b'.isAlpha = true by decide)]
  constructor
  · exact Grammar.splitWhere_eq_singleton fun c hc => by rw [hinside c hc]; rfl
  · rintro ⟨separators, hcut⟩
    exact not_isCut_of_isNumeral (by decide) hnumeral hcut

end AtMarkup.Text
