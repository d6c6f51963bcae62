import Mathlib
import AtMarkup.Proofs.Compiling
import AtMarkup.Proofs.OptionText

/-!
# A line for each diagnostic

The message of a rejection has its diagnostics in lines. No diagnostic breaks its line, whatever
text of the document it quotes (`not_mem_text`), so the lines of the message are the diagnostics
again (`lines_message`), and of a document that is rejected there is at least one
(`diagnostics_ne_nil_of_parse`).
-/

namespace AtMarkup

/-- The lines of a text, parted by line feeds. -/
def lines (text : String) : List String :=
  (Text.splitWhere (· == '\n') text.toList).map String.ofList

namespace Diagnostic

/-- The digits of a number do not break a line. -/
theorem not_mem_toString (n : Int) : '\n' ∉ (toString n).toList := by
  have hdigits (m : Nat) : '\n' ∉ (toString m).toList := by
    rw [Nat.toString_eq_repr, Nat.toList_repr]
    intro hmem
    have hdigit := Nat.isDigit_of_mem_toDigits (by decide) (by decide) hmem
    exact absurd hdigit (by decide)
  cases n with
  | ofNat m => exact hdigits m
  | negSucc m =>
    have hshown : toString (Int.negSucc m) = "-" ++ toString (m + 1) := rfl
    rw [hshown, String.toList_append, List.mem_append]
    rintro (hsign | hmem)
    · exact absurd hsign (by decide)
    · exact hdigits (m + 1) hmem

/-- A diagnostic does not break its line. -/
theorem not_mem_text (d : Diagnostic) : '\n' ∉ d.text.toList := by
  have hlabel : '\n' ∉ d.stage.label.toList := by
    cases d.stage <;> decide
  have hdetail := d.not_mem_detail
  have hline := not_mem_toString d.position.line
  have hcolumn := not_mem_toString d.position.lineColumn
  unfold text
  simp only [String.toList_append, List.mem_append, not_or]
  exact ⟨⟨⟨⟨⟨⟨⟨hlabel, by decide⟩, hdetail⟩, by decide⟩, hline⟩, by decide⟩, hcolumn⟩, by decide⟩

/-- In a text without line feeds no character is taken for one. -/
theorem not_isBreak {text : List Char} (h : '\n' ∉ text) : ∀ c ∈ text, (c == '\n') = false := by
  intro c hc
  rw [beq_eq_false_iff_ne]
  rintro rfl
  exact h hc

/-- The lines of diagnostics that are joined are the diagnostics. -/
theorem lines_joined {ds : List Diagnostic} (h : ds ≠ []) : lines (joined ds) = ds.map text := by
  induction ds with
  | nil => exact absurd rfl h
  | cons d ds ih =>
    have hfirst := not_isBreak d.not_mem_text
    cases ds with
    | nil =>
      have hjoined : (joined [d]).toList = d.text.toList := by
        simp [joined]
      rw [lines, hjoined, Grammar.splitWhere_eq_singleton hfirst]
      simp
    | cons next ds =>
      have hjoined : (joined (d :: next :: ds)).toList =
          d.text.toList ++ '\n' :: (joined (next :: ds)).toList := by
        simp [joined, String.toList_intercalate]
      have hrest := ih (List.cons_ne_nil next ds)
      rw [lines, hjoined, Grammar.splitWhere_append_cons hfirst (beq_self_eq_true '\n'),
        List.map_cons, ← lines, hrest, String.ofList_toList]
      rfl

end Diagnostic

/-- A document that is rejected has diagnostics. -/
theorem diagnostics_ne_nil_of_parse {frames : Nat} {asked : Int} {source : Source}
    {rejection : Rejection} (h : (parse frames asked source).value = .error rejection) :
    rejection.diagnostics ≠ [] := by
  cases rejection with
  | markup located => exact List.cons_ne_nil _ _
  | rules violations =>
    obtain ⟨-, -, -, hbroken⟩ := parse_eq_rules_iff.mp h
    exact fun hnil => hbroken (List.map_eq_nil_iff.mp hnil)

/-- The lines of what is said of a document that is rejected are its diagnostics. -/
theorem lines_message {frames : Nat} {asked : Int} {source : Source} {rejection : Rejection}
    (h : (parse frames asked source).value = .error rejection) :
    lines rejection.message = rejection.diagnostics.map Diagnostic.text :=
  Diagnostic.lines_joined (diagnostics_ne_nil_of_parse h)

end AtMarkup
