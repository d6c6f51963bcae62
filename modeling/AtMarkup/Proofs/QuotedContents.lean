import Mathlib
import AtMarkup.Tag.Dump

/-!
# Quoted contents

A dump puts a content into quotes with `quoteCharacter`, character by character. No written form is
the beginning of another one, whatever follows, because the character can be told from the front
(`firstQuoted?_quoteCharacter`), and none begins with a quote. A quoted content therefore tells what
it is and where it ends (`quoted_append_inj`).
-/

namespace AtMarkup.Tag

/-- What a character behind a backslash stands for, in the short escapes. -/
def shortEscape : Char → Char
  | 'n' => '\n'
  | 'r' => '\r'
  | 't' => '\t'
  | 'b' => '\x08'
  | 'f' => '\x0c'
  | c => c

/-- The character whose written form a quoted text begins with. Of the four digits behind a `u` the
first two are zero. -/
def firstQuoted? : List Char → Option Char
  | '\\' :: 'u' :: _ :: _ :: high :: low :: _ => do
    let high ← Text.hexValue? high
    let low ← Text.hexValue? low
    pure (Char.ofNat (high * 16 + low))
  | '\\' :: c :: _ => some (shortEscape c)
  | c :: _ => some c
  | [] => none

/-- A control character is told from its digits. -/
theorem firstQuoted?_hexDigits {c : Char} (h : c.toNat < 0x20) (rest : List Char) :
    firstQuoted? ('\\' :: 'u' :: Text.hexDigits 4 c.toNat ++ rest) = some c := by
  have hdigit (k : Nat) : Text.hexValue? (Text.hexDigit (k % 16)) = some (k % 16) :=
    Text.hexValue?_hexDigit (Nat.mod_lt k (by decide))
  have hdigits : Text.hexDigits 4 c.toNat =
      [Text.hexDigit (c.toNat / 4096 % 16), Text.hexDigit (c.toNat / 256 % 16),
        Text.hexDigit (c.toNat / 16 % 16), Text.hexDigit (c.toNat / 1 % 16)] := rfl
  have hnumber : c.toNat / 16 % 16 * 16 + c.toNat / 1 % 16 = c.toNat := by omega
  simp only [hdigits, List.cons_append, List.nil_append, firstQuoted?, hdigit,
    Option.bind_eq_bind, Option.bind_some, Option.pure_def, hnumber, Char.ofNat_toNat]

/-- A character is told from its written form, whatever follows. -/
theorem firstQuoted?_quoteCharacter (c : Char) (rest : List Char) :
    firstQuoted? (quoteCharacter c ++ rest) = some c := by
  unfold quoteCharacter
  split_ifs with hquote hslash hfeed hreturn htab hback hform hcontrol
  · rw [hquote]
    rfl
  · rw [hslash]
    rfl
  · rw [hfeed]
    rfl
  · rw [hreturn]
    rfl
  · rw [htab]
    rfl
  · rw [hback]
    rfl
  · rw [hform]
    rfl
  · exact firstQuoted?_hexDigits hcontrol rest
  · simp [firstQuoted?, hslash]

/-- No written form begins with a quote. -/
theorem quoteCharacter_append_ne (c : Char) (behind rest : List Char) :
    quoteCharacter c ++ behind ≠ '"' :: rest := by
  unfold quoteCharacter
  split_ifs with hquote <;> simp_all

/-- Of two quoted texts with anything behind them, both the texts and what is behind them agree
when the whole does. -/
theorem quoted_append_inj {a b rest rest' : List Char}
    (h : a.flatMap quoteCharacter ++ '"' :: rest = b.flatMap quoteCharacter ++ '"' :: rest') :
    a = b ∧ rest = rest' := by
  induction a generalizing b with
  | nil =>
    cases b with
    | nil => exact ⟨rfl, (List.cons.inj h).2⟩
    | cons d b =>
      rw [List.flatMap_cons, List.append_assoc] at h
      exact absurd h.symm (quoteCharacter_append_ne d _ _)
  | cons c a ih =>
    rw [List.flatMap_cons, List.append_assoc] at h
    cases b with
    | nil => exact absurd h (quoteCharacter_append_ne c _ _)
    | cons d b =>
      rw [List.flatMap_cons, List.append_assoc] at h
      have hfirst := congrArg firstQuoted? h
      rw [firstQuoted?_quoteCharacter, firstQuoted?_quoteCharacter] at hfirst
      obtain rfl := Option.some.inj hfirst
      obtain ⟨rfl, hrest⟩ := ih (List.append_cancel_left h)
      exact ⟨rfl, hrest⟩

end AtMarkup.Tag
