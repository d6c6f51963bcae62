import Mathlib
import AtMarkup.Document

/-!
# What parsing and compiling come to

`parse` and `compile` tell of events beside their results. Apart from them a document is accepted
when it can be read and its tree keeps all rules (`parse_eq_ok_iff`), and it is rejected for the
first fault of its markup (`parse_eq_markup_iff`) or, when it can be read, for all the rules that
its tree breaks (`parse_eq_rules_iff`). `compile` is `parse` under the depth limit that is set,
and of the tree its two outputs (`value_compile`). Both look at the characters of a document only:
it does not matter whether they come as text or as bytes (`compile_congr`).
-/

namespace AtMarkup

/-- A tree is accepted exactly if it breaks no rule, and as it is. -/
theorem value_checkRules_eq_ok_iff {tree root : Tag} :
    (checkRules tree).value = .ok root ↔ tree = root ∧ root.violations = [] := by
  unfold checkRules
  split
  · rename_i hnone
    rw [Logged.value_pure, Except.ok.injEq]
    exact ⟨fun h => ⟨h, h ▸ hnone⟩, fun h => h.1⟩
  · rename_i violations hsome
    rw [Logged.value_bind, Logged.value_pure]
    refine ⟨fun h => (nomatch h), ?_⟩
    rintro ⟨rfl, hnone⟩
    exact absurd hnone hsome

/-- A tree is rejected exactly for the rules that it breaks, if there are any. -/
theorem value_checkRules_eq_error_iff {root : Tag} {rejection : Rejection} :
    (checkRules root).value = .error rejection ↔
      rejection = .rules root.violations ∧ root.violations ≠ [] := by
  unfold checkRules
  split
  · rename_i hnone
    rw [Logged.value_pure]
    exact ⟨fun h => (nomatch h), fun h => absurd hnone h.2⟩
  · rename_i hsome
    rw [Logged.value_bind, Logged.value_pure, Except.error.injEq, eq_comm]
    exact ⟨fun h => ⟨h, hsome⟩, fun h => h.1⟩

/-- What is accepted is what can be read and keeps all rules. -/
theorem parse_eq_ok_iff {frames : Nat} {asked : Int} {source : Source} {root : Tag} :
    (parse frames asked source).value = .ok root ↔
      (readMarkup frames asked source.characters).outcome = .ok root ∧ root.violations = [] := by
  unfold parse
  cases (readMarkup frames asked source.characters).outcome with
  | error fault =>
    rw [Logged.value_pure]
    exact ⟨fun h => (nomatch h), fun h => (nomatch h.1)⟩
  | ok tree =>
    rw [Except.ok.injEq]
    exact value_checkRules_eq_ok_iff

/-- A document is rejected for its markup exactly if it cannot be read, and for the fault that
reading it finds. -/
theorem parse_eq_markup_iff {frames : Nat} {asked : Int} {source : Source}
    {located : Markup.LocatedFault} :
    (parse frames asked source).value = .error (.markup located) ↔
      (readMarkup frames asked source.characters).outcome = .error located := by
  unfold parse
  cases (readMarkup frames asked source.characters).outcome with
  | error fault => rw [Logged.value_pure, Except.error.injEq, Rejection.markup.injEq,
      Except.error.injEq]
  | ok root =>
    rw [value_checkRules_eq_error_iff]
    exact ⟨fun h => (nomatch h.1), fun h => (nomatch h)⟩

/-- A document is rejected for rules exactly if it can be read and its tree breaks them. -/
theorem parse_eq_rules_iff {frames : Nat} {asked : Int} {source : Source}
    {violations : List Violation} :
    (parse frames asked source).value = .error (.rules violations) ↔
      ∃ root, (readMarkup frames asked source.characters).outcome = .ok root ∧
        root.violations = violations ∧ violations ≠ [] := by
  unfold parse
  cases (readMarkup frames asked source.characters).outcome with
  | error fault =>
    rw [Logged.value_pure]
    exact ⟨fun h => (nomatch h), fun ⟨_, h, _⟩ => (nomatch h)⟩
  | ok root =>
    rw [value_checkRules_eq_error_iff, Rejection.rules.injEq]
    constructor
    · rintro ⟨rfl, hsome⟩
      exact ⟨root, rfl, rfl, hsome⟩
    · rintro ⟨tree, hroot, rfl, hsome⟩
      obtain rfl := Except.ok.inj hroot
      exact ⟨rfl, hsome⟩

/-- What is compiled is what is parsed, turned into output. -/
theorem value_compile (settings : Settings) (escaped : Bool) (source : Source) :
    (compile settings escaped source).value =
      (parse settings.recursionLimit settings.depth source).value.map
        (Compiled.ofTag escaped) := by
  unfold compile
  rw [Logged.value_bind]
  cases (parse settings.recursionLimit settings.depth source).value with
  | error rejection => rfl
  | ok root => rfl

/-- Documents with the same characters are parsed alike. -/
theorem parse_congr {a b : Source} (h : a.characters = b.characters) (frames : Nat) (asked : Int) :
    parse frames asked a = parse frames asked b := by
  unfold parse
  rw [h]

/-- Documents with the same characters are compiled alike, the events included. -/
theorem compile_congr {a b : Source} (h : a.characters = b.characters) (settings : Settings)
    (escaped : Bool) : compile settings escaped a = compile settings escaped b := by
  unfold compile
  rw [parse_congr h]

end AtMarkup
