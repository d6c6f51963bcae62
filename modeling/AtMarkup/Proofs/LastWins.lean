import Mathlib
import AtMarkup.Proofs.Dictionaries

/-!
# The later value wins

Options are given as pairs, and a name may come more than once. What the dictionary of a list of
pairs holds is said here without writing one pair after the other (`IsLastOf`): the names, each once
and in the order in which they first come, and for each the value that it comes with last. Both
views of the dictionary are followed through one more pair at the end (`names_ofList`,
`exists_last_of_get?_ofList`), so the inductions are on the list from its end.
-/

namespace AtMarkup.Tag.Options

/-- The entries have the names of the pairs, each once and in the order in which they first come,
each with the value that comes with it last. -/
structure IsLastOf (pairs entries : List (String × String)) : Prop where
  /-- The names in their order. -/
  names : entries.map Prod.fst = (pairs.map Prod.fst).eraseDups
  /-- Each entry is among the pairs, and its name does not come again. -/
  values : ∀ entry ∈ entries, ∃ before after,
    pairs = before ++ entry :: after ∧ entry.1 ∉ after.map Prod.fst

/-- A value that is found came last with its name. -/
theorem exists_last_of_get?_ofList {pairs : List (String × String)} {name value : String}
    (h : (ofList pairs).get? name = some value) :
    ∃ before after, pairs = before ++ (name, value) :: after ∧ name ∉ after.map Prod.fst := by
  induction pairs using List.reverseRecOn with
  | nil => cases h
  | append_singleton pairs pair ih =>
    rw [ofList_append_singleton, get?_insert] at h
    split at h
    · rename_i hname
      obtain rfl : pair.2 = value := Option.some.inj h
      exact ⟨pairs, [], by rw [hname], List.not_mem_nil⟩
    · -- The pair at the end has another name, so what came last before still does.
      rename_i hname
      obtain ⟨before, after, rfl, hafter⟩ := ih h
      refine ⟨before, after ++ [pair], by simp, ?_⟩
      rw [List.map_append, List.mem_append, List.map_singleton, List.mem_singleton]
      exact fun hmem => hmem.elim hafter hname

/-- The dictionary of a list of pairs has the later values. -/
theorem isLastOf_ofList (pairs : List (String × String)) :
    IsLastOf pairs (ofList pairs).entries where
  names := names_ofList pairs
  values _ hentry := exists_last_of_get?_ofList (get?_eq_some_iff.mpr hentry)

example :
    (ofList [("a", "1"), ("b", "2"), ("a", "3")]).entries = [("a", "3"), ("b", "2")] := by
  decide

end AtMarkup.Tag.Options
