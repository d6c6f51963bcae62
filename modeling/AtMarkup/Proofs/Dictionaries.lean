import Mathlib
import AtMarkup.Tag.Options

/-!
# Dictionaries told by their names and values

The options of a tag are known from two views, their names in order and the value of each name
(`eq_of_views`). What a list of pairs gives is told in these views: the names as they first come
(`names_ofList`), and for each the value that it comes with last (`get?_ofList`). Both go by
induction on the list from its end, for the last pair is written last.
-/

namespace AtMarkup.Tag.Options

/-- Options are their entries. -/
theorem eq_of_entries_eq {a b : Options} (h : a.entries = b.entries) : a = b := by
  cases a
  cases b
  simpa using h

/-- An option has a value exactly if the two are among the entries. -/
theorem get?_eq_some_iff {options : Options} {name value : String} :
    options.get? name = some value ↔ (name, value) ∈ options.entries := by
  have hfound {entry : String × String}
      (h : options.entries.find? (fun entry => entry.1 == name) = some entry) :
      entry ∈ options.entries ∧ entry.1 = name :=
    ⟨List.mem_of_find?_eq_some h, by simpa using List.find?_some h⟩
  rw [get?, Option.map_eq_some_iff]
  constructor
  · rintro ⟨entry, h, rfl⟩
    obtain ⟨hmem, rfl⟩ := hfound h
    exact hmem
  · intro hmem
    have hsome : (options.entries.find? fun entry => entry.1 == name).isSome := by
      rw [List.find?_isSome]
      exact ⟨_, hmem, beq_self_eq_true name⟩
    obtain ⟨entry, h⟩ := Option.isSome_iff_exists.mp hsome
    obtain ⟨hentry, hname⟩ := hfound h
    have hsame : entry = (name, value) :=
      List.inj_on_of_nodup_map options.nodup hentry hmem hname
    exact ⟨entry, h, by rw [hsame]⟩

/-- The entries are the names, each with its value. -/
theorem entries_eq_map_names (options : Options) :
    options.entries = options.names.map fun name => (name, options.getD name "") := by
  have hentry : ∀ entry ∈ options.entries, (entry.1, options.getD entry.1 "") = entry := by
    intro entry hmem
    have hvalue : options.get? entry.1 = some entry.2 := get?_eq_some_iff.mpr hmem
    rw [getD, hvalue, Option.getD_some]
  rw [names, List.map_map]
  exact ((List.map_congr_left hentry).trans (List.map_id' options.entries)).symm

/-- Options with the same names, in the same order, and the same values are the same. -/
theorem eq_of_views {options other : Options} (hnames : options.names = other.names)
    (hvalues : ∀ name, options.get? name = other.get? name) : options = other := by
  apply eq_of_entries_eq
  rw [entries_eq_map_names, entries_eq_map_names, hnames]
  simp only [getD, hvalues]

/-! ## Options from pairs -/

/-- The last pair is written last. -/
theorem ofList_append_singleton (pairs : List (String × String)) (pair : String × String) :
    ofList (pairs ++ [pair]) = (ofList pairs).insert pair.1 pair.2 := by
  rw [ofList, List.foldl_append]
  rfl

/-- Another name comes behind the others, unless it has come before. -/
theorem eraseDups_append_singleton (names : List String) (name : String) :
    (names ++ [name]).eraseDups =
      if name ∈ names then names.eraseDups else names.eraseDups ++ [name] := by
  rw [List.eraseDups_append]
  split
  · rename_i hmem
    simp [List.removeAll, hmem]
  · rename_i hnew
    simp [List.removeAll, hnew, List.eraseDups_cons]

/-- The names come in the order in which they come first. -/
theorem names_ofList (pairs : List (String × String)) :
    (ofList pairs).names = (pairs.map Prod.fst).eraseDups := by
  induction pairs using List.reverseRecOn with
  | nil => rfl
  | append_singleton pairs pair ih =>
    rw [ofList_append_singleton, names_insert, ih, List.map_append, List.map_singleton,
      eraseDups_append_singleton]
    simp only [List.mem_eraseDups]

/-- The value of a name is the one that it comes with last. -/
theorem get?_ofList (pairs : List (String × String)) (name : String) :
    (ofList pairs).get? name =
      (pairs.reverse.find? fun pair => pair.1 == name).map Prod.snd := by
  induction pairs using List.reverseRecOn with
  | nil => rfl
  | append_singleton pairs pair ih =>
    rw [ofList_append_singleton, get?_insert, List.reverse_append, List.reverse_singleton,
      List.singleton_append, List.find?_cons]
    by_cases hname : name = pair.1
    · simp [hname]
    · have hother : (pair.1 == name) = false := beq_eq_false_iff_ne.mpr (Ne.symm hname)
      rw [if_neg hname, hother, ih]

end AtMarkup.Tag.Options
