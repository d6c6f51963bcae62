/-!
# Options

The options of a tag are a dictionary from names to values that remembers the order in which
the names first came.  Writing a name again keeps its place and changes its value.

A dictionary is seen through two views, the list of its `names` and the value `get?` of each of
them; `names_insert` and `get?_insert` say what writing does to either.
-/

namespace AtMarkup.Tag

/-- Option values by name, in the order in which the names first came. -/
structure Options where
  /-- The names and their values. -/
  entries : List (String × String)
  /-- Each name comes once. -/
  nodup : (entries.map Prod.fst).Nodup
  deriving DecidableEq, Repr

namespace Options

/-- No options. -/
def empty : Options := ⟨[], List.nodup_nil⟩

instance : Inhabited Options := ⟨empty⟩

/-- The names, in the order in which they first came. -/
def names (options : Options) : List String :=
  options.entries.map Prod.fst

/-- The value of an option, if it is given. -/
def get? (options : Options) (name : String) : Option String :=
  (options.entries.find? fun entry => entry.1 == name).map Prod.snd

/-- The value of an option, or a default. -/
def getD (options : Options) (name default : String) : String :=
  (options.get? name).getD default

/-- Whether an option is given. -/
def contains (options : Options) (name : String) : Bool :=
  (options.get? name).isSome

/-! ### Writing -/

/-- An entry as it is once `name` has the value `value`. -/
def updated (name value : String) (entry : String × String) : String × String :=
  if entry.1 == name then (name, value) else entry

@[simp] theorem fst_updated (name value : String) (entry : String × String) :
    (updated name value entry).1 = entry.1 := by
  unfold updated
  split
  · rename_i h
    exact (eq_of_beq h).symm
  · rfl

/-- Updating entries keeps their names. -/
theorem map_fst_updated (name value : String) (entries : List (String × String)) :
    (entries.map (updated name value)).map Prod.fst = entries.map Prod.fst := by
  rw [List.map_map]
  exact List.map_congr_left fun entry _ => fst_updated name value entry

/-- An option is given exactly when its name is among the names. -/
theorem contains_iff_mem_names {options : Options} {name : String} :
    options.contains name = true ↔ name ∈ options.names := by
  simp only [contains, get?, names, Option.isSome_map, List.find?_isSome, List.mem_map, beq_iff_eq]

/-- A new name does not come twice when it is put behind the others. -/
theorem nodup_append_new {options : Options} {name : String}
    (h : ¬ options.contains name = true) (value : String) :
    ((options.entries ++ [(name, value)]).map Prod.fst).Nodup := by
  rw [contains_iff_mem_names] at h
  rw [List.map_append, List.nodup_append]
  refine ⟨options.nodup, List.pairwise_singleton _ _, ?_⟩
  intro a ha b hb hab
  obtain rfl : b = name := List.mem_singleton.1 hb
  exact h (hab ▸ ha)

/-- Gives an option a value: in its old place if it is there, else behind all others. -/
def insert (options : Options) (name value : String) : Options :=
  if h : options.contains name = true then
    ⟨options.entries.map (updated name value),
      (map_fst_updated name value options.entries).symm ▸ options.nodup⟩
  else ⟨options.entries ++ [(name, value)], nodup_append_new h value⟩

/-- The options that a list of pairs gives, one pair after the other. -/
def ofList (pairs : List (String × String)) : Options :=
  pairs.foldl (fun options pair => options.insert pair.1 pair.2) empty

/-! ### What writing does -/

@[simp] theorem names_empty : empty.names = [] := rfl

@[simp] theorem get?_empty (name : String) : empty.get? name = none := rfl

/-- Writing puts a new name behind the others and leaves the names alone otherwise. -/
theorem names_insert (options : Options) (name value : String) :
    (options.insert name value).names =
      if name ∈ options.names then options.names else options.names ++ [name] := by
  unfold insert
  split
  · rename_i h
    rw [if_pos (contains_iff_mem_names.1 h)]
    exact map_fst_updated name value options.entries
  · rename_i h
    rw [if_neg (fun hm => h (contains_iff_mem_names.2 hm))]
    exact List.map_append

/-- The name that is written has its new value, and every other name its old one. -/
theorem get?_insert (options : Options) (name value other : String) :
    (options.insert name value).get? other =
      if other = name then some value else options.get? other := by
  unfold insert
  split
  · rename_i h
    have hname : (fun entry : String × String => entry.1 == other) ∘ updated name value =
        fun entry => entry.1 == other := by
      funext entry
      rw [Function.comp, fst_updated]
    rw [get?, List.find?_map, hname, get?]
    cases hfind : options.entries.find? fun entry => entry.1 == other with
    | none =>
      have hne : other ≠ name := by
        rintro rfl
        simp [contains, get?, hfind] at h
      simp [hne]
    | some entry =>
      have hentry : entry.1 = other := by simpa using List.find?_some hfind
      by_cases ho : other = name <;> simp [updated, hentry, ho]
  · rename_i h
    rw [contains, Bool.not_eq_true, Option.isSome_eq_false_iff, Option.isNone_iff_eq_none] at h
    simp only [get?] at h ⊢
    rw [List.find?_append]
    by_cases ho : other = name
    · subst ho
      rw [Option.map_eq_none_iff] at h
      simp [h]
    · simp [ho, Ne.symm ho]

end Options

end AtMarkup.Tag
