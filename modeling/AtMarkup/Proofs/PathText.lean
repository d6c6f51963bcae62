import Mathlib
import AtMarkup.Proofs.WholeReading

/-!
# The text of a path

A path is read name by name, and some of what it is written with goes: empty names and single dots.
All other characters stay (`Path.mem_text_ofString_iff`), since cutting a text and putting it
together again lose nothing but separators.

So a path is refused for a NUL character exactly if it is written with one
(`FileSystem.read?_ofString_eq_embeddedNul_iff`). What else is wrong with a path is an error of the
operating system, when the file is opened or when it is read (`value_readPath_eq_error_iff`).
-/

namespace AtMarkup

/-! ## Characters -/

/-- A list that is put together with separators holds what the parts hold, and otherwise only
separators. -/
theorem mem_intercalate_iff {separator : List Char} {parts : List (List Char)} {c : Char}
    (hc : c ∉ separator) : c ∈ separator.intercalate parts ↔ ∃ part ∈ parts, c ∈ part := by
  induction parts with
  | nil => simp
  | cons part parts ih =>
    cases parts with
    | nil => simp
    | cons next parts =>
      rw [List.intercalate_cons_cons, List.mem_append, List.mem_append, ih,
        List.exists_mem_cons_iff _ part]
      simp only [hc, or_false]

namespace Path

theorem eq_slash_of_mem_rootOf {text : List Char} {c : Char} (h : c ∈ (rootOf text).toList) :
    c = '/' := by
  unfold rootOf at h
  split at h
  · simpa using h
  · simpa using h
  · simpa using h
  · simp at h

/-- A path has the characters that it is written with, except that slashes and dots may go. -/
theorem mem_text_ofString_iff {text : String} {c : Char} (hslash : c ≠ '/') (hdot : c ≠ '.') :
    c ∈ (ofString text).text.toList ↔ c ∈ text.toList := by
  have hpieces : (∃ piece ∈ Text.splitWhere (· == '/') text.toList, c ∈ piece) ↔
      c ∈ text.toList := by
    rw [← List.mem_flatten, Text.flatten_splitWhere, List.mem_filter]
    simp [hslash]
  have hnames : (∃ name ∈ (ofString text).names, c ∈ name.toList) ↔ c ∈ text.toList := by
    rw [← hpieces]
    simp only [ofString, List.mem_filter, List.mem_map]
    constructor
    · rintro ⟨_, ⟨⟨piece, hpiece, rfl⟩, -⟩, hc⟩
      exact ⟨piece, hpiece, by simpa using hc⟩
    · rintro ⟨piece, hpiece, hc⟩
      have hkept : String.ofList piece ≠ "" ∧ String.ofList piece ≠ "." := by
        constructor
        · rintro hempty
          rw [← String.toList_inj, String.toList_ofList] at hempty
          rw [hempty] at hc
          cases hc
        · rintro hsingle
          rw [← String.toList_inj, String.toList_ofList] at hsingle
          rw [hsingle] at hc
          exact hdot (List.mem_singleton.mp hc)
      exact ⟨String.ofList piece, ⟨⟨piece, hpiece, rfl⟩, by simpa using hkept⟩, by simpa using hc⟩
  have hroot : c ∉ (ofString text).root.toList := fun h => hslash (eq_slash_of_mem_rootOf h)
  have hshown : c ∈ ((ofString text).root ++ "/".intercalate (ofString text).names).toList ↔
      c ∈ text.toList := by
    rw [String.toList_append, List.mem_append, String.toList_intercalate,
      mem_intercalate_iff (by simpa using hslash), ← hnames]
    simp [hroot]
  unfold Path.text
  simp only
  split_ifs with hempty
  · rw [← hshown, String.isEmpty_iff.mp hempty]
    simpa using hdot
  · exact hshown

end Path

/-! ## NUL characters -/

namespace FileSystem

variable {files : FileSystem} {path : Path}

/-- A path is refused for a NUL character exactly if it has one. -/
theorem resolve_eq_embeddedNul_iff (files : FileSystem) (creating : Bool) (path : Path) :
    files.resolve creating path = .error .embeddedNul ↔ '\x00' ∈ path.text.toList := by
  have hsystem (place : Except SystemError Place) :
      (place.mapError fun error => FileError.system error (some path)) ≠ .error .embeddedNul := by
    cases place <;> simp [Except.mapError]
  rw [← List.contains_iff_mem]
  unfold resolve
  split_ifs with hnul hlong
  · exact iff_of_true rfl hnul
  · exact iff_of_false (hsystem _) hnul
  · exact iff_of_false (hsystem _) hnul

theorem read?_eq_embeddedNul_iff :
    files.read? path = .error .embeddedNul ↔ '\x00' ∈ path.text.toList := by
  rw [← files.resolve_eq_embeddedNul_iff false path]
  unfold read?
  cases files.resolve false path with
  | error error => simp [bind, Except.bind]
  | ok place => cases h : files.inputAt place <;> simp [bind, Except.bind, Except.mapError, h]

/-- A path that is written with a NUL character cannot be read from, and no other path is refused as
one. -/
theorem read?_ofString_eq_embeddedNul_iff {text : String} :
    files.read? (.ofString text) = .error .embeddedNul ↔ '\x00' ∈ text.toList := by
  rw [read?_eq_embeddedNul_iff, Path.mem_text_ofString_iff (by decide) (by decide)]

end FileSystem

/-! ## Reading from a path -/

/-- A file at a path cannot be read, and this is the error. -/
inductive FileSystem.FailsToRead (settings : Settings) (files : FileSystem) (path : Path) :
    FileError → Prop where
  /-- It cannot be opened. -/
  | unopened {error : FileError} (h : files.read? path = .error error) :
      FailsToRead settings files path error
  /-- It is opened, and breaks. -/
  | broken {input : Input} {error : SystemError} (h : files.read? path = .ok input)
      (hbreaks : input.Breaks settings error) :
      FailsToRead settings files path (.system error none)

section

variable {settings : Settings} {files : FileSystem} {path : Path}

/-- Reading from a path fails exactly if the file cannot be read. -/
theorem value_readPath_eq_error_iff {error : PathError} :
    (readPath settings files path none).value = .error error ↔
      ∃ cause, files.FailsToRead settings path cause ∧ error = .ofFileError path cause := by
  unfold readPath
  cases hread : files.read? path with
  | error cause =>
    simp only [Logged.value_pure, Except.error.injEq]
    constructor
    · rintro rfl
      exact ⟨cause, .unopened hread, rfl⟩
    · rintro ⟨cause', hfails, rfl⟩
      cases hfails with
      | unopened h => rw [Except.error.inj (hread.symm.trans h)]
      | broken h => cases hread.symm.trans h
  | ok input =>
    simp only [Logged.value_bind, Logged.value_pure]
    constructor
    · intro h
      cases hvalue : (input.read settings path.text none).value with
      | ok data =>
        rw [hvalue] at h
        cases h
      | error fault =>
        rw [hvalue] at h
        exact ⟨_, .broken hread (Input.value_read_eq_error_iff.mp hvalue),
          (Except.error.inj h).symm⟩
    · rintro ⟨cause, hfails, rfl⟩
      cases hfails with
      | unopened h => cases hread.symm.trans h
      | broken h hbreaks =>
        obtain rfl := Except.ok.inj (hread.symm.trans h)
        rw [Input.value_read_eq_error_iff.mpr hbreaks]
        rfl

/-- A path with a NUL character has no other error. -/
theorem FileSystem.FailsToRead.eq_embeddedNul {cause : FileError}
    (h : files.FailsToRead settings path cause) (hnul : '\x00' ∈ path.text.toList) :
    cause = .embeddedNul := by
  have hread : files.read? path = .error .embeddedNul :=
    FileSystem.read?_eq_embeddedNul_iff.mpr hnul
  cases h with
  | unopened h => exact Except.error.inj (h.symm.trans hread)
  | broken h => cases h.symm.trans hread

/-- Any other path has errors of the operating system only. -/
theorem FileSystem.FailsToRead.eq_system {cause : FileError}
    (h : files.FailsToRead settings path cause) (hnul : '\x00' ∉ path.text.toList) :
    ∃ error named, cause = .system error named := by
  cases h with
  | unopened hread =>
    cases cause with
    | embeddedNul => exact absurd (FileSystem.read?_eq_embeddedNul_iff.mp hread) hnul
    | system error named => exact ⟨error, named, rfl⟩
  | broken hread hbreaks => exact ⟨_, none, rfl⟩

end

end AtMarkup
