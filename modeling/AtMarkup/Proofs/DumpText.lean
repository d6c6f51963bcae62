import Mathlib
import AtMarkup.Proofs.Escaping
import AtMarkup.Proofs.QuotedContents
import AtMarkup.Proofs.ReadBack

/-!
# A dump tells its tree

A dump shows option keys and values as they are and nesting by indentation alone, so a tree built
by hand may be dumped like another one. A tree that was read is not: its dump determines it up to
positions, and with it what is shown of it (`dump_eq_iff_of_parse`).

The dump is taken apart from the front, and at each place what a sound node may hold tells where
the next part ends:

* a kind ends at the first `(` and the options at the first `)`; inside, an option ends at the first
  comma, and its key at the first colon (`dumpOptions_inj`);
* behind the same indent a child goes on with four blanks, the content with two blanks and a quote,
  and the closing line with a brace, so that the children end where the dump of the next one does
  not begin (`dump_children_append_inj`);
* a quoted content ends at its closing quote (`quoted_append_inj`).

So a dump is told apart from any other, whatever stands behind the two (`dump_append_inj`, by
induction on the tree).
-/

namespace AtMarkup

open Grammar

/-- A text is cut in one way only at the first sign of a kind. -/
theorem Text.append_cons_inj {a b rest rest' : List Char} {sign : Char} (ha : sign ∉ a)
    (hb : sign ∉ b) (h : a ++ sign :: rest = b ++ sign :: rest') : a = b ∧ rest = rest' := by
  induction a generalizing b with
  | nil =>
    cases b with
    | nil => exact ⟨rfl, (List.cons.inj h).2⟩
    | cons d b => exact absurd ((List.cons.inj h).1 ▸ List.mem_cons_self) hb
  | cons c a ih =>
    cases b with
    | nil => exact absurd ((List.cons.inj h).1 ▸ List.mem_cons_self) ha
    | cons d b =>
      rw [List.mem_cons, not_or] at ha hb
      obtain ⟨rfl, htail⟩ := List.cons.inj h
      obtain ⟨rfl, hrest⟩ := ih ha.2 hb.2 htail
      exact ⟨rfl, hrest⟩

namespace Tag

/-! ## Options -/

/-- The key and value of an option as the reader gives them. -/
def IsSoundOption (entry : String × String) : Prop :=
  IsKey entry.1.toList ∧ IsValue entry.2.toList

/-- The options of a sound node are sound. -/
theorem IsSound.isSoundOption {node : Tag} (h : node.IsSound) :
    ∀ entry ∈ node.options.entries, IsSoundOption entry := by
  intro entry hentry
  exact ⟨h.keys entry hentry, (h.values entry hentry).1⟩

/-- The characters of a dumped option. -/
theorem toList_dumpOption (entry : String × String) :
    (dumpOption entry).toList =
      entry.1.toList ++ ':' :: ' ' :: '"' :: (entry.2.toList ++ ['"']) := by
  simp [dumpOption]

/-- A sign that no key may have is in none. -/
theorem not_mem_key {key : List Char} (h : IsKey key) {sign : Char}
    (hsign : ¬ IsKeyCharacter sign) : sign ∉ key := by
  intro hmem
  exact hsign (h.2 sign hmem)

/-- Neither a comma nor a closing parenthesis is in a dumped option. -/
theorem not_mem_dumpOption {entry : String × String} (h : IsSoundOption entry) {sign : Char}
    (hsign : sign ∈ [',', ')']) : sign ∉ (dumpOption entry).toList := by
  obtain ⟨hname, hdelimiter, hpunctuation⟩ :
      ¬ IsKeyCharacter sign ∧ sign ∈ valueDelimiters ∧ sign ∉ [':', ' ', '"'] := by
    simp only [List.mem_cons, List.not_mem_nil, or_false] at hsign
    rcases hsign with rfl | rfl <;> decide
  have hkey := not_mem_key h.1 hname
  have hvalue : sign ∉ entry.2.toList := by
    intro hmem
    exact h.2 sign hmem hdelimiter
  rw [toList_dumpOption]
  simp only [List.mem_append, List.mem_cons, List.not_mem_nil, or_false, not_or] at hpunctuation ⊢
  tauto

/-- A dumped option is told apart from any other. -/
theorem dumpOption_inj {a b : String × String} (ha : IsSoundOption a) (hb : IsSoundOption b)
    (h : (dumpOption a).toList = (dumpOption b).toList) : a = b := by
  rw [toList_dumpOption, toList_dumpOption] at h
  have hcolon : ¬ IsKeyCharacter ':' := by decide
  obtain ⟨hkey, hrest⟩ :=
    Text.append_cons_inj (not_mem_key ha.1 hcolon) (not_mem_key hb.1 hcolon) h
  have hvalue : a.2.toList = b.2.toList := by simpa using hrest
  exact Prod.ext (String.toList_inj.mp hkey) (String.toList_inj.mp hvalue)

/-- The dumps of options, parted by commas. -/
def dumpEntries (entries : List (String × String)) : List Char :=
  ", ".toList.intercalate (entries.map fun entry => (dumpOption entry).toList)

/-- The options of a node are dumped entry by entry. -/
theorem toList_dumpOptions (options : Options) :
    (dumpOptions options).toList = dumpEntries options.entries := by
  rw [dumpOptions, String.toList_intercalate, List.map_map]
  rfl

/-- The first of several options is followed by a comma. -/
theorem dumpEntries_cons_cons (entry next : String × String) (entries : List (String × String)) :
    dumpEntries (entry :: next :: entries) =
      (dumpOption entry).toList ++ ',' :: ' ' :: dumpEntries (next :: entries) := by
  have hcomma : ", ".toList = [',', ' '] := rfl
  simp [dumpEntries, hcomma]

/-- An option alone is followed by nothing. -/
theorem dumpEntries_singleton (entry : String × String) :
    dumpEntries [entry] = (dumpOption entry).toList := by
  simp [dumpEntries]

/-- Some options are dumped as something. -/
theorem dumpEntries_cons_ne_nil (entry : String × String) (entries : List (String × String)) :
    dumpEntries (entry :: entries) ≠ [] := by
  cases entries with
  | nil => simp [dumpEntries_singleton, toList_dumpOption]
  | cons next entries => simp [dumpEntries_cons_cons]

/-- Dumped options are told apart from any other. -/
theorem dumpEntries_inj {a b : List (String × String)} (ha : ∀ entry ∈ a, IsSoundOption entry)
    (hb : ∀ entry ∈ b, IsSoundOption entry) (h : dumpEntries a = dumpEntries b) : a = b := by
  induction a generalizing b with
  | nil =>
    cases b with
    | nil => rfl
    | cons other b => exact absurd h.symm (dumpEntries_cons_ne_nil other b)
  | cons entry a ih =>
    cases b with
    | nil => exact absurd h (dumpEntries_cons_ne_nil entry a)
    | cons other b =>
      obtain ⟨hentry, ha⟩ := List.forall_mem_cons.mp ha
      obtain ⟨hother, hb⟩ := List.forall_mem_cons.mp hb
      have hcomma := not_mem_dumpOption hentry List.mem_cons_self
      have hcomma' := not_mem_dumpOption hother List.mem_cons_self
      cases a with
      | nil =>
        cases b with
        | nil =>
          rw [dumpEntries_singleton, dumpEntries_singleton] at h
          rw [dumpOption_inj hentry hother h]
        | cons next b =>
          rw [dumpEntries_singleton, dumpEntries_cons_cons] at h
          exact absurd (h ▸ by simp) hcomma
      | cons next a =>
        cases b with
        | nil =>
          rw [dumpEntries_singleton, dumpEntries_cons_cons] at h
          exact absurd (h ▸ by simp) hcomma'
        | cons next' b =>
          rw [dumpEntries_cons_cons, dumpEntries_cons_cons] at h
          obtain ⟨hfirst, hrest⟩ := Text.append_cons_inj hcomma hcomma' h
          rw [dumpOption_inj hentry hother hfirst, ih ha hb (List.cons.inj hrest).2]

/-- No closing parenthesis is in dumped options. -/
theorem not_mem_dumpEntries {entries : List (String × String)}
    (h : ∀ entry ∈ entries, IsSoundOption entry) : ')' ∉ dumpEntries entries := by
  induction entries with
  | nil => simp [dumpEntries]
  | cons entry entries ih =>
    obtain ⟨hentry, hentries⟩ := List.forall_mem_cons.mp h
    have hfirst : ')' ∉ (dumpOption entry).toList := not_mem_dumpOption hentry (by decide)
    cases entries with
    | nil =>
      rw [dumpEntries_singleton]
      exact hfirst
    | cons next entries =>
      rw [dumpEntries_cons_cons]
      simp [hfirst, ih hentries]

/-- The options of sound nodes are told by their dumps, whatever stands behind them. -/
theorem dumpOptions_inj {a b : Tag} (ha : a.IsSound) (hb : b.IsSound) {rest rest' : List Char}
    (h : (dumpOptions a.options).toList ++ ')' :: rest =
      (dumpOptions b.options).toList ++ ')' :: rest') : a.options = b.options ∧ rest = rest' := by
  rw [toList_dumpOptions, toList_dumpOptions] at h
  obtain ⟨hentries, hrest⟩ := Text.append_cons_inj (not_mem_dumpEntries ha.isSoundOption)
    (not_mem_dumpEntries hb.isSoundOption) h
  have hsame := dumpEntries_inj ha.isSoundOption hb.isSoundOption hentries
  exact ⟨Options.eq_of_entries_eq hsame, hrest⟩

/-! ## The end of a dump -/

/-- What follows the children in a dump: the content, if there is any, and the closing line. -/
def dumpEnd (indent content : String) : List Char :=
  (if content = "" then []
    else
      indent.toList ++ ' ' :: ' ' :: '"' ::
        (content.toList.flatMap quoteCharacter ++ ['"', '\n'])) ++
    (indent.toList ++ ['}', '\n'])

/-- The characters of a dump. -/
theorem toList_dump (indent : String) (tag : Tag) :
    (tag.dump indent).toList = indent.toList ++ '@' :: (tag.kind.toList ++ '(' ::
      ((dumpOptions tag.options).toList ++ ')' :: ' ' :: '{' :: '\n' ::
        (tag.children.flatMap (fun child => (child.dump (indent ++ "    ")).toList) ++
          dumpEnd indent tag.content))) := by
  rw [dump, dumpEnd]
  by_cases hcontent : tag.content = ""
  · simp [hcontent, List.flatMap_map]
  · simp [hcontent, List.flatMap_map, quoteContent]

/-- Behind the indent no dump ends with four blanks. -/
theorem dumpEnd_append_ne (indent content : String) (rest behind : List Char) :
    dumpEnd indent content ++ rest ≠ (indent ++ "    ").toList ++ behind := by
  intro h
  have hblanks : "    ".toList = [' ', ' ', ' ', ' '] := rfl
  unfold dumpEnd at h
  split at h
  · simp [hblanks] at h
  · simp [hblanks] at h

/-- The end of a dump tells its content, whatever stands behind it. -/
theorem dumpEnd_append_inj {indent content content' : String} {rest rest' : List Char}
    (h : dumpEnd indent content ++ rest = dumpEnd indent content' ++ rest') :
    content = content' ∧ rest = rest' := by
  unfold dumpEnd at h
  split at h
  · rename_i hempty
    split at h
    · rename_i hempty'
      refine ⟨hempty.trans hempty'.symm, ?_⟩
      simpa using h
    · simp at h
  · split at h
    · simp at h
    · simp only [List.append_assoc, List.cons_append, List.append_cancel_left_eq, List.cons.injEq,
        true_and] at h
      obtain ⟨hcontent, hrest⟩ := quoted_append_inj h
      refine ⟨String.toList_inj.mp hcontent, ?_⟩
      simpa using hrest

/-! ## Nodes -/

/-- Whether a dump is that of `tag` is told, whatever stands behind it. -/
def IsToldByDump (tag : Tag) : Prop :=
  ∀ {other : Tag}, (∀ node ∈ other.walk, node.IsSound) →
    ∀ {indent : String} {rest rest' : List Char},
      (tag.dump indent).toList ++ rest = (other.dump indent).toList ++ rest' →
        tag.unplaced = other.unplaced ∧ rest = rest'

/-- Children that are told by their dumps are told together, in front of the end of a dump. -/
theorem dump_children_append_inj {children others : List Tag}
    (htold : ∀ child ∈ children, child.IsToldByDump)
    (hothers : ∀ other ∈ others, ∀ node ∈ other.walk, node.IsSound)
    {indent content content' : String} {rest rest' : List Char}
    (h : children.flatMap (fun child => (child.dump (indent ++ "    ")).toList) ++
        (dumpEnd indent content ++ rest) =
      others.flatMap (fun other => (other.dump (indent ++ "    ")).toList) ++
        (dumpEnd indent content' ++ rest')) :
    children.map unplaced = others.map unplaced ∧ content = content' ∧ rest = rest' := by
  induction children generalizing others with
  | nil =>
    cases others with
    | nil => exact ⟨rfl, dumpEnd_append_inj h⟩
    | cons other others =>
      rw [List.flatMap_cons, toList_dump, List.append_assoc, List.append_assoc] at h
      exact absurd h (dumpEnd_append_ne indent content rest _)
  | cons child children ih =>
    obtain ⟨hchild, hchildren⟩ := List.forall_mem_cons.mp htold
    cases others with
    | nil =>
      rw [List.flatMap_cons, toList_dump, List.append_assoc, List.append_assoc] at h
      exact absurd h.symm (dumpEnd_append_ne indent content' rest' _)
    | cons other others =>
      obtain ⟨hother, hothers⟩ := List.forall_mem_cons.mp hothers
      rw [List.flatMap_cons, List.flatMap_cons, List.append_assoc, List.append_assoc] at h
      obtain ⟨hfirst, hbehind⟩ := hchild hother h
      obtain ⟨hrest, hends⟩ := ih hchildren hothers hbehind
      exact ⟨by rw [List.map_cons, List.map_cons, hfirst, hrest], hends⟩

/-- No opening parenthesis is in the kind of a sound node. -/
theorem IsSound.not_mem_kind {node : Tag} (h : node.IsSound) : '(' ∉ node.kind.toList := by
  intro hmem
  exact absurd (h.kind.2 '(' hmem) (by decide)

/-- **A dump is told apart.** The dump of a sound tree is not that of any other, nor does it start
like one, whatever stands behind the two. -/
theorem dump_append_inj {tag : Tag} (hsound : ∀ node ∈ tag.walk, node.IsSound) :
    tag.IsToldByDump := by
  induction tag using Tag.induction with
  | node tag ih =>
    intro other hother indent rest rest' h
    have hself := hsound tag tag.mem_walk_self
    have hself' := hother other other.mem_walk_self
    have htold : ∀ child ∈ tag.children, child.IsToldByDump := by
      intro child hchild
      apply ih child hchild
      intro node hnode
      exact hsound node (mem_walk_of_mem_children hchild hnode)
    have hothers : ∀ child ∈ other.children, ∀ node ∈ child.walk, node.IsSound := by
      intro child hchild node hnode
      exact hother node (mem_walk_of_mem_children hchild hnode)
    rw [toList_dump, toList_dump] at h
    simp only [List.append_assoc, List.cons_append, List.append_cancel_left_eq, List.cons.injEq,
      true_and] at h
    obtain ⟨hkind, hoptions⟩ := Text.append_cons_inj hself.not_mem_kind hself'.not_mem_kind h
    obtain ⟨hoptions, hbody⟩ := dumpOptions_inj hself hself' hoptions
    simp only [List.cons.injEq, true_and] at hbody
    obtain ⟨hchildren, hcontent, hrest⟩ := dump_children_append_inj htold hothers hbody
    refine ⟨?_, hrest⟩
    rw [unplaced, unplaced, String.toList_inj.mp hkind, hoptions, hcontent, hchildren]

/-! ## What positions do not change -/

/-- A dump shows no positions. -/
theorem dump_unplaced (indent : String) (tag : Tag) :
    tag.unplaced.dump indent = tag.dump indent := by
  induction tag using Tag.induction generalizing indent with
  | node tag ih =>
    have hchildren : (tag.children.map unplaced).map (dump (indent ++ "    ")) =
        tag.children.map (dump (indent ++ "    ")) := by
      rw [List.map_map]
      exact List.map_congr_left fun child hchild => ih child hchild (indent ++ "    ")
    rw [dump, children_unplaced, hchildren, kind_unplaced, options_unplaced, content_unplaced, dump]

/-- HTML shows no positions. -/
theorem render_unplaced (escaped : Bool) (tag : Tag) :
    Html.render escaped tag.unplaced = Html.render escaped tag := by
  induction tag using Tag.induction with
  | node tag ih =>
    have hkind : Kind.ofName? tag.unplaced.kind = Kind.ofName? tag.kind := by
      rw [kind_unplaced]
    by_cases htext : Kind.ofName? tag.kind = some .text
    · rw [Html.render, hkind, htext, Html.render, htext, content_unplaced]
    by_cases himage : Kind.ofName? tag.kind = some .image
    · rw [Html.render, hkind, himage, Html.render, himage, options_unplaced]
    rw [Html.render_element hkind htext himage, Html.render_element rfl htext himage,
      options_unplaced, children_unplaced, List.map_map]
    congr 3
    apply List.map_congr_left
    intro child hchild
    simp [ih child hchild]

end Tag

/-! ## Documents -/

/-- **A dump tells its tree.** Two documents that are accepted have the same dump exactly if their
trees are the same up to positions, and then they are shown alike. -/
theorem dump_eq_iff_of_parse {frames frames' : Nat} {asked asked' : Int}
    {source source' : Source} {root root' : Tag}
    (h : (parse frames asked source).value = .ok root)
    (h' : (parse frames' asked' source').value = .ok root') :
    (root.dump "" = root'.dump "" ↔ root.unplaced = root'.unplaced) ∧
      (root.dump "" = root'.dump "" →
        ∀ escaped, Html.render escaped root = Html.render escaped root') := by
  obtain ⟨hsound, -⟩ := isSound_of_readMarkup (parse_eq_ok_iff.mp h).1
  obtain ⟨hsound', -⟩ := isSound_of_readMarkup (parse_eq_ok_iff.mp h').1
  have htold : root.dump "" = root'.dump "" → root.unplaced = root'.unplaced := by
    intro hdump
    have hbehind : (root.dump "").toList ++ [] = (root'.dump "").toList ++ [] := by rw [hdump]
    exact (Tag.dump_append_inj hsound hsound' hbehind).1
  refine ⟨⟨htold, fun hsame => ?_⟩, fun hdump escaped => ?_⟩
  · rw [← Tag.dump_unplaced, hsame, Tag.dump_unplaced]
  · rw [← Tag.render_unplaced, htold hdump, Tag.render_unplaced]

/-- Two documents that are laid out differently, with signs of the dump in a text and an option,
have the same dump and are shown alike. -/
theorem dump_eq_iff_of_parse_link :
    ∃ root root',
      (parse 1000 3 (.text "@main\x7ba\\\x7d \"\\n@link(uri: \"x;:\")\x7b b \x7d\x7d")).value =
        .ok root ∧
      (parse 1000 2 (.text
          " @main \x7ba\\\x7d\t \"\\n@link\n(uri : \"x;:\" )\x7b\t b\n\x7d\r\x7d")).value =
        .ok root' ∧
      root.position ≠ root'.position ∧ root.dump "" = root'.dump "" ∧
      root.unplaced = root'.unplaced ∧
      ∀ escaped, Html.render escaped root = Html.render escaped root' := by
  let link : Tag := ⟨"link", .ofList [("uri", "x;:")], "", ⟨13, 0, 13⟩,
    [.textLeaf " b " ⟨31, 0, 31⟩]⟩
  let root : Tag := ⟨"main", .empty, "", ⟨0, 0, 0⟩, [.textLeaf "a\x7d \"\n" ⟨6, 0, 6⟩, link]⟩
  let link' : Tag := ⟨"link", .ofList [("uri", "x;:")], "", ⟨16, 0, 16⟩,
    [.textLeaf " b " ⟨37, 1, 15⟩]⟩
  let root' : Tag := ⟨"main", .empty, "", ⟨1, 0, 1⟩, [.textLeaf "a\x7d \"\n" ⟨8, 0, 8⟩, link']⟩
  have hparse : (parse 1000 3 (.text
      "@main\x7ba\\\x7d \"\\n@link(uri: \"x;:\")\x7b b \x7d\x7d")).value = .ok root := by
    cbv
  have hparse' : (parse 1000 2 (.text
      " @main \x7ba\\\x7d\t \"\\n@link\n(uri : \"x;:\" )\x7b\t b\n\x7d\r\x7d")).value =
        .ok root' := by
    cbv
  obtain ⟨htold, hshown⟩ := dump_eq_iff_of_parse hparse hparse'
  have hdump : root.dump "" = root'.dump "" := by cbv
  exact ⟨root, root', hparse, hparse', by decide, hdump, htold.mp hdump, hshown hdump⟩

end AtMarkup
