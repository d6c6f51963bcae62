import Mathlib
import AtMarkup.Html.Escape

/-!
# Scanning HTML

HTML is taken apart here by a scanner that knows nothing of how it was made. Outside of tags a `<`
opens a tag and everything else is character data; a tag ends at the first `>` outside double
quotes (`scan`). What is inside a tag is a name with attributes, or a slash and a name
(`readTag?`), and in character data the five references of `escape` are undone (`unescape`).

The other direction is `write`, which puts a token down as the output has it. The two meet in
`scanFrom_write`: tokens whose names are names and whose attribute values hold no quote
(`Token.IsClean`) are found again, and nothing else is, whatever characters their data holds. Only
neighbouring data comes back as one token (`mergeData`).
-/

namespace AtMarkup.Html

/-! ## Tokens -/

/-- What HTML consists of. -/
inductive Token where
  /-- The start of an element. -/
  | opening (name : String) (attributes : List (String × String))
  /-- The end of an element. -/
  | closing (name : String)
  /-- An element that has no content. -/
  | void (name : String) (attributes : List (String × String))
  /-- Character data. -/
  | data (text : String)
  deriving DecidableEq, Repr, Inhabited

/-- The elements that have no content. -/
def voidNames : List String :=
  ["br", "img"]

/-- A character of the name of an element or attribute. -/
def isNameLetter (c : Char) : Bool :=
  c.isAlphanum

/-- Puts a token in front of others; neighbouring data is one token. -/
def Token.prepend : Token → List Token → List Token
  | .data text, .data more :: tokens => .data (text ++ more) :: tokens
  | token, tokens => token :: tokens

/-- The tokens with neighbouring data merged. -/
def mergeData (tokens : List Token) : List Token :=
  tokens.foldr Token.prepend []

/-! ## The scanner -/

/-- Undoes the references that `escape` makes. -/
def unescape : List Char → List Char
  | '&' :: 'a' :: 'm' :: 'p' :: ';' :: rest => '&' :: unescape rest
  | '&' :: 'l' :: 't' :: ';' :: rest => '<' :: unescape rest
  | '&' :: 'g' :: 't' :: ';' :: rest => '>' :: unescape rest
  | '&' :: 'q' :: 'u' :: 'o' :: 't' :: ';' :: rest => '"' :: unescape rest
  | '&' :: '#' :: 'x' :: '2' :: '7' :: ';' :: rest => '\'' :: unescape rest
  | c :: rest => c :: unescape rest
  | [] => []

/-- Where in a list of attributes the scanner is; what it has read is kept latest first. -/
inductive Spot where
  /-- Between two attributes. -/
  | between
  /-- In a name. -/
  | name (typed : List Char)
  /-- Behind the equals sign. -/
  | assigned (name : String)
  /-- In a quoted value. -/
  | value (name : String) (typed : List Char)
  deriving DecidableEq, Repr, Inhabited

/-- Reads attributes with values in double quotes. A slash may stand behind them. -/
def readAttributes? : Spot → List Char → Option (List (String × String))
  | .between, [] => some []
  | .between, c :: rest =>
    if c = ' ' then readAttributes? .between rest
    else if c = '/' then if rest.isEmpty then some [] else none
    else if isNameLetter c then readAttributes? (.name [c]) rest
    else none
  | .name typed, c :: rest =>
    if c = '=' then readAttributes? (.assigned (String.ofList typed.reverse)) rest
    else if isNameLetter c then readAttributes? (.name (c :: typed)) rest
    else none
  | .assigned name, c :: rest =>
    if c = '"' then readAttributes? (.value name []) rest else none
  | .value name typed, c :: rest =>
    if c = '"' then
      (readAttributes? .between rest).map ((name, String.ofList typed.reverse) :: ·)
    else readAttributes? (.value name (c :: typed)) rest
  | .name _, [] | .assigned _, [] | .value _ _, [] => none

/-- The token of a name with attributes. -/
def elementToken (name : String) (attributes : List (String × String)) : Token :=
  if name ∈ voidNames then .void name attributes else .opening name attributes

/-- Reads what stands between `<` and `>`. -/
def readTag? (inside : List Char) : Option Token :=
  match inside with
  | '/' :: name =>
    if !name.isEmpty && name.all isNameLetter then some (.closing (String.ofList name)) else none
  | _ =>
    let name := inside.takeWhile isNameLetter
    if name.isEmpty then none
    else
      (readAttributes? .between (inside.dropWhile isNameLetter)).map
        (elementToken (String.ofList name))

/-- Where the scanner is; what it has read there is kept latest first. -/
inductive Place where
  /-- In character data. -/
  | data (typed : List Char)
  /-- In a tag, and whether in double quotes. -/
  | tag (quoted : Bool) (typed : List Char)
  deriving DecidableEq, Repr, Inhabited

/-- The token of some character data, if there is any. -/
def dataTokens (raw : List Char) : List Token :=
  if raw.isEmpty then [] else [.data (String.ofList (unescape raw))]

/-- Scans the text ahead. -/
def scanFrom : Place → List Char → Option (List Token)
  | .data typed, [] => some (dataTokens typed.reverse)
  | .tag _ _, [] => none
  | .data typed, c :: rest =>
    if c = '<' then (scanFrom (.tag false []) rest).map (dataTokens typed.reverse ++ ·)
    else scanFrom (.data (c :: typed)) rest
  | .tag quoted typed, c :: rest =>
    if c = '>' ∧ quoted = false then
      (readTag? typed.reverse).bind fun token => (scanFrom (.data []) rest).map (token :: ·)
    else scanFrom (.tag (if c = '"' then !quoted else quoted) (c :: typed)) rest

/-- The tokens of some HTML, if it can be scanned at all. -/
def scan (html : String) : Option (List Token) :=
  scanFrom (.data []) html.toList

/-! ## Written tokens -/

/-- An attribute as it is written. -/
def writeAttribute (pair : String × String) : List Char :=
  ' ' :: (pair.1.toList ++ '=' :: '"' :: (pair.2.toList ++ ['"']))

/-- A token as the output has it. An element without content ends in a slash if it has no
attributes, and in a space if it has. -/
def write : Token → List Char
  | .opening name attributes =>
    '<' :: (name.toList ++ attributes.flatMap writeAttribute ++ ['>'])
  | .closing name => '<' :: ('/' :: name.toList ++ ['>'])
  | .void name attributes =>
    '<' :: (name.toList ++ attributes.flatMap writeAttribute ++
      [if attributes.isEmpty then '/' else ' '] ++ ['>'])
  | .data text => (escape text).toList

/-- A name of an element or attribute. -/
def IsTagName (name : String) : Prop :=
  name.toList ≠ [] ∧ ∀ c ∈ name.toList, isNameLetter c = true

/-- An attribute whose value cannot end before its quote. -/
def IsCleanAttribute (pair : String × String) : Prop :=
  IsTagName pair.1 ∧ '"' ∉ pair.2.toList

/-- A token that is found again when it is written. -/
def Token.IsClean : Token → Prop
  | .opening name attributes =>
    IsTagName name ∧ name ∉ voidNames ∧ ∀ pair ∈ attributes, IsCleanAttribute pair
  | .closing name => IsTagName name
  | .void name attributes =>
    IsTagName name ∧ name ∈ voidNames ∧ ∀ pair ∈ attributes, IsCleanAttribute pair
  | .data text => text.toList ≠ []

/-! ## Character data -/

/-- A character that starts no reference is kept. -/
theorem unescape_cons {c : Char} (h : c ≠ '&') (rest : List Char) :
    unescape (c :: rest) = c :: unescape rest := by
  conv_lhs => unfold unescape
  split <;> simp_all

/-- A written character is undone. -/
theorem unescape_escapeCharacter (c : Char) (rest : List Char) :
    unescape (escapeCharacter c ++ rest) = c :: unescape rest := by
  by_cases h : c ∈ ['&', '<', '>', '"', '\'']
  · simp only [List.mem_cons, List.not_mem_nil, or_false] at h
    rcases h with rfl | rfl | rfl | rfl | rfl <;> simp [escapeCharacter, unescape]
  · simp only [List.mem_cons, List.not_mem_nil, or_false, not_or] at h
    obtain ⟨hamp, hless, hgreater, hquote, hapostrophe⟩ := h
    rw [escapeCharacter, if_neg hamp, if_neg hless, if_neg hgreater, if_neg hquote,
      if_neg hapostrophe]
    exact unescape_cons hamp rest

/-- Escaping is undone. -/
theorem unescape_escape (text : List Char) :
    unescape (text.flatMap escapeCharacter) = text := by
  induction text with
  | nil => rfl
  | cons c text ih => rw [List.flatMap_cons, unescape_escapeCharacter, ih]

/-- A written character has none of the signs of a tag. -/
theorem not_mem_escapeCharacter (c : Char) {d : Char} (hd : d ∈ ['<', '>', '"', '\'']) :
    d ∉ escapeCharacter c := by
  simp only [List.mem_cons, List.not_mem_nil, or_false] at hd
  intro hmem
  unfold escapeCharacter at hmem
  split_ifs at hmem with hamp hless hgreater hquote hapostrophe
  · rcases hd with rfl | rfl | rfl | rfl <;> simp at hmem
  · rcases hd with rfl | rfl | rfl | rfl <;> simp at hmem
  · rcases hd with rfl | rfl | rfl | rfl <;> simp at hmem
  · rcases hd with rfl | rfl | rfl | rfl <;> simp at hmem
  · rcases hd with rfl | rfl | rfl | rfl <;> simp at hmem
  · rw [List.mem_singleton] at hmem
    subst hmem
    tauto

/-- A written character is not nothing. -/
theorem escapeCharacter_ne_nil (c : Char) : escapeCharacter c ≠ [] := by
  intro h
  have hundone := unescape_escapeCharacter c []
  rw [h] at hundone
  exact List.cons_ne_nil _ _ hundone.symm

/-- Data without a `<` is passed. -/
theorem scanFrom_data_append {text : List Char} (h : '<' ∉ text) (typed rest : List Char) :
    scanFrom (.data typed) (text ++ rest) = scanFrom (.data (text.reverse ++ typed)) rest := by
  induction text generalizing typed with
  | nil => rfl
  | cons c text ih =>
    rw [List.mem_cons, not_or] at h
    rw [List.cons_append, scanFrom, if_neg (Ne.symm h.1), ih h.2, List.reverse_cons,
      List.append_assoc, List.singleton_append]

/-! ## The inside of a tag -/

/-- Text in a tag behind which the scanner is in that tag still, and not in quotes. -/
def Passes (inside : List Char) : Prop :=
  ∀ typed rest, scanFrom (.tag false typed) (inside ++ rest) =
    scanFrom (.tag false (inside.reverse ++ typed)) rest

/-- Nothing is passed. -/
theorem Passes.nil : Passes [] :=
  fun _ _ => rfl

/-- Two parts are passed one after the other. -/
theorem Passes.append {a b : List Char} (ha : Passes a) (hb : Passes b) : Passes (a ++ b) := by
  intro typed rest
  rw [List.append_assoc, ha, hb, List.reverse_append, List.append_assoc]

/-- A character that neither ends the tag nor opens a quote is passed. -/
theorem passes_singleton {c : Char} (hend : c ≠ '>') (hquote : c ≠ '"') : Passes [c] := by
  intro typed rest
  rw [List.singleton_append, scanFrom, if_neg fun h => hend h.1, if_neg hquote]
  rfl

/-- Several such characters are. -/
theorem passes_of_not_mem {text : List Char} (hend : '>' ∉ text) (hquote : '"' ∉ text) :
    Passes text := by
  induction text with
  | nil => exact .nil
  | cons c text ih =>
    rw [List.mem_cons, not_or] at hend hquote
    exact (passes_singleton (Ne.symm hend.1) (Ne.symm hquote.1)).append (ih hend.2 hquote.2)

/-- In quotes everything up to the quote is passed, a `>` as well. -/
theorem scanFrom_quoted {value : List Char} (h : '"' ∉ value) (typed rest : List Char) :
    scanFrom (.tag true typed) (value ++ rest) =
      scanFrom (.tag true (value.reverse ++ typed)) rest := by
  induction value generalizing typed with
  | nil => rfl
  | cons c value ih =>
    rw [List.mem_cons, not_or] at h
    rw [List.cons_append, scanFrom, if_neg fun h => Bool.noConfusion h.2, if_neg (Ne.symm h.1),
      ih h.2, List.reverse_cons, List.append_assoc, List.singleton_append]

/-- A quoted value is passed, if it holds no quote. -/
theorem passes_quoted {value : List Char} (h : '"' ∉ value) : Passes ('"' :: (value ++ ['"'])) := by
  intro typed rest
  have hopen : scanFrom (.tag false typed) ('"' :: (value ++ ['"']) ++ rest) =
      scanFrom (.tag true ('"' :: typed)) (value ++ '"' :: rest) := by
    rw [List.cons_append, scanFrom, if_neg fun h => absurd h.1 (by decide), if_pos rfl,
      List.append_assoc]
    rfl
  rw [hopen, scanFrom_quoted h, scanFrom, if_neg fun h => absurd h.1 (by decide), if_pos rfl]
  simp

/-- A letter is none of the signs. -/
theorem ne_of_isNameLetter {c d : Char} (hc : isNameLetter c = true)
    (hd : isNameLetter d = false) : c ≠ d := by
  rintro rfl
  rw [hc] at hd
  exact Bool.noConfusion hd

/-- No sign is in a name. -/
theorem IsTagName.not_mem {name : String} (h : IsTagName name) {d : Char}
    (hd : isNameLetter d = false) : d ∉ name.toList :=
  fun hmem => ne_of_isNameLetter (h.2 d hmem) hd rfl

/-- A name is passed. -/
theorem IsTagName.passes {name : String} (h : IsTagName name) : Passes name.toList :=
  passes_of_not_mem (h.not_mem rfl) (h.not_mem rfl)

/-- A clean attribute is passed. -/
theorem IsCleanAttribute.passes {pair : String × String} (h : IsCleanAttribute pair) :
    Passes (writeAttribute pair) := by
  have hspace : Passes [' '] := passes_singleton (by decide) (by decide)
  have hequals : Passes ['='] := passes_singleton (by decide) (by decide)
  have hall := hspace.append (h.1.passes.append (hequals.append (passes_quoted h.2)))
  exact hall

/-- Clean attributes are passed. -/
theorem passes_attributes {attributes : List (String × String)}
    (h : ∀ pair ∈ attributes, IsCleanAttribute pair) :
    Passes (attributes.flatMap writeAttribute) := by
  induction attributes with
  | nil => exact .nil
  | cons pair attributes ih =>
    obtain ⟨hpair, hattributes⟩ := List.forall_mem_cons.mp h
    rw [List.flatMap_cons]
    exact hpair.passes.append (ih hattributes)

/-- The inside that is passed is what the tag is read from. -/
theorem scanFrom_tag {inside : List Char} {token : Token} (h : Passes inside)
    (htoken : readTag? inside = some token) (typed rest : List Char) :
    scanFrom (.data typed) ('<' :: (inside ++ '>' :: rest)) =
      (scanFrom (.data []) rest).map (dataTokens typed.reverse ++ token :: ·) := by
  have hread : readTag? (inside.reverse ++ []).reverse = some token := by
    rwa [List.append_nil, List.reverse_reverse]
  rw [scanFrom, if_pos rfl, h, scanFrom, if_pos ⟨rfl, rfl⟩, hread, Option.bind_some,
    Option.map_map]
  rfl

/-! ## What is read from it -/

/-- The letters of a name are read. -/
theorem readAttributes?_name {name : List Char} (h : ∀ c ∈ name, isNameLetter c = true)
    (typed rest : List Char) :
    readAttributes? (.name typed) (name ++ rest) =
      readAttributes? (.name (name.reverse ++ typed)) rest := by
  induction name generalizing typed with
  | nil => rfl
  | cons c name ih =>
    have hletter := h c List.mem_cons_self
    rw [List.cons_append, readAttributes?, if_neg (ne_of_isNameLetter hletter rfl), if_pos hletter,
      ih fun d hd => h d (List.mem_cons_of_mem c hd), List.reverse_cons, List.append_assoc,
      List.singleton_append]

/-- A value is read up to its quote. -/
theorem readAttributes?_value {value : List Char} (h : '"' ∉ value) (name : String)
    (typed rest : List Char) :
    readAttributes? (.value name typed) (value ++ rest) =
      readAttributes? (.value name (value.reverse ++ typed)) rest := by
  induction value generalizing typed with
  | nil => rfl
  | cons c value ih =>
    rw [List.mem_cons, not_or] at h
    rw [List.cons_append, readAttributes?, if_neg (Ne.symm h.1), ih h.2, List.reverse_cons,
      List.append_assoc, List.singleton_append]

/-- A clean attribute is read as it was written, its value raw. -/
theorem readAttributes?_writeAttribute {pair : String × String} (h : IsCleanAttribute pair)
    (rest : List Char) :
    readAttributes? .between (writeAttribute pair ++ rest) =
      (readAttributes? .between rest).map (pair :: ·) := by
  obtain ⟨⟨hne, hletters⟩, hvalue⟩ := h
  obtain ⟨c, letters, hname⟩ := List.exists_cons_of_ne_nil hne
  rw [hname, List.forall_mem_cons] at hletters
  obtain ⟨hfirst, hothers⟩ := hletters
  have hwritten : writeAttribute pair ++ rest =
      ' ' :: (c :: (letters ++ '=' :: '"' :: (pair.2.toList ++ '"' :: rest))) := by
    rw [writeAttribute, hname]
    simp
  have htyped : String.ofList (letters.reverse ++ [c]).reverse = pair.1 := by
    rw [List.reverse_append, List.reverse_reverse, List.reverse_singleton, List.singleton_append,
      ← hname, String.ofList_toList]
  have hread : String.ofList (pair.2.toList.reverse ++ []).reverse = pair.2 := by
    rw [List.append_nil, List.reverse_reverse, String.ofList_toList]
  rw [hwritten, readAttributes?, if_pos rfl, readAttributes?,
    if_neg (ne_of_isNameLetter hfirst rfl), if_neg (ne_of_isNameLetter hfirst rfl), if_pos hfirst,
    readAttributes?_name hothers, readAttributes?, if_pos rfl, htyped, readAttributes?,
    if_pos rfl, readAttributes?_value hvalue, readAttributes?, if_pos rfl, hread]

/-- Clean attributes are read as they were written. -/
theorem readAttributes?_attributes {attributes : List (String × String)}
    (h : ∀ pair ∈ attributes, IsCleanAttribute pair) {tail : List Char}
    (htail : readAttributes? .between tail = some []) :
    readAttributes? .between (attributes.flatMap writeAttribute ++ tail) = some attributes := by
  induction attributes with
  | nil => exact htail
  | cons pair attributes ih =>
    obtain ⟨hpair, hattributes⟩ := List.forall_mem_cons.mp h
    rw [List.flatMap_cons, List.append_assoc, readAttributes?_writeAttribute hpair, ih hattributes]
    rfl

/-- Behind a name come attributes or the end of the tag, and neither starts with a letter. -/
theorem takeWhile_attributes (attributes : List (String × String)) {tail : List Char}
    (htail : ∀ c ∈ tail.head?, isNameLetter c = false) :
    (attributes.flatMap writeAttribute ++ tail).takeWhile isNameLetter = [] ∧
      (attributes.flatMap writeAttribute ++ tail).dropWhile isNameLetter =
        attributes.flatMap writeAttribute ++ tail := by
  have hhead : ∀ c ∈ (attributes.flatMap writeAttribute ++ tail).head?,
      isNameLetter c = false := by
    cases attributes with
    | nil => exact htail
    | cons pair attributes =>
      intro c hc
      obtain rfl : ' ' = c := by simpa [writeAttribute] using hc
      rfl
  cases hcons : attributes.flatMap writeAttribute ++ tail with
  | nil => exact ⟨rfl, rfl⟩
  | cons c rest =>
    have hletter : isNameLetter c = false := hhead c (by rw [hcons]; rfl)
    exact ⟨List.takeWhile_cons_of_neg (by simp [hletter]),
      List.dropWhile_cons_of_neg (by simp [hletter])⟩

/-- A name with clean attributes is read as its element, whatever ends the tag. -/
theorem readTag?_element {name : String} (hname : IsTagName name)
    {attributes : List (String × String)} (h : ∀ pair ∈ attributes, IsCleanAttribute pair)
    {tail : List Char} (hhead : ∀ c ∈ tail.head?, isNameLetter c = false)
    (htail : readAttributes? .between tail = some []) :
    readTag? (name.toList ++ (attributes.flatMap writeAttribute ++ tail)) =
      some (elementToken name attributes) := by
  obtain ⟨htake, hdrop⟩ := takeWhile_attributes attributes hhead
  have hnonempty : name.toList.isEmpty = false := by
    simpa using hname.1
  have hslash : '/' ∉ name.toList := hname.not_mem rfl
  unfold readTag?
  split
  · rename_i rest hcons
    obtain ⟨c, letters, hletters⟩ := List.exists_cons_of_ne_nil hname.1
    rw [hletters, List.cons_append, List.cons.injEq] at hcons
    rw [hletters, hcons.1] at hslash
    exact absurd List.mem_cons_self hslash
  · simp only
    rw [List.takeWhile_append_of_pos hname.2, List.dropWhile_append_of_pos hname.2, htake, hdrop,
      List.append_nil, hnonempty, readAttributes?_attributes h htail, String.ofList_toList]
    rfl

/-- A slash and a name are read as the end of an element. -/
theorem readTag?_closing {name : String} (hname : IsTagName name) :
    readTag? ('/' :: name.toList) = some (.closing name) := by
  have hnonempty : name.toList.isEmpty = false := by
    simpa using hname.1
  rw [readTag?, hnonempty, List.all_eq_true.mpr hname.2, String.ofList_toList]
  rfl

/-! ## Whole texts -/

/-- Whether a token is character data. -/
def Token.IsData : Token → Prop
  | .data _ => True
  | _ => False

/-- A clean tag is found again where it was written. -/
theorem scanFrom_write_tag {token : Token} (hclean : token.IsClean) (htag : ¬ token.IsData)
    (typed rest : List Char) :
    scanFrom (.data typed) (write token ++ rest) =
      (scanFrom (.data []) rest).map (dataTokens typed.reverse ++ token :: ·) := by
  -- every tag is an inside between two signs, and what is left to show is what is read from it
  suffices h : ∃ inside, write token = '<' :: (inside ++ ['>']) ∧ Passes inside ∧
      readTag? inside = some token by
    obtain ⟨inside, hwrite, hpasses, hread⟩ := h
    rw [hwrite, List.cons_append, List.append_assoc]
    exact scanFrom_tag hpasses hread typed rest
  cases token with
  | opening name attributes =>
    obtain ⟨hname, hvoid, hattributes⟩ := hclean
    refine ⟨name.toList ++ (attributes.flatMap writeAttribute ++ []), by simp [write],
      hname.passes.append ((passes_attributes hattributes).append .nil), ?_⟩
    rw [readTag?_element hname hattributes (by simp) rfl, elementToken, if_neg hvoid]
  | closing name =>
    have hslash : Passes ['/'] := passes_singleton (by decide) (by decide)
    exact ⟨'/' :: name.toList, rfl, hslash.append (IsTagName.passes hclean),
      readTag?_closing hclean⟩
  | void name attributes =>
    obtain ⟨hname, hvoid, hattributes⟩ := hclean
    have hpasses (c : Char) (hend : c ≠ '>') (hquote : c ≠ '"') :
        Passes (name.toList ++ (attributes.flatMap writeAttribute ++ [c])) :=
      hname.passes.append ((passes_attributes hattributes).append (passes_singleton hend hquote))
    have hread (c : Char) (hhead : isNameLetter c = false)
        (htail : readAttributes? .between [c] = some []) :
        readTag? (name.toList ++ (attributes.flatMap writeAttribute ++ [c])) =
          some (.void name attributes) := by
      rw [readTag?_element hname hattributes (by simpa using hhead) htail, elementToken,
        if_pos hvoid]
    cases hempty : attributes.isEmpty with
    | true => exact ⟨_, by simp [write, hempty], hpasses '/' (by decide) (by decide),
        hread '/' rfl rfl⟩
    | false => exact ⟨_, by simp [write, hempty], hpasses ' ' (by decide) (by decide),
        hread ' ' rfl rfl⟩
  | data text => exact absurd trivial htag

/-- Merging works from the last token to the first. -/
@[simp] theorem mergeData_cons (token : Token) (tokens : List Token) :
    mergeData (token :: tokens) = token.prepend (mergeData tokens) := rfl

/-- A tag merges with nothing. -/
theorem prepend_of_not_isData {token : Token} (htag : ¬ token.IsData) (tokens : List Token) :
    token.prepend tokens = token :: tokens := by
  cases token with
  | data text => exact absurd trivial htag
  | opening name attributes => rfl
  | closing name => rfl
  | void name attributes => rfl

/-- Nothing merges with a tag behind it. -/
theorem prepend_cons_of_not_isData (first : Token) {token : Token} (htag : ¬ token.IsData)
    (tokens : List Token) : first.prepend (token :: tokens) = first :: token :: tokens := by
  cases token with
  | data text => exact absurd trivial htag
  | opening name attributes => cases first <;> rfl
  | closing name => cases first <;> rfl
  | void name attributes => cases first <;> rfl

/-- Two pieces of data in front of others are one piece in front of them. -/
theorem prepend_data_prepend (a b : String) (tokens : List Token) :
    Token.prepend (.data a) (Token.prepend (.data b) tokens) =
      Token.prepend (.data (a ++ b)) tokens := by
  match tokens with
  | [] => rfl
  | .data c :: rest => simp [Token.prepend, String.append_assoc]
  | .opening .. :: rest => rfl
  | .closing .. :: rest => rfl
  | .void .. :: rest => rfl

/-- Escaped data is scanned as the data itself, if there is any. -/
theorem dataTokens_escaped (text : List Char) :
    dataTokens (text.flatMap escapeCharacter) =
      if text.isEmpty then [] else [.data (String.ofList text)] := by
  cases text with
  | nil => rfl
  | cons c text =>
    have hnonempty : ((c :: text).flatMap escapeCharacter).isEmpty = false := by
      simp [escapeCharacter_ne_nil]
    rw [dataTokens, hnonempty, unescape_escape]
    rfl

/-- Data that waits in front of tokens is merged with them. -/
theorem mergeData_dataTokens_escaped (text : List Char) (tokens : List Token) :
    mergeData (dataTokens (text.flatMap escapeCharacter) ++ tokens) =
      if text.isEmpty then mergeData tokens
      else Token.prepend (.data (String.ofList text)) (mergeData tokens) := by
  rw [dataTokens_escaped]
  cases text <;> rfl

/-- Data in front of data is one piece of data. -/
theorem mergeData_dataTokens_data (pending : List Char) {text : String} (h : text.toList ≠ [])
    (tokens : List Token) :
    mergeData (dataTokens (pending.flatMap escapeCharacter) ++ .data text :: tokens) =
      mergeData (dataTokens ((pending ++ text.toList).flatMap escapeCharacter) ++ tokens) := by
  have hnonempty : (pending ++ text.toList).isEmpty = false := by simp [h]
  rw [mergeData_dataTokens_escaped, mergeData_dataTokens_escaped, hnonempty, mergeData_cons,
    String.ofList_append, String.ofList_toList]
  cases pending with
  | nil => simp
  | cons c pending => exact prepend_data_prepend _ _ _

/-- Data in front of a tag stays a token of its own. -/
theorem mergeData_dataTokens_tag (pending : List Char) {token : Token} (htag : ¬ token.IsData)
    (tokens : List Token) :
    mergeData (dataTokens (pending.flatMap escapeCharacter) ++ token :: tokens) =
      dataTokens (pending.flatMap escapeCharacter) ++ token :: mergeData tokens := by
  rw [mergeData_dataTokens_escaped, mergeData_cons, prepend_of_not_isData htag,
    prepend_cons_of_not_isData _ htag, dataTokens_escaped]
  cases pending <;> rfl

/-- Clean tokens that were written behind some data are found again. -/
theorem scanFrom_write_behind {tokens : List Token} (h : ∀ token ∈ tokens, token.IsClean)
    (pending : List Char) :
    scanFrom (.data (pending.flatMap escapeCharacter).reverse) (tokens.flatMap write) =
      some (mergeData (dataTokens (pending.flatMap escapeCharacter) ++ tokens)) := by
  induction tokens generalizing pending with
  | nil =>
    rw [List.flatMap_nil, scanFrom, List.reverse_reverse, mergeData_dataTokens_escaped,
      dataTokens_escaped]
    cases pending <;> rfl
  | cons token tokens ih =>
    obtain ⟨hclean, hrest⟩ := List.forall_mem_cons.mp h
    rw [List.flatMap_cons]
    by_cases hdata : token.IsData
    · match token, hclean with
      | .data text, hclean =>
        have hless : '<' ∉ text.toList.flatMap escapeCharacter := by
          intro hmem
          obtain ⟨c, -, hmem⟩ := List.mem_flatMap.mp hmem
          exact not_mem_escapeCharacter c (by decide) hmem
        rw [write, escape, String.toList_ofList, scanFrom_data_append hless,
          ← List.reverse_append, ← List.flatMap_append, ih hrest,
          mergeData_dataTokens_data pending hclean]
    · have hnil := ih hrest []
      rw [List.flatMap_nil, List.reverse_nil] at hnil
      rw [scanFrom_write_tag hclean hdata, List.reverse_reverse, hnil,
        mergeData_dataTokens_tag pending hdata]
      rfl

/-- **What is written is found again.** Clean tokens are scanned as they are, but for neighbouring
data, which is one token then. -/
theorem scanFrom_write {tokens : List Token} (h : ∀ token ∈ tokens, token.IsClean) :
    scanFrom (.data []) (tokens.flatMap write) = some (mergeData tokens) :=
  scanFrom_write_behind h []

example : scan "<a href=\"x>y\">&lt;b</a>" =
    some [.opening "a" [("href", "x>y")], .data "<b", .closing "a"] := by
  cbv

end AtMarkup.Html
