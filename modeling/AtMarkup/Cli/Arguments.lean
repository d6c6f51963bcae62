import AtMarkup.Text.DecimalDigit
import AtMarkup.Text.Quoted

/-!
# Command-line arguments

The command line names one input, and options before or behind it.  Options have a long name, some
a short one as well; a long name may be cut short as long as only one option begins so.  Short
options may be run together, and a value may be attached to its option or follow it.  Behind `--`
nothing is an option.  What is attached to short options has been read in two ways (`Edition`).

Each argument is first classified on its own.  Then the words are taken in order, and at the end
it is seen whether anything is missing or left over.
-/

namespace AtMarkup.Cli

/-- The rules for what is attached to an option, which have changed. -/
inductive Edition where
  /-- The rules of releases before 3.11.9.  Behind a short option without a value any character is
  another one, and an output file of two hyphens is none. -/
  | early
  /-- The rules of the releases 3.11.10 and 3.12.3.  Behind a short option without a value an equals
  sign or a hyphen is an error, a character that is no option is left over with all that follows,
  and an equals sign in front of a value does not belong to it. -/
  | late
  deriving DecidableEq, Repr, Inhabited

/-! ## Options -/

/-- The options of the command. -/
inductive Flag where
  | help
  | output
  | tree
  | check
  | escapeText
  | verbose
  deriving DecidableEq, Repr, Inhabited

namespace Flag

/-- All names of options, in the order of the help text. -/
def names : List (String × Flag) := [
  ("-h", help), ("--help", help), ("-o", output), ("--output", output), ("--tree", tree),
  ("--check", check), ("--escape-text", escapeText), ("-v", verbose), ("--verbose", verbose)]

/-- The option of that exact name. -/
def named? (name : String) : Option Flag :=
  (names.find? fun entry => entry.1 == name).map Prod.snd

/-- Whether the option has a value. -/
def takesValue : Flag → Bool
  | output => true
  | _ => false

/-- How messages name the option. -/
def shown (flag : Flag) : String :=
  "/".intercalate ((names.filter fun entry => entry.2 == flag).map Prod.fst)

end Flag

/-- What can be wrong with a command line. -/
inductive ArgumentError where
  /-- An option comes without the value it needs. -/
  | valueMissing (flag : Flag)
  /-- An option comes with a value that it has no use for. -/
  | valueIgnored (flag : Flag) (value : String)
  /-- Two options exclude each other. -/
  | conflict (flag other : Flag)
  /-- A shortened name could mean several options. -/
  | ambiguous (argument : String) (candidates : List String)
  /-- The input is missing. -/
  | inputMissing
  /-- Arguments are left over. -/
  | unrecognized (arguments : List String)
  deriving DecidableEq, Repr, Inhabited

/-- The error in words. -/
def ArgumentError.message : ArgumentError → String
  | valueMissing flag => "argument " ++ flag.shown ++ ": expected one argument"
  | valueIgnored flag value =>
    "argument " ++ flag.shown ++ ": ignored explicit argument " ++ Text.quotedString value
  | conflict flag other =>
    "argument " ++ flag.shown ++ ": not allowed with argument " ++ other.shown
  | ambiguous argument candidates =>
    "ambiguous option: " ++ argument ++ " could match " ++ ", ".intercalate candidates
  | inputMissing => "the following arguments are required: input"
  | unrecognized arguments => "unrecognized arguments: " ++ " ".intercalate arguments

/-! ## Words -/

/-- What an argument is, taken on its own. -/
inductive Word where
  /-- The two hyphens behind which nothing is an option. -/
  | marker
  /-- No option. -/
  | plain (text : String)
  /-- An option, and the text that is attached to it.  `short` tells that its name has one
  hyphen, `joined` that an equals sign is in front of the text. -/
  | option (flag : Flag) (short joined : Bool) (attached : Option (List Char))
  /-- Something that looks like an option and is none. -/
  | unknown (text : String)
  deriving DecidableEq, Repr, Inhabited

/-- Takes a text apart at its first equals sign. -/
def cutEquals (text : List Char) : List Char × Option (List Char) :=
  match text.dropWhile (· != '=') with
  | _ :: behind => (text.takeWhile (· != '='), some behind)
  | [] => (text, none)

/-- Whether a text is a negative number, which is no option; a line feed may end it. -/
def isNegativeNumber (text : List Char) : Bool :=
  match text with
  | '-' :: body =>
    let body := if body.getLast? == some '\n' then body.dropLast else body
    let whole := body.takeWhile Text.isDecimalDigit
    match body.dropWhile Text.isDecimalDigit with
    | [] => !whole.isEmpty
    | '.' :: fraction => !fraction.isEmpty && fraction.all Text.isDecimalDigit
    | _ => false
  | _ => false

/-- The options that a shortened long name, or a short name with a value attached, could mean. -/
def candidates (text : List Char) : List (String × Word) :=
  match text with
  | '-' :: '-' :: _ =>
    let (front, behind) := cutEquals text
    (Flag.names.filter fun entry => front.isPrefixOf entry.1.toList).map fun entry =>
      (entry.1, .option entry.2 false true behind)
  | '-' :: c :: behind =>
    (Flag.names.filter fun entry => entry.1.toList == ['-', c]).map fun entry =>
      (entry.1, .option entry.2 true false (some behind))
  | _ => []

/-- The option that an argument names exactly, by itself or in front of an equals sign. -/
def exactOption? (argument : String) : Option Word :=
  let short := argument.toList.drop 1 |>.head? |>.all (· != '-')
  match Flag.named? argument with
  | some flag => some (.option flag short false none)
  | none =>
    match cutEquals argument.toList with
    | (front, some behind) =>
      (Flag.named? (String.ofList front)).map fun flag =>
        .option flag short true (some behind)
    | (_, none) => none

/-- Classifies an argument that is not the marker. -/
def classify (argument : String) : Except ArgumentError Word :=
  match argument.toList with
  | [] | ['-'] => .ok (.plain argument)
  | '-' :: _ =>
    match exactOption? argument with
    | some word => .ok word
    | none =>
      match candidates argument.toList with
      | [(_, word)] => .ok word
      | [] =>
        if isNegativeNumber argument.toList || argument.toList.contains ' ' then
          .ok (.plain argument)
        else .ok (.unknown argument)
      | several => .error (.ambiguous argument (several.map Prod.fst))
  | _ => .ok (.plain argument)

/-- Classifies all arguments; behind the marker all are plain. -/
def classifyAll : List String → Except ArgumentError (List Word)
  | [] => .ok []
  | "--" :: rest => .ok (.marker :: rest.map .plain)
  | argument :: rest => do
    let word ← classify argument
    let words ← classifyAll rest
    pure (word :: words)

/-! ## Runs of short options -/

/-- What the options in one word amount to. -/
inductive Cluster.Ending where
  /-- They are complete. -/
  | complete
  /-- The last one is the output option, and this is its value. -/
  | value (text : String)
  /-- The last one is the output option, and its value is to follow. -/
  | awaiting
  /-- What follows the last one is no option. -/
  | leftOver (text : String)
  deriving DecidableEq, Repr, Inhabited

/-- The options in one word, and how it ends. -/
structure Cluster where
  /-- The options without a value, in order. -/
  flags : List Flag
  /-- How the word ends. -/
  ending : Cluster.Ending
  deriving DecidableEq, Repr, Inhabited

/-- A single option with nothing attached. -/
def Cluster.single (flag : Flag) : Cluster :=
  if flag.takesValue then ⟨[], .awaiting⟩ else ⟨[flag], .complete⟩

/-- Puts an option in front. -/
def Cluster.behind (flag : Flag) (cluster : Cluster) : Cluster :=
  { cluster with flags := flag :: cluster.flags }

/-- Unpacks a short option with a text attached: its value, or more short options. -/
def unpackShort (edition : Edition) (flag : Flag) (joined : Bool) :
    List Char → Except ArgumentError Cluster
  | [] => if flag.takesValue then .ok ⟨[], .value ""⟩ else .error (.valueIgnored flag "")
  | c :: rest =>
    if flag.takesValue then .ok ⟨[], .value (String.ofList (c :: rest))⟩
    else if edition == .late && (joined || c == '-') then
      .error (.valueIgnored flag (String.ofList (c :: rest)))
    else
      match Flag.named? (String.ofList ['-', c]), edition, rest with
      | none, .early, rest => .error (.valueIgnored flag (String.ofList (c :: rest)))
      | none, .late, rest => .ok ⟨[flag], .leftOver (String.ofList ('-' :: c :: rest))⟩
      | some next, _, [] => .ok ((Cluster.single next).behind flag)
      | some next, .late, '=' :: value => (unpackShort .late next true value).map (·.behind flag)
      | some next, edition, rest => (unpackShort edition next false rest).map (·.behind flag)

/-- Unpacks an option. -/
def unpack (edition : Edition) (flag : Flag) (short joined : Bool) :
    Option (List Char) → Except ArgumentError Cluster
  | none => .ok (.single flag)
  | some attached =>
    if short then unpackShort edition flag joined attached
    else if flag.takesValue then .ok ⟨[], .value (String.ofList attached)⟩
    else .error (.valueIgnored flag (String.ofList attached))

/-! ## The command line -/

/-- What a command line asks for. -/
structure Arguments where
  /-- Where the document comes from. -/
  input : String
  /-- The file that the output goes to. -/
  output : Option String := none
  /-- Whether the tree is shown instead of HTML. -/
  tree : Bool := false
  /-- Whether the document is only checked. -/
  check : Bool := false
  /-- Whether text is escaped. -/
  escapeText : Bool := false
  /-- Whether all events are shown. -/
  verbose : Bool := false
  deriving DecidableEq, Repr, Inhabited

/-- Why a command line leads to no work. -/
inductive Stop where
  /-- It asks for help. -/
  | help
  /-- It is wrong. -/
  | error (error : ArgumentError)
  deriving DecidableEq, Repr, Inhabited

/-- The words taken so far. -/
structure Taken where
  /-- What they ask for; the input only counts if `hasInput` holds. -/
  arguments : Arguments := { input := "" }
  /-- Whether the input has been given. -/
  hasInput : Bool := false
  /-- Whether the last word was the input. -/
  atInput : Bool := false
  /-- The options of the last word when it ended in an output option without its value. -/
  awaiting : Option (List Flag) := none
  /-- Words that nothing has use for, latest first. -/
  extras : List String := []
  deriving DecidableEq, Repr, Inhabited

namespace Taken

/-- Takes an option without a value. -/
def takeFlag (taken : Taken) (flag : Flag) : Except Stop Taken :=
  let arguments := taken.arguments
  match flag with
  | .help => .error .help
  | .tree =>
    if arguments.check then .error (.error (.conflict .tree .check))
    else .ok { taken with arguments := { arguments with tree := true } }
  | .check =>
    if arguments.tree then .error (.error (.conflict .check .tree))
    else .ok { taken with arguments := { arguments with check := true } }
  | .escapeText => .ok { taken with arguments := { arguments with escapeText := true } }
  | .verbose => .ok { taken with arguments := { arguments with verbose := true } }
  | .output => .ok taken

/-- The file that a value of the output option names. -/
def outputFile (edition : Edition) (value : String) : Option String :=
  if edition == .early && value == "--" then none else some value

/-- Takes options without values and then the value of the output option. -/
def takeOutput (edition : Edition) (taken : Taken) (flags : List Flag) (value : String) :
    Except Stop Taken := do
  let taken ← flags.foldlM takeFlag taken
  pure { taken with arguments := { taken.arguments with output := outputFile edition value } }

/-- Takes the options of one word. -/
def takeCluster (edition : Edition) (taken : Taken) (cluster : Cluster) : Except Stop Taken :=
  match cluster.ending with
  | .complete => cluster.flags.foldlM takeFlag taken
  | .value text => takeOutput edition taken cluster.flags text
  | .awaiting => .ok { taken with awaiting := some cluster.flags }
  | .leftOver text => do
    let taken ← cluster.flags.foldlM takeFlag taken
    pure { taken with extras := text :: taken.extras }

/-- Takes a word that is no option: the value that is waited for, the input, or neither. -/
def takePlain (edition : Edition) (taken : Taken) (text : String) : Except Stop Taken :=
  match taken.awaiting with
  | some flags => takeOutput edition { taken with awaiting := none } flags text
  | none =>
    if taken.hasInput then .ok { taken with atInput := false, extras := text :: taken.extras }
    else
      .ok { taken with arguments := { taken.arguments with input := text },
                       hasInput := true, atInput := true }

/-- Takes a word.  The marker goes with the input next to it; elsewhere it is left over. -/
def take (edition : Edition) (taken : Taken) (word : Word) : Except Stop Taken :=
  match word, taken.awaiting with
  | .plain text, _ => takePlain edition taken text
  | _, some _ => .error (.error (.valueMissing .output))
  | .marker, none =>
    if taken.atInput || !taken.hasInput then .ok { taken with atInput := false }
    else .ok { taken with extras := "--" :: taken.extras }
  | .unknown text, none => .ok { taken with atInput := false, extras := text :: taken.extras }
  | .option flag short joined attached, none =>
    match unpack edition flag short joined attached with
    | .ok cluster => takeCluster edition { taken with atInput := false } cluster
    | .error error => .error (.error error)

/-- What the words ask for, once all are taken. -/
def finish (taken : Taken) : Except Stop Arguments :=
  if taken.awaiting.isSome then .error (.error (.valueMissing .output))
  else if !taken.hasInput then .error (.error .inputMissing)
  else if taken.extras.isEmpty then .ok taken.arguments
  else .error (.error (.unrecognized taken.extras.reverse))

end Taken

/-- Reads a command line. -/
def Arguments.ofList (edition : Edition) (arguments : List String) : Except Stop Arguments :=
  match classifyAll arguments with
  | .error error => .error (.error error)
  | .ok words => do
    let taken ← words.foldlM (Taken.take edition) {}
    taken.finish

/-! ## Texts -/

/-- The line that tells how the command is used. -/
def usage : String :=
  "usage: tagmark [-h] [-o OUTPUT] [--tree | --check] [--escape-text] [-v] input\n"

/-- The help text. -/
def helpText : String :=
  usage ++
  "\nCompile tagmark markup into an HTML fragment.\n" ++
  "\npositional arguments:\n" ++
  "  input                 Document path, http(s) URL, or - for stdin\n" ++
  "\noptions:\n" ++
  "  -h, --help            show this help message and exit\n" ++
  "  -o OUTPUT, --output OUTPUT\n" ++
  "                        Write HTML to this file instead of stdout\n" ++
  "  --tree                Print the parsed tag tree instead of HTML\n" ++
  "  --check               Only parse and validate the document\n" ++
  "  --escape-text         HTML-escape literal text\n" ++
  "  -v, --verbose         Enable debug logging\n"

/-- What is said about a wrong command line. -/
def ArgumentError.report (error : ArgumentError) : String :=
  usage ++ "tagmark: error: " ++ error.message ++ "\n"

end AtMarkup.Cli
