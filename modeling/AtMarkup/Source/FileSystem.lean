import AtMarkup.Source.Path
import AtMarkup.Source.Stream
import AtMarkup.Text.Quoted

/-!
# File systems

A file system is a tree of directories with files, devices and links in them, and one directory is
the working directory.  `FileSystem.resolve` goes along the names of a path, from the root or from
the working directory, and tells where they lead, or which error is met.  A double dot leads to the
directory above, and a link to where it points; of links at most 40 are followed.

What the system does not permit, and what breaks under way, is given by place (`Faults`).  A write
that fails under way has emptied the file before and leaves what fitted.
-/

namespace AtMarkup

/-! ## Errors -/

/-- An error of the operating system: its number and its wording. -/
structure SystemError where
  /-- The customary number. -/
  number : Nat
  /-- The error in words. -/
  wording : String
  deriving DecidableEq, Repr, Inhabited

namespace SystemError

/-- There is nothing of that name. -/
def notFound : SystemError := ⟨2, "No such file or directory"⟩

/-- A name leads on from something that is no directory. -/
def notDirectory : SystemError := ⟨20, "Not a directory"⟩

/-- A directory stands where a file is needed. -/
def isDirectory : SystemError := ⟨21, "Is a directory"⟩

/-- A name or the whole path is too long. -/
def nameTooLong : SystemError := ⟨36, "File name too long"⟩

/-- Links lead on too often. -/
def tooManyLinks : SystemError := ⟨40, "Too many levels of symbolic links"⟩

end SystemError

/-- What can go wrong with a file. -/
inductive FileError where
  /-- The path holds a NUL character. -/
  | embeddedNul
  /-- The operating system has an error; it tells of the path when the file is opened. -/
  | system (error : SystemError) (path : Option Path)
  deriving DecidableEq, Repr, Inhabited

/-- The error in words. -/
def FileError.message : FileError → String
  | embeddedNul => "embedded null byte"
  | system error path =>
    let shown := "[Errno " ++ toString error.number ++ "] " ++ error.wording
    match path with
    | some path => shown ++ ": " ++ Text.quotedString path.text
    | none => shown

/-! ## Inputs -/

/-- What comes of reading on and on. -/
structure Input where
  /-- The bytes that come. -/
  data : Bytes := []
  /-- The error that comes in place of their end, if one does. -/
  fault : Option SystemError := none
  deriving DecidableEq, Repr, Inhabited

/-- Whether a reading has met the end of what was read: a request for bytes was left without. -/
def BoundedReading.meetsEnd (reading : BoundedReading) : Bool :=
  reading.requests.any fun request => request.1 != 0 && request.2 == 0

/-- Reads an input of the given name up to a limit. -/
def Input.read (settings : Settings) (name : String) (limit : Option Int) (input : Input) :
    Logged (Except SystemError Bytes) := do
  let reading ← readNamed settings name limit none (.ofBytes input.data)
  match input.fault with
  | some error => if reading.meetsEnd then pure (.error error) else pure (.ok reading.data)
  | none => pure (.ok reading.data)

/-! ## File systems -/

/-- A place in a file system, by the names that lead there from the root. -/
abbrev Place := List String

/-- What stands at a place. -/
inductive FileSystem.Entry where
  /-- A file and what it holds. -/
  | file (data : Bytes)
  /-- A directory. -/
  | directory
  /-- A link to where a path leads from the directory that the link is in. -/
  | link (target : Path)
  /-- A device and what comes from it; it keeps nothing that is written to it. -/
  | device (data : Bytes)
  deriving DecidableEq, Repr, Inhabited

/-- What goes wrong at a place, by what is tried. -/
structure Faults where
  /-- Going on from it to another name. -/
  search : Option SystemError := none
  /-- Opening it to read. -/
  reading : Option SystemError := none
  /-- Opening it to write, or making it. -/
  writing : Option SystemError := none
  /-- Reading on behind so many bytes. -/
  breakOff : Option (Nat × SystemError) := none
  /-- Writing more than so many bytes. -/
  room : Option (Nat × SystemError) := none
  /-- Closing it after all has been written. -/
  closing : Option SystemError := none
  deriving DecidableEq, Repr, Inhabited

/-- A file system, as it is seen from a working directory. -/
structure FileSystem where
  /-- The working directory. -/
  here : Place
  /-- What stands at each place, if anything does. -/
  entryAt? : Place → Option FileSystem.Entry
  /-- What goes wrong at each place. -/
  faults : Place → Faults := fun _ => {}
  /-- The root is a directory. -/
  entryAt?_root : entryAt? [] = some .directory
  /-- The working directory is one. -/
  entryAt?_here : entryAt? here = some .directory

namespace FileSystem

/-- The file system with these entries, and with directories on the way to the working directory. -/
def ofEntries (here : Place) (entries : List (Place × Entry))
    (faults : Place → Faults := fun _ => {}) : FileSystem where
  here
  entryAt? place :=
    if place.isPrefixOf here then some .directory
    else (entries.find? fun entry => entry.1 == place).map Prod.snd
  faults
  entryAt?_root := by simp
  entryAt?_here := by simp

/-! ## Where paths lead -/

/-- The longest name, in bytes. -/
def nameLimit : Nat := 255

/-- The longest path, in bytes. -/
def pathLimit : Nat := 4095

/-- How many links are followed on the way along one path. -/
def linkLimit : Nat := 40

/-- What keeps names from leading on from a place, if anything does. -/
def obstacle? (files : FileSystem) (place : Place) : Option SystemError :=
  match files.entryAt? place with
  | some .directory => (files.faults place).search
  | some _ => some .notDirectory
  | none => some .notFound

/-- Where a path begins that is met in a directory. -/
def start (directory : Place) (path : Path) : Place :=
  if path.root.isEmpty then directory else []

/-- Goes along names from a place.  At a link `onLink` goes on, from where its target begins and
along the names of the target and the rest.  With `creating`, the last name need not be there. -/
def walk (files : FileSystem) (creating : Bool)
    (onLink : Place → List String → Except SystemError Place) (place : Place) :
    List String → Except SystemError Place
  | [] => .ok place
  | name :: rest =>
    match files.obstacle? place with
    | some error => .error error
    | none =>
      if name == ".." then walk files creating onLink place.dropLast rest
      else if nameLimit < name.utf8ByteSize then .error .nameTooLong
      else
        match files.entryAt? (place ++ [name]) with
        | none => if creating && rest.isEmpty then .ok (place ++ [name]) else .error .notFound
        | some (.link target) => onLink (start place target) (target.names ++ rest)
        | some _ => walk files creating onLink (place ++ [name]) rest

/-- Goes along names from a place and follows up to so many links. -/
def follow (files : FileSystem) (creating : Bool) :
    Nat → Place → List String → Except SystemError Place
  | 0 => files.walk creating fun _ _ => .error .tooManyLinks
  | links + 1 => files.walk creating (files.follow creating links)

/-- Where a path leads. -/
def resolve (files : FileSystem) (creating : Bool) (path : Path) : Except FileError Place :=
  if path.text.toList.contains '\x00' then .error .embeddedNul
  else
    let place :=
      if pathLimit < path.text.utf8ByteSize then .error .nameTooLong
      else files.follow creating linkLimit (start files.here path) path.names
    place.mapError fun error => .system error (some path)

/-! ## Reading and writing -/

/-- What comes of reading at a place. -/
def inputAt (files : FileSystem) (place : Place) : Except SystemError Input :=
  match files.entryAt? place, (files.faults place).reading with
  | none, _ => .error .notFound
  | some _, some error => .error error
  | some .directory, none => .error .isDirectory
  | some (.link _), none => .error .tooManyLinks
  | some (.file data), none | some (.device data), none =>
    match (files.faults place).breakOff with
    | some (count, error) =>
      if count ≤ data.length then .ok ⟨data.take count, some error⟩ else .ok { data }
    | none => .ok { data }

/-- What comes of reading at a path. -/
def read? (files : FileSystem) (path : Path) : Except FileError Input := do
  let place ← files.resolve false path
  (files.inputAt place).mapError fun error => .system error (some path)

/-- What keeps a place from being opened to write, if anything does. -/
def writeObstacle? (files : FileSystem) (place : Place) : Option SystemError :=
  match files.entryAt? place with
  | some .directory => some .isDirectory
  | some (.link _) => some .tooManyLinks
  | _ => (files.faults place).writing

/-- The place that a path leads to for writing, whether a file is there yet or not. -/
def target? (files : FileSystem) (path : Path) : Except FileError Place := do
  let place ← files.resolve true path
  match files.writeObstacle? place with
  | some error => .error (.system error (some path))
  | none => .ok place

/-- The file system with this data in a file at a place.  What is no file stays. -/
def put (files : FileSystem) (place : Place) (data : Bytes) : FileSystem :=
  { files with
    entryAt? := fun other =>
      match files.entryAt? other with
      | none | some (.file _) => if other == place then some (.file data) else files.entryAt? other
      | some entry => some entry
    entryAt?_root := by simp only [files.entryAt?_root]
    entryAt?_here := by simp only [files.entryAt?_here] }

/-- Writes data to a place that has been opened to write, and tells what goes wrong under way. -/
def write (files : FileSystem) (place : Place) (data : Bytes) : FileSystem × Option SystemError :=
  match (files.faults place).room with
  | some (count, error) =>
    if count < data.length then (files.put place (data.take count), some error)
    else (files.put place data, (files.faults place).closing)
  | none => (files.put place data, (files.faults place).closing)

end FileSystem

end AtMarkup
