import CalibratedCosts.Files.Path
import CalibratedCosts.OrderedMap
import CalibratedCosts.Text.Quoted
import CalibratedCosts.Text.Utf8

/-! # File system

    A tree of directories and files, given by the node at each location.

    * **Reading**: a path is followed name by name from the working directory
      or the root, and `..` leads to the directory above.
    * **Writing**: a file is written as a whole.  Its bytes first go to a
      temporary file in the same directory, which then takes the place of
      the target, so that a failure at any step leaves everything as it was.

    A node may also be a calibration store, whose content is not text.
-/

namespace CalibratedCosts

/-! ## Section 1: nodes -/

/-- The names from the root down to a node. -/
abbrev Location := List String

/-- What is at a location. -/
inductive Node (σ : Type) where
  | file (bytes : List UInt8)
  | directory
  | store (content : σ)

/-- The nodes of a file system and the directory that relative paths start
    from. -/
structure FileSystem (σ : Type) where
  nodes : OrderedMap Location (Node σ)
  working : Location

/-- A failure that the system reports: one that follows from the paths, or
    any other by its number and wording. -/
inductive SystemError where
  | noEntry
  | alreadyExists
  | busy
  | notADirectory
  | isADirectory
  | nameTooLong
  | other (number : Nat) (description : String)
  deriving DecidableEq

/-- The number of a failure. -/
def SystemError.number : SystemError → Nat
  | .noEntry => 2
  | .busy => 16
  | .alreadyExists => 17
  | .notADirectory => 20
  | .isADirectory => 21
  | .nameTooLong => 36
  | .other number _ => number

/-- The wording of a failure. -/
def SystemError.description : SystemError → String
  | .noEntry => "No such file or directory"
  | .busy => "Device or resource busy"
  | .alreadyExists => "File exists"
  | .notADirectory => "Not a directory"
  | .isADirectory => "Is a directory"
  | .nameTooLong => "File name too long"
  | .other _ description => description

/-- Number and wording of a failure. -/
def SystemError.message (e : SystemError) : String := s!"[Errno {e.number}] {e.description}"

namespace FileSystem

variable {σ : Type}

/-! ## Section 2: following paths -/

/-- The node at a location.  The working directory and all directories above
    it exist. -/
def node? (fs : FileSystem σ) (location : Location) : Option (Node σ) :=
  if location.isPrefixOf fs.working then some .directory else fs.nodes.get? location

/-- The longest name that a directory can hold, in bytes. -/
def nameLimit : Nat := 255

/-- The longest path that is followed, in bytes. -/
def pathLimit : Nat := 4095

/-- The absolute path of a location. -/
def pathOf (location : Location) : String := "/" ++ "/".intercalate location

/-- A path that is not longer than the limit. -/
def checkLength (path : String) : Except SystemError Unit :=
  if pathLimit < path.utf8ByteSize then .error .nameTooLong else .ok ()

/-- Follows names from a location.  Only the last name may be missing. -/
def follow (fs : FileSystem σ) (here : Location) :
    List String → Except SystemError (Location × Option (Node σ))
  | [] => .ok (here, fs.node? here)
  | name :: rest =>
    match fs.node? here with
    | some .directory =>
      if name = ".." then fs.follow here.dropLast rest
      else if nameLimit < (Text.Utf8.encode name).length then .error .nameTooLong
      else
        let next := here ++ [name]
        match fs.node? next with
        | some _ => fs.follow next rest
        | none => if rest.isEmpty then .ok (next, none) else .error .noEntry
    | _ => .error .notADirectory

/-- Where a path starts. -/
def start (fs : FileSystem σ) (p : FilePath) : Location :=
  if p.root = "" then fs.working else []

/-- The location that a path leads to, and what is there. -/
def locate (fs : FileSystem σ) (p : FilePath) :
    Except SystemError (Location × Option (Node σ)) := do
  -- The length is looked at before the path is followed.
  checkLength p.text
  fs.follow (fs.start p) p.parts

/-- The location of a path when `..` takes back the name before it. -/
def lexical (fs : FileSystem σ) (p : FilePath) : Location :=
  p.parts.foldl (fun here name => if name = ".." then here.dropLast else here ++ [name])
    (fs.start p)

/-! ## Section 3: reading -/

/-- Why a file has no text. -/
inductive ReadFault where
  | nulInPath
  | system (error : SystemError) (path : String)
  | undecodable (fault : Text.Utf8.Fault)

def ReadFault.message : ReadFault → String
  | .nulInPath => "embedded null byte"
  | .system error path => s!"{error.message}: {Text.quoted path}"
  | .undecodable fault => fault.message

/-- The bytes of a store's file up to the first one that is not part of a
    text. -/
def storeHeader : List UInt8 :=
  Text.Utf8.encode "SQLite format 3" ++ List.replicate 91 0 ++ [0xb0]

/-- The bytes of a file. -/
def read (fs : FileSystem σ) (p : FilePath) : Except SystemError (List UInt8) :=
  match fs.locate p with
  | .error e => .error e
  | .ok (_, none) => .error .noEntry
  | .ok (_, some .directory) => .error .isADirectory
  | .ok (_, some (.file bytes)) => .ok bytes
  | .ok (_, some (.store _)) => .ok storeHeader

/-- The text of a file, with `'\n'` for every line end. -/
def readText (fs : FileSystem σ) (p : FilePath) : Except ReadFault (List Char) :=
  if p.hasNul then .error .nulInPath
  else
    match fs.read p with
    | .error e => .error (.system e p.text)
    | .ok bytes =>
      match Text.Utf8.decode bytes with
      | .error fault => .error (.undecodable fault)
      | .ok cs => .ok (Text.unifyLineEnds cs)

/-! ## Section 4: writing -/

/-- The file system with a node at a location. -/
def put (fs : FileSystem σ) (location : Location) (node : Node σ) : FileSystem σ :=
  { fs with nodes := fs.nodes.insert location node }

/-- The file system without the node at a location. -/
def remove (fs : FileSystem σ) (location : Location) : FileSystem σ :=
  { fs with nodes := fs.nodes.erase location }

/-- What tells the temporary files of one target apart. -/
def tokens : List String :=
  (List.range 1000).map fun i => String.ofList (Text.hexDigits 8 i)

/-- What comes from outside while a file is written: the tokens that are tried
    for the temporary file, and a failure at each step.  A write that fails
    comes with the number of bytes that have got through. -/
structure Interference where
  tried : List String
  onCreate : Option SystemError
  onWrite : Option (SystemError × Nat)
  onRename : Option SystemError

/-- No failure from outside. -/
def Interference.absent : Interference := ⟨tokens, none, none, none⟩

/-- The name of a temporary file. -/
def temporaryName (name token : String) : String := "." ++ name ++ "." ++ token ++ ".tmp"

/-- A location for a temporary file beside a target, at which there is
    nothing yet. -/
def temporaryLocation (fs : FileSystem σ) (p : FilePath) :
    List String → Except SystemError Location
  | [] => .error .alreadyExists
  | token :: rest => do
    let names := fs.lexical p.parent ++ [temporaryName p.name token]
    checkLength (pathOf names)
    match ← fs.follow [] names with
    | (location, none) => .ok location
    | (_, some _) => fs.temporaryLocation p rest

/-- The location that a new file can take under a path. -/
def targetLocation (fs : FileSystem σ) (p : FilePath) : Except SystemError Location :=
  match p.parts.getLast? with
  | none => .error .busy
  | some ".." =>
    match fs.locate p with
    | .error e => .error e
    | .ok _ => .error .busy
  | some _ =>
    match fs.locate p with
    | .error e => .error e
    | .ok (_, some .directory) => .error .isADirectory
    | .ok (location, _) => .ok location

/-- A step that fails if something interferes. -/
def stepUnder {α : Type} (interference : Option SystemError) (step : Except SystemError α) :
    Except SystemError α :=
  match interference with
  | some e => .error e
  | none => step

/-- Writes a file as a whole. -/
def writeWhole (fs : FileSystem σ) (p : FilePath) (bytes : List UInt8)
    (trouble : Interference) : Except SystemError Unit × FileSystem σ :=
  match stepUnder trouble.onCreate (fs.temporaryLocation p trouble.tried) with
  | .error e => (.error e, fs)
  | .ok temporary =>
    let created := fs.put temporary (.file [])
    -- From here on a failure takes the temporary file back.
    match trouble.onWrite with
    | some (e, count) =>
      (.error e, (created.put temporary (.file (bytes.take count))).remove temporary)
    | none =>
      let written := created.put temporary (.file bytes)
      -- The target is looked for only when the content is complete.
      match stepUnder trouble.onRename (written.targetLocation p) with
      | .error e => (.error e, written.remove temporary)
      | .ok target => (.ok (), (written.remove temporary).put target (.file bytes))

/-! ## Section 5: whole trees -/

/-- An empty file system with a working directory. -/
def emptyAt (working : Location) : FileSystem σ := ⟨.empty, working⟩

/-- Puts a node at a path below the working directory, and directories at
    every location above it. -/
def plant (fs : FileSystem σ) (p : FilePath) (node : Node σ) : FileSystem σ :=
  let above := (List.range p.parts.length).tail.map fun count => fs.working ++ p.parts.take count
  let fs := above.foldl (fun fs location =>
    if (fs.node? location).isSome then fs else fs.put location .directory) fs
  fs.put (fs.working ++ p.parts) node

/-- The paths of all nodes below the working directory, in order. -/
def listing (fs : FileSystem σ) : List String :=
  let below := fs.nodes.keys.filterMap fun location =>
    if fs.working.isPrefixOf location then
      some ("/".intercalate (location.drop fs.working.length))
    else none
  below.mergeSort fun a b => decide (a ≤ b)

end FileSystem
end CalibratedCosts
