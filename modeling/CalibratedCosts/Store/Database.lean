import CalibratedCosts.Event
import CalibratedCosts.Files.System
import CalibratedCosts.Settings
import CalibratedCosts.Store.Basic

/-! # Databases

    Where a calibration store is kept: in a file, or in memory only.

    * **URLs**: a store is named by a URL with the scheme of this library.
    * **Sessions**: a store is opened, which creates it if there is none, and
      written back after it has changed.
    * **Companions**: while it is open a store needs files beside its own.
      They are gone once it is closed, so that nothing but the room for them
      is asked for.
    * **Sharing**: one database can be shared by all who name none.
-/

namespace CalibratedCosts.Store

/-! ## Section 1: URLs -/

/-- The scheme of a database URL. -/
def scheme : String := "sqlite:///"

/-- The path of a store that is kept in memory. -/
def memoryPath : String := ":memory:"

/-- The path of a store whose URL names none. -/
def defaultPath : String := "cost_models.db"

/-- A database URL and the path it names. -/
structure DatabaseUrl where
  url : String
  path : String
  deriving DecidableEq

/-- A URL of another scheme. -/
structure UrlFault where
  url : String

def UrlFault.message (fault : UrlFault) : String := s!"Unsupported database URL: {fault.url}"

namespace DatabaseUrl

/-- The URL that a text denotes. -/
def ofText (s : String) : Except UrlFault DatabaseUrl :=
  if scheme.toList.isPrefixOf s.toList then
    let path := String.ofList (s.toList.drop scheme.length)
    .ok ⟨s, if path = "" then defaultPath else path⟩
  else .error ⟨s⟩

/-- The URL that is given, or that the environment gives if none is. -/
def resolve (given : Option String) (env : Environment) : Except UrlFault DatabaseUrl :=
  match given with
  | none | some "" => ofText ((env.get? "DATABASE_URL").getD defaultDatabaseUrl)
  | some s => ofText s

end DatabaseUrl

/-! ## Section 2: sessions -/

/-- Why a store is not opened. -/
inductive OpenError where
  | nulInPath
  | cannotOpen
  | notADatabase
  deriving DecidableEq

def OpenError.message : OpenError → String
  | .nulInPath => "embedded null byte"
  | .cannotOpen => "unable to open database file"
  | .notADatabase => "file is not a database"

/-- An opened store, and its place in the file system if it has one. -/
structure Session where
  store : History
  place : Option Location

namespace Session

/-- The ending of the file that a store needs beside its own. -/
def companionEnding : String := "-journal"

/-- The longest absolute path of a companion file, in bytes. -/
def companionLimit : Nat := 512

/-- A store can have its companion file beside a location. -/
def hasRoom (location : Location) : Bool :=
  (FileSystem.pathOf location ++ companionEnding).utf8ByteSize ≤ companionLimit
    && (location.getLastD "" ++ companionEnding).utf8ByteSize ≤ FileSystem.nameLimit

/-- The location can be looked at, though nothing need be there. -/
def isVisible (fs : FileSystem History) (location : Location) : Bool :=
  match fs.follow [] location with
  | .error .noEntry | .ok _ => true
  | .error _ => false

/-- Every location that some names lead through can be looked at, also those
    that `..` takes back. -/
def isPassable (fs : FileSystem History) (here : Location) : List String → Bool
  | [] => true
  | name :: rest =>
    if name = ".." then isPassable fs here.dropLast rest
    else
      let next := here ++ [name]
      (FileSystem.pathOf next).utf8ByteSize < companionLimit && isVisible fs next
        && isPassable fs next rest

/-- The store at a location.  A missing file is a store without runs, and so
    is a file of less than two bytes. -/
def storeAt (fs : FileSystem History) (location : Location) : Except OpenError History :=
  match fs.follow [] location with
  | .error _ => .error .cannotOpen
  | .ok (_, none) => .ok .empty
  | .ok (_, some .directory) => .error .cannotOpen
  | .ok (_, some (.file [])) | .ok (_, some (.file [_])) => .ok .empty
  | .ok (_, some (.file _)) => .error .notADatabase
  | .ok (_, some (.store s)) => .ok s

/-- Opens the store at a path. -/
def openAt (fs : FileSystem History) (path : String) : Except OpenError Session :=
  if path = memoryPath then .ok ⟨.empty, none⟩
  else
    let p := FilePath.ofText path
    if p.hasNul then .error .nulInPath
    else
      let location := fs.lexical p
      if isPassable fs (fs.start p) p.parts && hasRoom location then
        (storeAt fs location).map fun store => ⟨store, some location⟩
      else .error .cannotOpen

/-- Writes the store back to its place. -/
def commit (session : Session) (fs : FileSystem History) : FileSystem History :=
  match session.place with
  | some location => fs.put location (.store session.store)
  | none => fs

/-- Opens the store at a path and creates it if there is none. -/
def initialize? (fs : FileSystem History) (path : String) :
    Traced OpenError Session × FileSystem History :=
  match openAt fs path with
  | .error e => (Traced.fail e, fs)
  | .ok session => (⟨.ok session, [.storeInitialized]⟩, session.commit fs)

end Session

/-! ## Section 3: the shared database -/

/-- A database that is shared, and whether it has been opened. -/
structure SharedDatabase where
  serial : Nat
  location : DatabaseUrl
  opened : Bool

/-- The database that is shared now, if there is one, and how many there have
    been. -/
structure Sharing where
  current : Option SharedDatabase
  created : Nat

namespace Sharing

/-- Nothing is shared yet. -/
def start : Sharing := ⟨none, 0⟩

/-- The shared database.  If there is none, the one that is asked for becomes
    it. -/
def getInstance (sharing : Sharing) (given : Option String) (env : Environment) :
    Except UrlFault SharedDatabase × Sharing :=
  match sharing.current with
  | some database => (.ok database, sharing)
  | none =>
    match DatabaseUrl.resolve given env with
    | .error fault => (.error fault, sharing)
    | .ok location =>
      let database : SharedDatabase := ⟨sharing.created, location, false⟩
      (.ok database, ⟨some database, sharing.created + 1⟩)

/-- Why the shared database cannot be used. -/
inductive Fault where
  | url (fault : UrlFault)
  | opening (error : OpenError)

def Fault.message : Fault → String
  | .url fault => fault.message
  | .opening error => error.message

/-- The shared database, opened if it has not been yet.  A failure to open it
    leaves it shared. -/
def getDatabase (sharing : Sharing) (given : Option String) (env : Environment)
    (fs : FileSystem History) : Traced Fault SharedDatabase × Sharing × FileSystem History :=
  match sharing.getInstance given env with
  | (.error fault, sharing) => (Traced.fail (.url fault), sharing, fs)
  | (.ok database, sharing) =>
    if database.opened then (pure database, sharing, fs)
    else
      -- It has been shared before it is opened, and stays so.
      match Session.initialize? fs database.location.path with
      | (⟨.error e, events⟩, fs) => (⟨.error (.opening e), events⟩, sharing, fs)
      | (⟨.ok _, events⟩, fs) =>
        let database := { database with opened := true }
        (⟨.ok database, events⟩, { sharing with current := some database }, fs)

/-- Forgets the shared database. -/
def reset (sharing : Sharing) : Sharing := { sharing with current := none }

end Sharing
end CalibratedCosts.Store
