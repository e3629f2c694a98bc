import CalibratedCosts.CommandLine.Surroundings
import CalibratedCosts.Timestamp

/-! # Main

    The program as a process: reads what a request needs from the system,
    performs the request, and writes back what has changed.
-/

namespace CalibratedCosts.CommandLine

open scoped Datum.CallRoom Numerics

/-- The variables that are set. -/
def readEnvironment : IO Environment := do
  let mut env : Environment := []
  for name in variableNames do
    match ← IO.getEnv name with
    | some value => env := env ++ [(name, value)]
    | none => pure ()
  return env

/-- The time now, as the system stamps a new file. -/
def readTime : IO Timestamp := do
  let (_, path) ← IO.FS.createTempFile
  let metadata ← path.metadata
  IO.FS.removeFile path
  let modified := metadata.modified
  return ⟨modified.sec, modified.nsec.toNat / 1000⟩

/-- Adds the node at a location to a file system. -/
def readNode (files : FileSystem Store.History) (location : Location) :
    IO (FileSystem Store.History) := do
  let path := (← IO.currentDir) / FileSystem.pathOf location
  if ← path.isDir then
    return files.put location .directory
  else if ← path.pathExists then
    let bytes ← IO.FS.readBinFile path
    return files.put location (nodeOf bytes.toList)
  else
    return files

/-- The part of the file system that some paths lead through. -/
def readFiles (paths : List String) : IO (FileSystem Store.History) := do
  let here ← IO.currentDir
  let working := (FilePath.ofText here.toString).parts
  let mut files : FileSystem Store.History := .emptyAt working
  for path in paths do
    for location in locationsTo working path do
      files ← readNode files location
  return files

/-- Writes a file as a whole, through a temporary file beside it. -/
def writeFile (location : Location) (bytes : List UInt8) : IO Unit := do
  let here ← IO.currentDir
  let target := here / FileSystem.pathOf location
  let temporary := here / (FileSystem.pathOf location ++ ".tmp")
  IO.FS.writeBinFile temporary (ByteArray.mk bytes.toArray)
  IO.FS.rename temporary target

/-- Does the work of some runs, and reads the clock before and after each. -/
def timeRuns (runs : List (HostOperation × Nat)) : IO (List Int) := do
  let mut readings : Array Int := #[]
  for (operation, size) in runs do
    let start ← IO.monoNanosNow
    let _ ← IO.lazyPure fun _ => Samples.workload operation size
    let stop ← IO.monoNanosNow
    readings := (readings.push start).push stop
  return readings.toList

/-- Performs what the words of a command line ask for. -/
def runProcess (args : List String) : IO UInt32 := do
  let env ← readEnvironment
  let request := (Request.ofArguments args).toOption
  let files ← readFiles ((request.map (Request.paths env)).getD [])
  let readings ← timeRuns ((request.map (Request.plannedRuns env)).getD [])
  let now ← readTime
  let (ending, _, world) := run (recordedHost env now) args ⟨files, readings⟩
  for (location, bytes) in changes files world.files do
    writeFile location bytes
  match ending with
  | .finished status out err =>
    IO.print out
    IO.eprint err
    return status.toUInt32
  | .interrupted fault =>
    IO.eprintln fault.message
    return 1

end CalibratedCosts.CommandLine

def main (args : List String) : IO UInt32 := CalibratedCosts.CommandLine.runProcess args
