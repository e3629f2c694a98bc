import CalibratedCosts.CommandLine.Usage

/-! # Requests

    What a command line asks for.  The first word that is no option is the
    command; the words behind it are read by the grammar of the command.
    Words that have no place are refused last.
-/

namespace CalibratedCosts.CommandLine

/-! ## Section 1: commands -/

/-- Where a table comes from: a store if one is named, or else an
    artifact. -/
structure TableOrigin where
  table : Option String
  database : Option String
  deriving DecidableEq

/-- What a calibration is asked to do. -/
structure CalibrationOrder where
  samples : Option String
  operations : List String
  sizes : Option String
  iterations : Option Int
  workers : Option Int
  output : Option String
  database : Option String
  withoutStore : Bool
  deriving DecidableEq

/-- A command with its options and operands.  The size of an input is missing
    if its operand was left blank. -/
inductive Request where
  | fit (sizes costs : String)
  | calibrate (order : CalibrationOrder)
  | display (origin : TableOrigin) (asJson : Bool)
  | evaluate (operation : String) (size : Option Int) (origin : TableOrigin)
  deriving DecidableEq

/-- The commands. -/
inductive CommandName where
  | fit
  | calibrate
  | display
  | evaluate
  deriving DecidableEq

namespace CommandName

def all : List CommandName := [.fit, .calibrate, .display, .evaluate]

/-- The word for a command. -/
def word : CommandName → String
  | .fit => "fit"
  | .calibrate => "calibrate"
  | .display => "show"
  | .evaluate => "evaluate"

/-- The command that a word names. -/
def ofWord? (s : String) : Option CommandName := all.find? fun name => name.word = s

/-- The grammar of a command. -/
def grammar : CommandName → Grammar
  | .fit => fitGrammar
  | .calibrate => calibrateGrammar
  | .display => showGrammar
  | .evaluate => evaluateGrammar

end CommandName

/-! ## Section 2: reading requests -/

namespace Request

/-- The origin of a table. -/
def originOf (r : Reading) : TableOrigin := ⟨r.text? "--table", r.text? "--database"⟩

/-- The request that has been read. -/
def ofReading (r : Reading) : CommandName → Request
  | .fit => .fit ((r.text? "--x").getD "") ((r.text? "--y").getD "")
  | .calibrate =>
    .calibrate
      { samples := r.text? "--samples"
        operations := r.texts "--operation"
        sizes := r.text? "--sizes"
        iterations := r.integer? "--iterations"
        workers := r.integer? "--workers"
        output := r.text? "--output"
        database := r.text? "--database"
        withoutStore := r.has "--no-db" }
  | .display => .display (originOf r) (r.has "--json")
  | .evaluate => .evaluate ((r.text? "operation").getD "") (r.integer? "size") (originOf r)

/-- The refusal of a word that names no command. -/
def noCommand (word : String) : Stop :=
  .misuse programGrammar (.unknownCommand word (CommandName.all.map CommandName.word))

/-- The words before the command that have no place, the command, and the
    words behind it. -/
def splitCommand : List String → Except Stop (List String × Option (CommandName × List String))
  | [] => .ok ([], none)
  | s :: rest =>
    if s = "--" then if rest.isEmpty then .ok ([s], none) else .error (noCommand s)
    else
      match programGrammar.readWord s with
      | .error problem => .error (.misuse programGrammar problem)
      | .ok (.plain s) =>
        match CommandName.ofWord? s with
        | some name => .ok ([], some (name, rest))
        | none => .error (noCommand s)
      | .ok (.known _ none) => .error (.help programGrammar)
      | .ok (.known target (some value)) =>
        .error (.misuse programGrammar (.unusedValue target.label value))
      | .ok (.unknown s) =>
        (splitCommand rest).map fun (leftovers, command) => (s :: leftovers, command)

/-- Refuses words that have no place. -/
def refuseLeftovers : List String → Except Stop Unit
  | [] => .ok ()
  | words => .error (.misuse programGrammar (.unrecognized words))

/-- The request of a command line.  Without a command it asks for help. -/
def ofArguments (args : List String) : Except Stop Request := do
  let (before, command) ← splitCommand args
  match command with
  | none =>
    refuseLeftovers before
    .error (.help programGrammar)
  | some (name, rest) =>
    let r ← name.grammar.parse rest
    refuseLeftovers (before ++ r.leftovers)
    .ok (ofReading r name)

end Request
end CalibratedCosts.CommandLine
