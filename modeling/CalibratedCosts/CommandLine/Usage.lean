import CalibratedCosts.CommandLine.Grammar

/-! # Usage

    The commands of the program, with the options and operands of each and
    the lines of its help.
-/

namespace CalibratedCosts.CommandLine

/-! ## Section 1: the program -/

/-- The name of the program. -/
def programName : String := "cost-calibration"

/-- What stands before the command. -/
def programGrammar : Grammar where
  program := programName
  usage := ["usage: cost-calibration [-h] \x7bfit,calibrate,show,evaluate\x7d ..."]
  details :=
    ["Cost Calibration - host operation cost models",
     "",
     "positional arguments:",
     "  \x7bfit,calibrate,show,evaluate\x7d",
     "                        Commands",
     "    fit                 Fit one sample set",
     "    calibrate           Calibrate all operations",
     "    show                Show the cost model table",
     "    evaluate            Evaluate an operation's cost",
     "",
     "options:",
     "  -h, --help            show this help message and exit"]
  options := []
  operands := []

/-! ## Section 2: the commands -/

/-- A command that fits the samples of one operation. -/
def fitGrammar : Grammar where
  program := "cost-calibration fit"
  usage := ["usage: cost-calibration fit [-h] --x X --y Y"]
  details :=
    ["options:",
     "  -h, --help  show this help message and exit",
     "  --x X       Comma-separated input sizes",
     "  --y Y       Comma-separated measured costs"]
  options := [⟨"--x", .text, true⟩, ⟨"--y", .text, true⟩]
  operands := []

/-- A command that calibrates many operations and stores the result. -/
def calibrateGrammar : Grammar where
  program := "cost-calibration calibrate"
  usage :=
    ["usage: cost-calibration calibrate [-h] [--samples SAMPLES]",
     "                                  [--operation OPERATION] [--sizes SIZES]",
     "                                  [--iterations ITERATIONS]",
     "                                  [--workers WORKERS] [--output OUTPUT]",
     "                                  [--database DATABASE] [--no-db]"]
  details :=
    ["options:",
     "  -h, --help            show this help message and exit",
     "  --samples SAMPLES     Recorded samples (.json or .jsonl)",
     "  --operation OPERATION",
     "                        Limit to operation (repeatable)",
     "  --sizes SIZES         Comma-separated benchmark sizes",
     "  --iterations ITERATIONS",
     "                        Benchmark runs per size",
     "  --workers WORKERS     Fitting thread pool size",
     "  --output OUTPUT       Artifact path",
     "  --database DATABASE   Database URL",
     "  --no-db               Skip the database"]
  options :=
    [⟨"--samples", .text, false⟩, ⟨"--operation", .text, false⟩, ⟨"--sizes", .text, false⟩,
     ⟨"--iterations", .integer, false⟩, ⟨"--workers", .integer, false⟩,
     ⟨"--output", .text, false⟩, ⟨"--database", .text, false⟩, ⟨"--no-db", .nothing, false⟩]
  operands := []

/-- A command that shows a table. -/
def showGrammar : Grammar where
  program := "cost-calibration show"
  usage :=
    ["usage: cost-calibration show [-h] [--table TABLE] [--database DATABASE]",
     "                             [--json]"]
  details :=
    ["options:",
     "  -h, --help           show this help message and exit",
     "  --table TABLE        Artifact path",
     "  --database DATABASE  Load from database URL instead",
     "  --json               Print as JSON"]
  options :=
    [⟨"--table", .text, false⟩, ⟨"--database", .text, false⟩, ⟨"--json", .nothing, false⟩]
  operands := []

/-- A command that computes the charge of an operation. -/
def evaluateGrammar : Grammar where
  program := "cost-calibration evaluate"
  usage :=
    ["usage: cost-calibration evaluate [-h] [--table TABLE] [--database DATABASE]",
     "                                 operation size"]
  details :=
    ["positional arguments:",
     "  operation            Operation identifier",
     "  size                 Input size",
     "",
     "options:",
     "  -h, --help           show this help message and exit",
     "  --table TABLE        Artifact path",
     "  --database DATABASE  Load from database URL instead"]
  options := [⟨"--table", .text, false⟩, ⟨"--database", .text, false⟩]
  operands := [⟨"operation", .text⟩, ⟨"size", .integer⟩]

/-! ## Section 3: texts -/

/-- Lines as a text, each with its end. -/
def textOfLines (lines : List String) : String :=
  String.join (lines.map fun line => line ++ "\n")

/-- The help of a grammar. -/
def Grammar.help (g : Grammar) : String := textOfLines (g.usage ++ "" :: g.details)

/-- What is written when a command line is refused. -/
def Grammar.complaint (g : Grammar) (problem : Misuse) : String :=
  textOfLines (g.usage ++ [s!"{g.program}: error: {problem.message}"])

end CalibratedCosts.CommandLine
