import CalibratedCosts.Datum.Conversion

/-! # Command line grammars

    How the words of a command line are read.

    * **Options** start with two dashes.  A prefix stands for the option it
      begins if it begins no other.  The value of an option is what follows an
      `=` in its word, or else the next word.
    * **Operands** are the other words, in order.  A negative numeral and a
      word with a space are no options, whatever they start with.
    * **Separator**: from the first `--` on every word is an operand.
    * **Leftovers**: words for which there is no place are kept; they are an
      error only after everything else has been read.
-/

namespace CalibratedCosts.CommandLine

/-! ## Section 1: grammars -/

/-- What an option or operand takes. -/
inductive Takes where
  | nothing
  | text
  | integer
  deriving DecidableEq

/-- An option, by its name with the dashes. -/
structure OptionSpec where
  name : String
  takes : Takes
  required : Bool
  deriving DecidableEq

/-- An operand. -/
structure OperandSpec where
  name : String
  takes : Takes
  deriving DecidableEq

/-- What a program or one of its commands understands, besides the request
    for help.  `usage` and `details` are the lines of its help. -/
structure Grammar where
  program : String
  usage : List String
  details : List String
  options : List OptionSpec
  operands : List OperandSpec
  deriving DecidableEq

/-! ## Section 2: misuse -/

/-- Why a command line is refused. -/
inductive Misuse where
  | ambiguous (word : String) (candidates : List String)
  | unusedValue (name value : String)
  | noValue (name : String)
  | notAnInteger (name value : String)
  | missing (names : List String)
  | unknownCommand (word : String) (commands : List String)
  | unrecognized (words : List String)
  deriving DecidableEq

def Misuse.message : Misuse → String
  | .ambiguous word candidates =>
    s!"ambiguous option: {word} could match " ++ ", ".intercalate candidates
  | .unusedValue name value => s!"argument {name}: ignored explicit argument {Text.quoted value}"
  | .noValue name => s!"argument {name}: expected one argument"
  | .notAnInteger name value => s!"argument {name}: invalid int value: {Text.quoted value}"
  | .missing names => "the following arguments are required: " ++ ", ".intercalate names
  | .unknownCommand word commands =>
    s!"argument command: invalid choice: {Text.quoted word} (choose from "
      ++ ", ".intercalate (commands.map fun command : String => Text.quoted command) ++ ")"
  | .unrecognized words => "unrecognized arguments: " ++ " ".intercalate words

/-- Why no command is run: help is asked for, or the command line is
    refused. -/
inductive Stop where
  | help (grammar : Grammar)
  | misuse (grammar : Grammar) (problem : Misuse)
  deriving DecidableEq

/-! ## Section 3: words -/

/-- What an option word may stand for. -/
inductive Target where
  | help
  | option (spec : OptionSpec)
  deriving DecidableEq

/-- The long name of a target. -/
def Target.name : Target → String
  | .help => "--help"
  | .option spec => spec.name

/-- A target in messages. -/
def Target.label : Target → String
  | .help => "-h/--help"
  | .option spec => spec.name

/-- A word of a command line before the separator.  An option that is not
    known has no target. -/
inductive Word where
  | plain (text : String)
  | known (target : Target) (value : Option String)
  | unknown (text : String)
  deriving DecidableEq

/-- The words up to the separator, and the texts behind it if there is
    one. -/
structure Words where
  front : List Word
  behind : Option (List String)

/-- A numeral that could follow a minus sign: digits, with a point before the
    last of them or without one.  A line end may follow. -/
def isNumeral (cs : List Char) : Bool :=
  let isDigit (c : Char) : Bool := (Text.digitValue? c).isSome
  let cs :=
    match cs.reverse with
    | '\n' :: reversed => reversed.reverse
    | _ => cs
  match cs.dropWhile isDigit with
  | [] => !cs.isEmpty
  | '.' :: fraction => !fraction.isEmpty && fraction.all isDigit
  | _ => false

/-- The part before the first `=`, and the part behind it. -/
def splitValue (s : String) : String × Option String :=
  match s.toList.dropWhile (· ≠ '=') with
  | [] => (s, none)
  | _ :: value => (String.ofList (s.toList.takeWhile (· ≠ '=')), some (String.ofList value))

/-- The value that is attached to a short request for help, given what stands
    behind it in its word.  The request may be repeated; whatever else stands
    there is a value. -/
def helpValue (letters : List Char) : Option String :=
  match letters with
  | ['='] => some ""
  | letters =>
    let repeated :=
      match letters with
      | '=' :: value => value
      | letters => letters
    match repeated.dropWhile (· = 'h') with
    | [] => none
    | value => some (String.ofList value)

namespace Grammar

/-- Everything that an option word can stand for. -/
def targets (g : Grammar) : List Target := .help :: g.options.map .option

/-- The word if it is no option that is known. -/
def otherWord (s : String) : Word := if s.toList.contains ' ' then .plain s else .unknown s

/-- A word that starts with two dashes. -/
def readLong (g : Grammar) (s : String) : Except Misuse Word :=
  let (stem, value) := splitValue s
  -- A full name goes before the prefixes of other names.
  match g.targets.find? fun target => target.name = stem with
  | some target => .ok (.known target value)
  | none =>
    match g.targets.filter fun target => stem.toList.isPrefixOf target.name.toList with
    | [] => .ok (otherWord s)
    | [target] => .ok (.known target value)
    | candidates => .error (.ambiguous s (candidates.map Target.name))

/-- A word that is no separator. -/
def readWord (g : Grammar) (s : String) : Except Misuse Word :=
  match s.toList with
  | ['-'] => .ok (.plain s)
  | '-' :: '-' :: _ => g.readLong s
  | '-' :: 'h' :: letters => .ok (.known .help (helpValue letters))
  | '-' :: letters => .ok (if isNumeral letters then .plain s else otherWord s)
  | _ => .ok (.plain s)

/-- The words of a command line. -/
def readWords (g : Grammar) : List String → Except Misuse Words
  | [] => .ok ⟨[], none⟩
  | s :: rest =>
    if s = "--" then .ok ⟨[], some rest⟩
    else do
      let word ← g.readWord s
      let words ← g.readWords rest
      .ok { words with front := word :: words.front }

end Grammar

/-! ## Section 4: readings -/

/-- What an option or operand was given.  An operand is blank if a second
    separator stands in its place. -/
inductive Given where
  | present
  | text (s : String)
  | integer (n : Int)
  | blank
  deriving DecidableEq

/-- What has been read: the options and operands with what they were given,
    the operands to come, the words without a place, and whether the last word
    was an operand. -/
structure Reading where
  given : List (String × Given)
  awaited : List OperandSpec
  leftovers : List String
  endsWithOperand : Bool

/-- What a text gives to an option or operand. -/
def convert (name : String) (takes : Takes) (s : String) : Except Misuse Given :=
  match takes with
  | .integer =>
    match integerOfText (Text.quoted s) s with
    | .ok n => .ok (.integer n)
    | .error _ => .error (.notAnInteger name s)
  | _ => .ok (.text s)

namespace Reading

/-- Nothing has been read yet. -/
def start (g : Grammar) : Reading := ⟨[], g.operands, [], false⟩

/-- Adds what an option was given. -/
def give (r : Reading) (name : String) (given : Given) : Reading :=
  { r with given := r.given ++ [(name, given)], endsWithOperand := false }

/-- Adds a word without a place. -/
def leave (r : Reading) (s : String) : Reading :=
  { r with leftovers := r.leftovers ++ [s], endsWithOperand := false }

/-- Adds a word that is an operand, if one is awaited. -/
def addPlain (r : Reading) (s : String) : Except Misuse Reading :=
  match r.awaited with
  | [] => .ok (r.leave s)
  | operand :: awaited => do
    let given ← convert operand.name operand.takes s
    .ok ⟨r.given ++ [(operand.name, given)], awaited, r.leftovers, true⟩

/-- Adds the texts behind the separator, the first of them aside.  A further
    separator leaves the operand in whose place it stands blank. -/
def addTexts (r : Reading) : List String → Except Misuse Reading
  | [] => .ok r
  | s :: rest =>
    match r.awaited with
    | operand :: awaited =>
      if s = "--" then
        let given := r.given ++ [(operand.name, .blank)]
        addTexts ⟨given, awaited, r.leftovers, true⟩ rest
      else do
        let r ← r.addPlain s
        addTexts r rest
    | [] => addTexts (r.leave s) rest

/-- Adds the separator and the texts behind it.  The separator belongs to the
    operand before it or the operand after it, and without either it is a
    word without a place. -/
def addBehind (r : Reading) (texts : List String) : Except Misuse Reading :=
  if r.endsWithOperand then r.addTexts texts
  else
    match r.awaited, texts with
    | _ :: _, s :: rest => do
      let r ← r.addPlain s
      r.addTexts rest
    | _, texts => (r.leave "--").addTexts texts

/-- The option or operand has been given something. -/
def has (r : Reading) (name : String) : Bool := r.given.any fun g => g.1 == name

/-- The texts that were given under a name, in order. -/
def texts (r : Reading) (name : String) : List String :=
  r.given.filterMap fun
    | (name', .text s) => if name' = name then some s else none
    | _ => none

/-- The text that was given last under a name. -/
def text? (r : Reading) (name : String) : Option String := (r.texts name).getLast?

/-- The integer that was given last under a name. -/
def integer? (r : Reading) (name : String) : Option Int :=
  (r.given.filterMap fun
    | (name', .integer n) => if name' = name then some n else none
    | _ => none).getLast?

end Reading

/-! ## Section 5: reading a command line -/

namespace Grammar

/-- Reads the words before the separator. -/
def readFront (g : Grammar) (r : Reading) : List Word → Except Stop Reading
  | [] => .ok r
  | .plain s :: rest =>
    match r.addPlain s with
    | .error problem => .error (.misuse g problem)
    | .ok r => g.readFront r rest
  | .unknown s :: rest => g.readFront (r.leave s) rest
  | .known .help none :: _ => .error (.help g)
  | .known .help (some value) :: _ => .error (.misuse g (.unusedValue Target.help.label value))
  | .known (.option spec) (some value) :: rest =>
    if spec.takes = .nothing then .error (.misuse g (.unusedValue spec.name value))
    else
      match convert spec.name spec.takes value with
      | .error problem => .error (.misuse g problem)
      | .ok given => g.readFront (r.give spec.name given) rest
  | .known (.option spec) none :: rest =>
    -- The value is the next word, which must not look like an option.
    if spec.takes = .nothing then g.readFront (r.give spec.name .present) rest
    else
      match rest with
      | .plain s :: rest =>
        match convert spec.name spec.takes s with
        | .error problem => .error (.misuse g problem)
        | .ok given => g.readFront (r.give spec.name given) rest
      | _ => .error (.misuse g (.noValue spec.name))

/-- What has to be given and has not been. -/
def missing (g : Grammar) (r : Reading) : List String :=
  (g.options.filter fun spec => spec.required && !r.has spec.name).map (·.name)
    ++ r.awaited.map (·.name)

/-- Reads the words of a command line. -/
def parse (g : Grammar) (args : List String) : Except Stop Reading := do
  let words ← (g.readWords args).mapError (.misuse g)
  let r ← g.readFront (.start g) words.front
  let r ←
    match words.behind with
    | none => .ok r
    | some texts => (r.addBehind texts).mapError (.misuse g)
  match g.missing r with
  | [] => .ok r
  | names => .error (.misuse g (.missing names))

end Grammar
end CalibratedCosts.CommandLine
