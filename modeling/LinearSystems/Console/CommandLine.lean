import LinearSystems.Console.Program

/-!
# The command line

The arguments are first classified one by one: an option, an option that does not exist, a plain
word, or the mark after which all arguments are words. Long options may be shortened as long as they
stay unambiguous, and a value may follow an equals sign. Then they are taken from left to right. A
request for the version or for help ends the program when it is reached, and so does a value that
does not fit; arguments that mean nothing are an error at the end.
-/

namespace LinearSystems.Console

/-- The options. -/
inductive Flag where
  | help
  | method
  | version
  deriving DecidableEq, Repr

/-- The spellings of the options. -/
def flagNames : List (String × Flag) :=
  [("-h", .help), ("--help", .help), ("--method", .method), ("--version", .version)]

/-- An argument by itself. A value may be attached to an option after an equals sign; what is
    attached to the short request for help stands for further short options. -/
inductive Argument where
  | flag (f : Flag)
  | flagWith (f : Flag) (value : String)
  | cluster (letters : List Char)
  | unknown
  | word (text : String)
  | mark
  deriving DecidableEq, Repr

/-- The method that the arguments choose. -/
inductive Selection where
  /-- None, so that the menu decides. -/
  | menu
  | method (m : Method)
  /-- The mark, which is no value of an option even where it is attached to one. -/
  | nothing
  deriving DecidableEq, Repr

/-- The selection that a value of the method option makes. -/
def Selection.ofValue? (value : String) : Option Selection :=
  if value = "--" then some .nothing else (Method.ofName? value).map .method

/-- The dialogue that a selection starts. -/
def Selection.dialogue : Selection → Dialogue Nat
  | .menu => program none
  | .method m => program (some m)
  | .nothing => .fail (.misuse (.noKey "list"))

/-- What the command line asks for. -/
inductive Request where
  | run (selection : Selection)
  | version
  | help
  | usageError
  deriving DecidableEq, Repr

/-- The part of an argument before its first equals sign, and the part after it. -/
def splitValue? (text : List Char) : Option (String × String) :=
  if text.contains '=' then
    some (String.ofList (text.takeWhile (· != '=')),
      String.ofList ((text.dropWhile (· != '=')).drop 1))
  else none

/-- The options whose long spelling begins with a text. -/
def flagsFrom (start : String) : List Flag :=
  (flagNames.filter fun (name, _) => start.toList.isPrefixOf name.toList).map (·.2)

/-- Whether a text is a negative number: digits with at most one point, which digits follow. -/
def isNegativeNumber (text : List Char) : Bool :=
  match text with
  | '-' :: body =>
    let isDigit := fun c => (Text.digitValue? c).isSome
    let after := body.dropWhile isDigit
    (after.isEmpty && !body.isEmpty)
      || (after.head? == some '.' && after.length > 1 && (after.drop 1).all isDigit)
  | _ => false

/-- A dashed argument that is neither an option nor the beginning of one. -/
def classifyOther (text : List Char) : Argument :=
  if isNegativeNumber text || text.contains ' ' then .word (String.ofList text) else .unknown

/-- A shortened long option; none if it is ambiguous. -/
def classifyLong (text : List Char) : Option Argument :=
  let (start, value) := match splitValue? text with
    | some (start, value) => (start, some value)
    | none => (String.ofList text, none)
  match flagsFrom start, value with
  | [f], none => some (.flag f)
  | [f], some v => some (.flagWith f v)
  | [], _ => some (classifyOther text)
  | _, _ => none

/-- An option with a value attached to it. -/
def classifyAttached (text : List Char) : Option Argument :=
  match splitValue? text with
  | none => none
  | some (name, value) =>
    (flagNames.lookup name).map fun f =>
      if name.length = 2 ∧ value ≠ "" then .cluster value.toList else .flagWith f value

/-- Classifies an argument that stands before the mark; none if it is ambiguous. -/
def classify (text : List Char) : Option Argument :=
  match text with
  | '-' :: second :: rest =>
    match flagNames.lookup (String.ofList text) with
    | some f => some (.flag f)
    | none =>
      match classifyAttached text with
      | some a => some a
      | none =>
        if second = '-' then classifyLong text
        else if second = 'h' then some (.cluster rest)
        else some (classifyOther text)
  | _ => some (.word (String.ofList text))

/-- Classifies all arguments; none if one of them is ambiguous. -/
def classifyAll : List String → Option (List Argument)
  | [] => some []
  | text :: rest =>
    if text = "--" then some (.mark :: rest.map .word)
    else
      match classify text.toList, classifyAll rest with
      | some a, some as => some (a :: as)
      | _, _ => none

/-- Whether the letters after a short request for help may stand there: there is no other short
    option. -/
def clusterFits (letters : List Char) : Bool :=
  letters.all (· == 'h')

/-- Takes the arguments from left to right, with the method chosen so far and whether one of them
    meant nothing. -/
def take (selection : Selection) (extra : Bool) : List Argument → Request
  | [] => if extra then .usageError else .run selection
  | .flag .help :: _ => .help
  | .flag .version :: _ => .version
  | .flag .method :: .word value :: rest =>
    match Selection.ofValue? value with
    | some chosen => take chosen extra rest
    | none => .usageError
  | .flag .method :: _ => .usageError
  | .flagWith .method value :: rest =>
    match Selection.ofValue? value with
    | some chosen => take chosen extra rest
    | none => .usageError
  | .flagWith _ _ :: _ => .usageError
  | .cluster letters :: _ => if clusterFits letters then .help else .usageError
  | .unknown :: rest => take selection true rest
  | .word _ :: rest => take selection true rest
  | .mark :: rest => take selection true rest

/-- What the arguments ask for. -/
def parseArguments (arguments : List String) : Request :=
  match classifyAll arguments with
  | none => .usageError
  | some as => take .menu false as

/-- The version of the program, as it is shown. -/
def versionText : String := "pylinsolve 0.1.0\n"

/-- The help of the program. -/
def helpText : String :=
  "\n".intercalate
    ["usage: pylinsolve [-h] [--method \x7bgauss,jacobi,thomas\x7d] [--version]",
      "",
      "Solve systems of linear equations interactively.",
      "",
      "options:",
      "  -h, --help            show this help message and exit",
      "  --method \x7bgauss,jacobi,thomas\x7d",
      "                        Solver to run; prompts with a menu when omitted",
      "  --version             show program's version number and exit",
      ""]

/-- How a run of the program ended: it returned a code, left with a code before it began, or a fault
    escaped it. -/
inductive Ending where
  | returned (code : Nat)
  | exited (code : Nat)
  | escaped (f : Fault)

/-- What a run wrote and how it ended. -/
structure Run where
  output : String
  ending : Ending

/-- How the program went as a run. -/
def Run.ofConduct (c : Conduct) : Run where
  output := written c.said
  ending := match c.ending with
    | .ok code => .returned code
    | .error f => .escaped f

/-- Runs the program with arguments on an input. -/
def runWith (arguments : List String) (input : String) : Run :=
  match parseArguments arguments with
  | .usageError => { output := "", ending := .exited 2 }
  | .version => { output := versionText, ending := .exited 0 }
  | .help => { output := helpText, ending := .exited 0 }
  | .run selection => .ofConduct (runDialogue selection.dialogue input)

end LinearSystems.Console
