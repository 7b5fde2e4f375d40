/-
# Flags and arguments

The program understands ten flags.  Each has one or two spellings, a long one with two
dashes and a short one with a single dash; three of them take a value.

An argument of the command line is read by its form alone, before any flag has an effect.
In this order:

* an argument that does not start with a dash, or is a dash and nothing else, is plain;
* a spelling is its flag, with what follows the first equals sign for a value;
* a beginning of long spellings is the flag they belong to; it is ambiguous if they are more
  than one;
* a short spelling followed by more characters is its flag, with these for a value;
* a negative number is plain, and so is whatever holds a space;
* anything else is unknown.
-/
import Varscript.Text.DecimalDigit

namespace Varscript.CommandLine

/-- The flags. -/
inductive Flag where
  | help
  | file
  | interactive
  | printTokens
  | noAst
  | json
  | surface
  | vizAst
  | vizFormat
  | verbose
deriving DecidableEq, Repr

namespace Flag

/-- The flags in the order in which they are documented. -/
def all : List Flag :=
  [.help, .file, .interactive, .printTokens, .noAst, .json, .surface, .vizAst, .vizFormat,
   .verbose]

/-- The spellings of a flag. -/
def spellings : Flag → List String
  | .help => ["-h", "--help"]
  | .file => ["--file", "-f"]
  | .interactive => ["--interactive", "-i"]
  | .printTokens => ["--print-tokens"]
  | .noAst => ["--no-ast"]
  | .json => ["--json"]
  | .surface => ["--surface"]
  | .vizAst => ["--viz-ast"]
  | .vizFormat => ["--viz-format"]
  | .verbose => ["--verbose", "-v"]

/-- Whether a flag takes a value. -/
def takesValue : Flag → Bool
  | .file | .vizAst | .vizFormat => true
  | _ => false

/-- The flags that cannot be given together with a flag. -/
def rivals : Flag → List Flag
  | .file => [.interactive]
  | .interactive => [.file]
  | _ => []

/-- What a message calls a flag. -/
def name (f : Flag) : String := String.intercalate "/" f.spellings

theorem mem_all (f : Flag) : f ∈ all := by
  cases f <;> decide

end Flag

/-- All spellings with their flags, in the order of the flags. -/
def spellingTable : List (List Char × Flag) :=
  Flag.all.flatMap fun f => f.spellings.map fun s => (s.toList, f)

/-- The flag with a given spelling. -/
def flagOfSpelling? (s : List Char) : Option Flag := spellingTable.lookup s

/-- An argument, read by its form. -/
inductive Arg where
  /-- No flag: the value of one, or out of place. -/
  | plain (text : String)
  /-- A flag, in its short or long form, with a value if one is attached to it. -/
  | flag (f : Flag) (short : Bool) (value : Option (List Char))
  /-- It looks like a flag and is none. -/
  | unknown (text : String)
deriving DecidableEq, Repr

/-- What is wrong with a command line. -/
inductive Complaint where
  /-- A beginning of several spellings. -/
  | ambiguous (text : String) (spellings : List String)
  /-- A flag without the value that it takes. -/
  | missingValue (f : Flag)
  /-- A flag with a value that it does not take. -/
  | uselessValue (f : Flag) (value : String)
  /-- A flag together with one of its rivals. -/
  | conflict (f rival : Flag)
  /-- Arguments that belong to no flag. -/
  | unrecognized (texts : List String)
deriving DecidableEq, Repr

/-- The parts of a text before and after its first equals sign. -/
def cutAtEquals (s : List Char) : List Char × Option (List Char) :=
  (s.takeWhile (· ≠ '='), (s.dropWhile (· ≠ '=')).tail? )

/-- A text with two dashes in front. -/
def isLong (s : List Char) : Bool := ['-', '-'].isPrefixOf s

/-- The readings of a text as the beginning of a long spelling, or as a short spelling with
more characters behind it. -/
def completions (s : List Char) : List (List Char × Arg) :=
  if isLong s then
    let (start, value) := cutAtEquals s
    (spellingTable.filter fun (spelling, _) => start.isPrefixOf spelling).map
      fun (spelling, f) => (spelling, .flag f false value)
  else
    (spellingTable.filter fun (spelling, _) => spelling = s.take 2).map
      fun (spelling, f) => (spelling, .flag f true (some (s.drop 2)))

/-- A dash and a number: decimal digits, or a point with digits behind it and perhaps before
it.  A line feed at the end does not count. -/
def isNegativeNumber (s : List Char) : Bool :=
  let body := if s.getLast? = some '\n' then s.dropLast else s
  match body with
  | '-' :: number =>
    match number.dropWhile Text.isDecimalDigit with
    | [] => number ≠ []
    | '.' :: fraction => fraction ≠ [] && fraction.all Text.isDecimalDigit
    | _ => false
  | _ => false

/-- Reads an argument by its form. -/
def readArg (text : String) : Except Complaint Arg :=
  let s := text.toList
  if s.head? ≠ some '-' ∨ s = ['-'] then .ok (.plain text)
  else match flagOfSpelling? s with
  | some f => .ok (.flag f (!isLong s) none)
  | none =>
    let (start, value) := cutAtEquals s
    match value, flagOfSpelling? start with
    | some value, some f => .ok (.flag f (!isLong s) (some value))
    | _, _ =>
      match completions s with
      | [] =>
        if isNegativeNumber s ∨ ' ' ∈ s then .ok (.plain text) else .ok (.unknown text)
      | [(_, arg)] => .ok arg
      | several => .error (.ambiguous text (several.map fun (s, _) => String.ofList s))

end Varscript.CommandLine
