/-
# Settings from a command line

All arguments are read by their form first; an ambiguous one ends the matter.  Two dashes
alone end the flags: they belong to none, nor does any argument behind them.  Then the flags
take effect from left to right.  Short flags may stand together behind one dash; the first of
them that takes a value takes the rest of the argument.  A flag that takes a value and has none
attached takes the next argument, which must be plain.  On some hosts an attached value of two
dashes is dropped, so that the flag has none.  The request for help ends the matter as soon as
it takes effect, and so does a flag whose rival has been given.  Arguments that no flag takes
are collected, and complained of at the end.
-/
import Varscript.CommandLine.Flag
import Varscript.Host
import Varscript.Report

namespace Varscript.CommandLine

/-- What the program is asked to do. -/
structure Settings where
  /-- The file with the program, if one is named. -/
  file : Option String
  /-- Whether to hold a dialogue. -/
  interactive : Bool
  /-- The views to show. -/
  views : Views
  /-- Where to save the drawing, if there is to be a picture. -/
  picturePath : Option String
  /-- The format of the picture. -/
  pictureFormat : FormatChoice
  /-- Whether to show the log. -/
  verbose : Bool
deriving DecidableEq, Repr

/-- The settings without any flag. -/
def Settings.default : Settings :=
  ⟨none, false, ⟨false, true, false, false⟩, none, .named "svg", false⟩

/-- Why a command line gives no settings. -/
inductive Stop where
  /-- It asks for help. -/
  | help
  /-- It is wrong. -/
  | wrong (c : Complaint)
deriving DecidableEq, Repr

/-- The value that a text attached to a flag gives it: none if the text is two dashes and the host
drops these. -/
def valueOf [Host] (text : String) : Option String :=
  if Host.dropsDashes ∧ text = "--" then none else some text

/-- The effect of a flag with its value, if it has one. -/
def Settings.apply (s : Settings) (value : Option String) : Flag → Settings
  | .help => s
  | .file => { s with file := value }
  | .interactive => { s with interactive := true }
  | .printTokens => { s with views := { s.views with tokens := true } }
  | .noAst => { s with views := { s.views with outline := false } }
  | .json => { s with views := { s.views with document := true } }
  | .surface => { s with views := { s.views with source := true } }
  | .vizAst => { s with picturePath := value }
  | .vizFormat => { s with pictureFormat := (value.map .named).getD .noValues }
  | .verbose => { s with verbose := true }

/-- How far a command line has been followed. -/
structure Progress where
  /-- The settings so far. -/
  settings : Settings
  /-- The flags given so far. -/
  given : List Flag
  /-- The arguments that no flag took, in order. -/
  extras : List String

/-- A flag takes effect, with its value if it has one. -/
def Progress.give (p : Progress) (f : Flag) (value : Option String) : Except Stop Progress :=
  match f.rivals.find? (· ∈ p.given) with
  | some rival => .error (.wrong (.conflict f rival))
  | none =>
    if f = .help then .error .help
    else .ok { p with settings := p.settings.apply value f, given := f :: p.given }

/-- Flags without a value take effect, in order. -/
def Progress.giveAll (p : Progress) : List Flag → Except Stop Progress
  | [] => .ok p
  | f :: fs => do (← p.give f none).giveAll fs

/-- A flag with the text attached to it, taken apart: the flags that stand before the last
one, the last one, and the value attached to that one. -/
def takeApart (f : Flag) (short : Bool) :
    List Char → Except Complaint (List Flag × Flag × Option String)
  | [] => if f.takesValue then .ok ([], f, some "") else .error (.uselessValue f "")
  | c :: cs =>
    if f.takesValue then .ok ([], f, some (String.ofList (c :: cs)))
    else match if short then flagOfSpelling? ['-', c] else none with
    | none => .error (.uselessValue f (String.ofList (c :: cs)))
    | some g =>
      if cs = [] then .ok ([f], g, none)
      else (takeApart g true cs).map fun (before, last, value) => (f :: before, last, value)

/-- A flag with the text attached to it, if there is any, taken apart. -/
def detach (f : Flag) (short : Bool) (attached : Option (List Char)) :
    Except Complaint (List Flag × Flag × Option String) :=
  match attached with
  | none => .ok ([], f, none)
  | some text => takeApart f short text

/-- Follows arguments from left to right. -/
def follow [Host] (p : Progress) : List Arg → Except Stop Progress
  | [] => .ok p
  | .plain text :: args => follow { p with extras := p.extras ++ [text] } args
  | .unknown text :: args => follow { p with extras := p.extras ++ [text] } args
  | .flag f short attached :: args =>
    match detach f short attached with
    | .error c => .error (.wrong c)
    | .ok (before, last, value) =>
      if last.takesValue ∧ value = none then
        match args with
        | .plain text :: args => do
          let p ← p.giveAll before
          let p ← p.give last (some text)
          follow p args
        | _ => .error (.wrong (.missingValue last))
      else do
        let p ← p.giveAll before
        let p ← p.give last (value.bind valueOf)
        follow p args

/-- Reads the arguments of a command line by their form, up to two dashes alone. -/
def readArgs : List String → Except Complaint (List Arg)
  | [] => .ok []
  | text :: texts =>
    if text = "--" then .ok (.unknown text :: texts.map .plain)
    else do
      let arg ← readArg text
      let args ← readArgs texts
      return arg :: args

/-- The settings that a command line gives. -/
def settingsOf [Host] (args : List String) : Except Stop Settings :=
  match readArgs args with
  | .error c => .error (.wrong c)
  | .ok args =>
    match follow ⟨.default, [], []⟩ args with
    | .error stop => .error stop
    | .ok p => if p.extras = [] then .ok p.settings else .error (.wrong (.unrecognized p.extras))

end Varscript.CommandLine
