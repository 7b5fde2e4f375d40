/-
# Usage and help

The usage lines name the program and its flags, as many on a line as fit; further lines are
indented to the first flag.  The help text has the usage lines, a sentence on the program,
and a paragraph for each flag.
-/
import Varscript.CommandLine.Flag
import Varscript.Text.Quoted

namespace Varscript.CommandLine

/-- What the usage lines say on the flags; rivals stand together. -/
def usageItems : List String :=
  ["[-h]", "[--file FILE | --interactive]", "[--print-tokens]", "[--no-ast]", "[--json]",
   "[--surface]", "[--viz-ast VIZ_AST]", "[--viz-format VIZ_FORMAT]", "[--verbose]"]

/-- The greatest width of a usage line. -/
def usageWidth : Nat := 78

/-- Fills lines with items, a space between two of them; `indent` columns stand before each
line and `line` is the line being filled. -/
def fillLines (indent : Nat) (line : String) : List String → List String
  | [] => [line]
  | item :: items =>
    if usageWidth < indent + line.length + 1 + item.length then
      line :: fillLines indent item items
    else fillLines indent (line ++ " " ++ item) items

/-- The usage lines of a program with a given name. -/
def usage (program : String) : String :=
  let lead := "usage: " ++ program ++ " "
  let lines := match usageItems with
    | [] => []
    | item :: items => fillLines lead.length item items
  lead ++ String.intercalate ("\n" ++ String.ofList (List.replicate lead.length ' ')) lines ++ "\n"

/-- What the help text says after the usage lines. -/
def helpBody : List String :=
  ["",
   "Parse a varscript program and print its syntax tree",
   "",
   "options:",
   "  -h, --help            show this help message and exit",
   "  --file FILE, -f FILE  Path to source file to process",
   "  --interactive, -i     Start interactive REPL mode",
   "  --print-tokens        Print tokens",
   "  --no-ast              Do not print AST",
   "  --json                Print AST as JSON",
   "  --surface             Print the program regenerated from the AST",
   "  --viz-ast VIZ_AST     Path (without extension) to write Graphviz",
   "                        visualization of the AST",
   "  --viz-format VIZ_FORMAT",
   "                        Format for Graphviz output (svg, png, pdf, etc)",
   "  --verbose, -v         Debug logging"]

/-- The help text of a program with a given name. -/
def help (program : String) : String :=
  usage program ++ String.join (helpBody.map (· ++ "\n"))

/-- The message of a complaint. -/
def Complaint.message : Complaint → String
  | .ambiguous text spellings =>
    "ambiguous option: " ++ text ++ " could match " ++ String.intercalate ", " spellings
  | .missingValue f => "argument " ++ f.name ++ ": expected one argument"
  | .uselessValue f value =>
    "argument " ++ f.name ++ ": ignored explicit argument " ++ Text.quoted value
  | .conflict f rival =>
    "argument " ++ f.name ++ ": not allowed with argument " ++ rival.name
  | .unrecognized texts => "unrecognized arguments: " ++ String.intercalate " " texts

/-- What is printed for a complaint. -/
def Complaint.text (program : String) (c : Complaint) : String :=
  usage program ++ program ++ ": error: " ++ c.message ++ "\n"

end Varscript.CommandLine
