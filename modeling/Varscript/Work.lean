/-
# Work on a world of files and output

Processing a program prints, keeps a log and touches files.  The world holds the file tree,
what has been printed and what has been logged; work changes the world and ends with a
result or a crash.  After a crash the world is as the work left it: what was printed stays
printed, what was written stays written.
-/
import Varscript.FileTree
import Varscript.Node
import Varscript.SourceError
import Varscript.Text.Utf8

namespace Varscript

/-- How the format of a picture is given. -/
inductive FormatChoice where
  /-- By its name, in letters of any case. -/
  | named (name : String)
  /-- By no value at all. -/
  | absent
  /-- By a list of values that is empty. -/
  | noValues
deriving DecidableEq, Repr

/-- The name of the type of the value that gives a format. -/
def FormatChoice.typeName : FormatChoice → String
  | .named _ => "str"
  | .absent => "NoneType"
  | .noValues => "list"

/-- Why work ends without a result. -/
inductive Crash where
  /-- A file or folder cannot be used. -/
  | access (f : AccessFault)
  /-- A file is not a text. -/
  | encoding (f : Text.Utf8.Fault)
  /-- A picture is asked for in an unknown format, with its name in lower case. -/
  | unknownFormat (name : String)
  /-- A picture is asked for in a format that has no name. -/
  | namelessFormat (format : FormatChoice)
  /-- There is no program that makes pictures. -/
  | noRenderer
  /-- A tree has no such view. -/
  | view (r : Refusal)
deriving DecidableEq, Repr

/-- The formats of pictures. -/
def pictureFormats : List String :=
  ["bmp", "canon", "cgimage", "cmap", "cmapx", "cmapx_np", "dot", "dot_json", "eps", "exr",
   "fig", "gd", "gd2", "gif", "gtk", "gv", "ico", "imap", "imap_np", "ismap", "jp2", "jpe",
   "jpeg", "jpg", "json", "json0", "pct", "pdf", "pic", "pict", "plain", "plain-ext", "png",
   "pov", "ps", "ps2", "psd", "sgi", "svg", "svg_inline", "svgz", "tga", "tif", "tiff", "tk",
   "vml", "vmlz", "vrml", "wbmp", "webp", "x11", "xdot", "xdot1.2", "xdot1.4", "xdot_json",
   "xlib"]

/-- The message of an access fault. -/
def AccessFault.message : AccessFault → String
  | .unusable fault path =>
    "[Errno " ++ toString fault.number ++ "] " ++ fault.text ++ ": " ++ Text.quoted path
  | .broken fault => "[Errno " ++ toString fault.number ++ "] " ++ fault.text
  | .nullByte => "embedded null byte"

/-- The message of a crash. -/
def Crash.message : Crash → String
  | .access f => f.message
  | .encoding f => f.message
  | .unknownFormat name =>
    "unknown format: " ++ Text.quoted name ++ " (must be one of ["
      ++ String.intercalate ", " (pictureFormats.map Text.quoted) ++ "])"
  | .namelessFormat format => "'" ++ format.typeName ++ "' object has no attribute 'lower'"
  | .noRenderer => "failed to execute PosixPath('dot'), "
      ++ "make sure the Graphviz executables are on your systems' PATH"
  | .view r => r.message

/-- What work can see and change. -/
structure World where
  /-- The file system. -/
  files : FileTree
  /-- What has been printed. -/
  out : String
  /-- The messages that have been logged. -/
  log : List String
deriving DecidableEq, Repr

/-- A world with a file system, before any output. -/
def World.ofFiles (files : FileTree) : World := ⟨files, "", []⟩

/-- Work with results from `β`. -/
abbrev Work (β : Type) := EStateM Crash World β

namespace Work

/-- Prints a text. -/
def say (text : String) : Work Unit := modify fun w => { w with out := w.out ++ text }

/-- Logs a message. -/
def note (message : String) : Work Unit := modify fun w => { w with log := w.log ++ [message] }

/-- Uses the file system. -/
def onFiles {β : Type} (a : FileTree.Access β) : Work β := fun w =>
  match a w.files with
  | .ok b files => .ok b { w with files := files }
  | .error f files => .error (.access f) { w with files := files }

/-- The view of a tree, if there is one. -/
def view {β : Type} : Except Refusal β → Work β
  | .ok b => return b
  | .error r => throw (.view r)

/-- The text that some bytes spell. -/
def decoded (bytes : List UInt8) : Work (List Char) :=
  match Text.Utf8.decode bytes with
  | .ok text => return text
  | .error f => throw (.encoding f)

/-- Writes a text into a file. -/
def save (path text : String) : Work Unit :=
  onFiles (FileTree.write path (Text.Utf8.encode text.toList))

end Work
end Varscript
