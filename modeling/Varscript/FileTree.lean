/-
# Files and folders

A file tree is what a program sees of a file system: a location is folder, file or nothing.
Files and folders may be out of order or out of bounds, and then the tree says how the system
refuses them.  Locations are lists of names on the way down from the working folder.  A way that
leaves the working folder starts with `..`, or with `/` for the root; of what lies outside, only
the folders above the working folder and the root are there from the start.

A path is a text that leads to a location: it is cut at its slashes, `.` stays where it is,
`..` goes one folder up, and every step needs a folder to start from.  A path that ends in a
slash leads to a folder.  Reading, writing and making a folder fail with the reason that a
system gives, together with the path as it was written, or because the path holds a null
character and is none at all.
-/
namespace Varscript

/-- The names on the way from the working folder. -/
abbrev Location := List String

/-- Why a path cannot be used. -/
inductive PathFault where
  /-- The location, or a folder on the way to it, does not exist. -/
  | missing
  /-- There is something at the location already. -/
  | occupied
  /-- A file stands where a folder is needed. -/
  | notFolder
  /-- A folder stands where a file is needed. -/
  | isFolder
  /-- The path or one of its names is too long. -/
  | tooLong
  /-- Anything else that the system has to say, such as a lack of permission, a fault of the device
  or a link that leads round in a circle: by its number and in its words. -/
  | other (number : Nat) (text : String)
deriving DecidableEq, Repr

/-- What a location holds. -/
inductive Entry where
  | folder
  | file (bytes : List UInt8)
  /-- A file that cannot be opened. -/
  | locked (fault : PathFault)
  /-- A file that can be opened, and then its bytes cannot be had. -/
  | damaged (fault : PathFault)
  /-- What can neither be opened nor passed through on the way to something else: a folder, or a
  link. -/
  | barred (fault : PathFault) (isFolder : Bool)
deriving DecidableEq, Repr

/-- Whether there is a folder, be it barred or not. -/
def Entry.isFolder : Entry → Bool
  | .folder => true
  | .barred _ isFolder => isFolder
  | _ => false

/-- The number of a fault. -/
def PathFault.number : PathFault → Nat
  | .missing => 2
  | .occupied => 17
  | .notFolder => 20
  | .isFolder => 21
  | .tooLong => 36
  | .other number _ => number

/-- The words for a fault. -/
def PathFault.text : PathFault → String
  | .missing => "No such file or directory"
  | .occupied => "File exists"
  | .notFolder => "Not a directory"
  | .isFolder => "Is a directory"
  | .tooLong => "File name too long"
  | .other _ text => text

/-- Why an access to the file tree fails. -/
inductive AccessFault where
  /-- The path cannot be used. -/
  | unusable (fault : PathFault) (path : String)
  /-- A file that is open cannot be read or written. -/
  | broken (fault : PathFault)
  /-- The path holds a null character. -/
  | nullByte
deriving DecidableEq, Repr

namespace Location

/-- One folder up. -/
def parent (l : Location) : Location :=
  if l.all (· = "..") then l ++ [".."] else if l = ["/"] then l else l.dropLast

/-- One step along a path. -/
def step (l : Location) (name : String) : Location :=
  if name = "." then l else if name = ".." then parent l else l ++ [name]

/-- A folder that is there from the start: the working folder, one above it, or the root. -/
def isGiven (l : Location) : Bool := l.all (· = "..") || l = ["/"]

/-- A path to a location. -/
def path (l : Location) : String :=
  match l with
  | "/" :: names => "/" ++ String.intercalate "/" names
  | names => String.intercalate "/" names

/-- A location in the working folder or below. -/
def isInside (l : Location) : Bool := l.head? != some ".." && l.head? != some "/"

end Location

/-- Folders and files at their locations, apart from the given folders. -/
structure FileTree where
  /-- The entries, in the order in which they were last made. -/
  entries : List (Location × Entry)
deriving DecidableEq, Repr

namespace FileTree

/-- The file tree of an empty working folder. -/
def empty : FileTree := ⟨[]⟩

/-- What is at a location. -/
def get? (t : FileTree) (l : Location) : Option Entry :=
  if l.isGiven then some .folder else t.entries.lookup l

/-- Puts an entry at a location, in place of what is there. -/
def put (t : FileTree) (l : Location) (e : Entry) : FileTree :=
  ⟨t.entries.filter (fun p => p.1 != l) ++ [(l, e)]⟩

theorem lookup_filter_self (l : Location) (es : List (Location × Entry)) :
    (es.filter fun p => p.1 != l).lookup l = none := by
  induction es with
  | nil => rfl
  | cons p es ih =>
    obtain ⟨k, e⟩ := p
    by_cases hk : k = l
    · simpa only [List.filter_cons, hk, bne_self_eq_false, Bool.false_eq_true, if_false] using ih
    · have hk' : (l == k) = false := by simpa using fun h => hk h.symm
      simpa only [List.filter_cons, bne_iff_ne, ne_eq, hk, not_false_eq_true, if_true,
        List.lookup_cons, hk'] using ih

theorem lookup_filter_of_ne {l m : Location} (h : m ≠ l) (es : List (Location × Entry)) :
    (es.filter fun p => p.1 != l).lookup m = es.lookup m := by
  induction es with
  | nil => rfl
  | cons p es ih =>
    obtain ⟨k, e⟩ := p
    by_cases hk : k = l
    · have hk' : (m == k) = false := by simpa [hk] using h
      simp only [List.filter_cons, hk, bne_self_eq_false, Bool.false_eq_true, if_false, ih]
      simp only [List.lookup_cons, ← hk, hk']
    · simp only [List.filter_cons, bne_iff_ne, ne_eq, hk, not_false_eq_true, if_true,
        List.lookup_cons, ih]

theorem get?_put_self (t : FileTree) {l : Location} (hl : l.isGiven = false) (e : Entry) :
    (t.put l e).get? l = some e := by
  simp [get?, put, hl, List.lookup_append, lookup_filter_self]

theorem get?_put_of_ne (t : FileTree) {l m : Location} (h : m ≠ l) (e : Entry) :
    (t.put l e).get? m = t.get? m := by
  have hm : (m == l) = false := by simpa using h
  simp [get?, put, List.lookup_append, lookup_filter_of_ne h, List.lookup_cons, hm]

/-- The names of a path, in order, without the empty ones between two slashes; a path that
ends in a slash has the name `.` at its end. -/
def names (path : String) : List String :=
  let pieces := path.splitOn "/"
  pieces.filter (· ≠ "") ++ if pieces.getLast? = some "" then ["."] else []

/-- Where a path starts. -/
def origin (path : String) : Location := if path.startsWith "/" then ["/"] else []

/-- The greatest number of bytes in a name. -/
def nameLimit : Nat := 255

/-- The least number of bytes that are too many for a path. -/
def pathLimit : Nat := 4096

/-- The location that names lead to, from a location on. -/
def walk (t : FileTree) (l : Location) : List String → Except PathFault Location
  | [] => .ok l
  | name :: names => match t.get? l with
    | none => .error .missing
    | some (.file _) | some (.locked _) | some (.damaged _) => .error .notFolder
    | some (.barred fault _) => .error fault
    | some .folder =>
      if nameLimit < name.utf8ByteSize then .error .tooLong else t.walk (l.step name) names

/-- The location that a path leads to. -/
def locate (t : FileTree) (path : String) : Except PathFault Location :=
  if path = "" then .error .missing
  else if pathLimit ≤ path.utf8ByteSize then .error .tooLong
  else t.walk (origin path) (names path)

/-- What a path leads to, if it leads to anything. -/
def find? (t : FileTree) (path : String) : Option Entry :=
  match t.locate path with
  | .ok l => t.get? l
  | .error _ => none

/-- An access to the file tree: it ends with a result or a fault, and in either case in a
new state of the tree. -/
abbrev Access (β : Type) := EStateM AccessFault FileTree β

/-- The location of a path, or the reason why it cannot be used. -/
def locating (path : String) : Access Location := fun t =>
  if '\x00' ∈ path.toList then .error .nullByte t
  else match t.locate path with
    | .ok l => .ok l t
    | .error f => .error (.unusable f path) t

/-- Reads a file. -/
def read (path : String) : Access (List UInt8) := do
  let l ← locating path
  match (← get).get? l with
  | some (.file bytes) => return bytes
  | some .folder => throw (.unusable .isFolder path)
  | some (.locked fault) | some (.barred fault _) => throw (.unusable fault path)
  | some (.damaged fault) => throw (.broken fault)
  | none => throw (.unusable .missing path)

/-- Writes a file, in place of one that is there. -/
def write (path : String) (bytes : List UInt8) : Access Unit := do
  let l ← locating path
  match (← get).get? l with
  | some .folder => throw (.unusable .isFolder path)
  | some (.locked fault) | some (.barred fault _) => throw (.unusable fault path)
  | some (.damaged fault) => throw (.broken fault)
  | some (.file _) | none => modify fun t => t.put l (.file bytes)

/-- Makes a folder where there is nothing. -/
def makeFolder (path : String) : Access Unit := do
  let l ← locating path
  match (← get).get? l with
  | some _ => throw (.unusable .occupied path)
  | none => modify fun t => t.put l .folder

/-- Makes a folder unless there is one. -/
def ensureFolder (path : String) : Access Unit := do
  unless ((← get).find? path).any Entry.isFolder do makeFolder path

/-- Makes the folders on a list of paths, each inside the one before.  On the way, anything
that is there already will do; the last path has to lead to a folder. -/
def ensureFolders : List String → Access Unit
  | [] => return
  | [path] => ensureFolder path
  | path :: paths => do
    if ((← get).find? path).isNone then makeFolder path
    ensureFolders paths

/-- The paths on the way to the folder of a path: what stands before each run of slashes;
`seen` is what has been passed, the last character first. -/
def waypoints (seen : List Char) : List Char → List String
  | [] => []
  | c :: cs =>
    if c = '/' ∧ seen.head?.any (· ≠ '/') then
      String.ofList seen.reverse :: waypoints (c :: seen) cs
    else waypoints (c :: seen) cs

/-- Makes the folders on the way to a path. -/
def ensureParents (path : String) : Access Unit :=
  ensureFolders (waypoints [] path.toList)

/-- Adds a file with the folders on the way to it, if that is possible. -/
def add (t : FileTree) (path : String) (bytes : List UInt8) : FileTree :=
  match (do ensureParents path; write path bytes : Access Unit) t with
  | .ok _ t' => t'
  | .error _ t' => t'

/-- Notes what a path leads to in a larger file system. -/
def observe (t : FileTree) (path : String) (e : Entry) : FileTree :=
  match t.locate path with
  | .ok l => t.put l e
  | .error _ => t

/-- The folders that a tree has and an earlier one lacks. -/
def newFolders (before after : FileTree) : List Location :=
  after.entries.filterMap fun (l, e) =>
    if e = .folder ∧ before.get? l = none then some l else none

/-- The files that a tree has and an earlier one lacks, or has with other bytes. -/
def changes (before after : FileTree) : List (Location × List UInt8) :=
  after.entries.filterMap fun (l, e) => match e with
    | .file bytes => if before.get? l = some e then none else some (l, bytes)
    | _ => none

end FileTree
end Varscript
