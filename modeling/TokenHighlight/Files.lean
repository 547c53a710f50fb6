import Std.Data.ExtTreeMap
import TokenHighlight.Files.Path

/-!
# Files

Files and directories, as far as reading and writing whole files goes. A path is walked part by part
from the root or from the directory that work goes on in, and every part but the last has to lead to
a directory: `d/../f` is found only where there is a directory `d`. A file is reached only by its
name, so no path that ends with a slash, a dot or a step up leads to one.

## Main definitions

* `Files` — what is there, `Files.startingIn`
* `Files.target?` — where a path leads
* `Files.read?`, `Files.readText?`, `Files.write?`
* `Files.makeDirectories`, `Files.create`

## Main statements

* `Files.target?_put_file` — a file that is written changes the way to no other
* `Files.read?_of_write?` — what was written is read back
-/

namespace TokenHighlight

/-- Where something is: the names on the way from the root. -/
abbrev Files.Location := List String

/-- What a location can hold. -/
inductive Files.Entry
  | directory
  | file (contents : ByteArray)

/-- Whether it is a directory. -/
def Files.Entry.isDirectory : Files.Entry → Bool
  | .directory => true
  | .file _ => false

/-- The files and directories below the root, and the directory that work goes on in. -/
structure Files where
  entries : Std.ExtTreeMap Files.Location Files.Entry
  here : Files.Location

namespace Files

/-- Whether a location is a directory. The root always is. -/
def isDirectory (fs : Files) (loc : Location) : Bool :=
  loc.isEmpty || fs.entries[loc]?.any Entry.isDirectory

/-- The directory that a part of a path leads to. -/
def enter? (fs : Files) (dir : Location) (part : String) : Option Location :=
  if Path.staysPut part then some dir
  else if Path.goesUp part then some dir.dropLast
  else if Path.isName part && fs.isDirectory (dir ++ [part]) then some (dir ++ [part])
  else none

/-- Where a path starts. -/
def start (fs : Files) (p : Path) : Location :=
  if p.isAbsolute then [] else fs.here

/-- Where a path leads, if its last part is a name and all others lead to directories. -/
def target? (fs : Files) (p : Path) : Option Location := do
  let name ← p.parts.getLast?
  if p.isUsable && Path.isName name then
    return (← p.parts.dropLast.foldlM fs.enter? (fs.start p)) ++ [name]
  else none

/-- The contents of a file. -/
def read? (fs : Files) (p : Path) : Option ByteArray := do
  match fs.entries[← fs.target? p]? with
  | some (.file contents) => some contents
  | _ => none

/-- The text in a file, if its contents are text. -/
def readText? (fs : Files) (p : Path) : Option String :=
  (fs.read? p).bind String.fromUTF8?

/-- Puts something at a location. -/
def put (fs : Files) (loc : Location) (entry : Entry) : Files :=
  { fs with entries := fs.entries.insert loc entry }

/-- Puts contents in a file, in the place of those it may have. Its directory has to be there. -/
def write? (fs : Files) (p : Path) (contents : ByteArray) : Option Files := do
  let loc ← fs.target? p
  if fs.isDirectory loc then none else some (fs.put loc (.file contents))

/-- Makes the directory that a part of a path leads to, unless it is there. -/
def makeDirectory? (fs : Files) (dir : Location) (part : String) : Option (Location × Files) :=
  match fs.enter? dir part with
  | some loc => some (loc, fs)
  | none =>
    let loc := dir ++ [part]
    if Path.isName part && fs.entries[loc]?.isNone then some (loc, fs.put loc .directory) else none

/-- Makes directories one in the other, up to the first that cannot be made. -/
def makeNested (fs : Files) (dir : Location) : List String → Files
  | [] => fs
  | part :: parts =>
    match fs.makeDirectory? dir part with
    | some (loc, fs) => fs.makeNested loc parts
    | none => fs

/-- Makes the directories of a path, as far as they can be made. -/
def makeDirectories (fs : Files) (p : Path) : Files :=
  if p.isUsable then fs.makeNested (fs.start p) p.parts else fs

/-- Puts contents in a file and makes the directories on the way. Directories stay even if the file
cannot be written. -/
def create (fs : Files) (p : Path) (contents : ByteArray) : Bool × Files :=
  let fs := fs.makeDirectories p.parent
  match fs.write? p contents with
  | some fs => (true, fs)
  | none => (false, fs)

/-- Nothing but the directory to work in, and those on the way to it. -/
def startingIn (here : Location) : Files :=
  { (Files.mk ∅ []).makeNested [] here with here }

/-! ### Writing and reading -/

theorem entries_put {fs : Files} {loc other : Location} {entry : Entry} :
    (fs.put loc entry).entries[other]? =
      if loc = other then some entry else fs.entries[other]? := by
  simp [put, Std.ExtTreeMap.getElem?_insert]

theorem isDirectory_put_file {fs : Files} {loc : Location} (contents : ByteArray)
    (h : fs.isDirectory loc = false) (other : Location) :
    (fs.put loc (.file contents)).isDirectory other = fs.isDirectory other := by
  by_cases hloc : loc = other
  · subst hloc
    simp_all [isDirectory, entries_put, Entry.isDirectory]
  · simp [isDirectory, entries_put, hloc]

theorem target?_put_file {fs : Files} {loc : Location} (contents : ByteArray)
    (h : fs.isDirectory loc = false) (p : Path) :
    (fs.put loc (.file contents)).target? p = fs.target? p := by
  have henter : (fs.put loc (.file contents)).enter? = fs.enter? := by
    funext dir part
    simp [enter?, isDirectory_put_file contents h]
  have hstart : (fs.put loc (.file contents)).start p = fs.start p := rfl
  simp [target?, henter, hstart]

theorem read?_of_write? {fs fs' : Files} {p : Path} {contents : ByteArray}
    (h : fs.write? p contents = some fs') : fs'.read? p = some contents := by
  unfold write? at h
  cases hloc : fs.target? p with
  | none => simp [hloc] at h
  | some loc =>
    by_cases hdir : fs.isDirectory loc = true
    · simp [hloc, hdir] at h
    · simp only [hloc, hdir, Option.bind_eq_bind, Option.bind_some] at h
      cases h
      have hdir : fs.isDirectory loc = false := by simpa using hdir
      simp [read?, target?_put_file contents hdir, hloc, entries_put]

end Files

end TokenHighlight
