/-!
# Paths

A path is written as names with slashes between them. Here it is kept as it is written, in the parts
between its slashes, since its size counts and since a last part that is no name matters.

## Main definitions

* `Files.Path`, `Files.Path.ofString`
* `Files.Path.isName` — which parts name something
* `Files.Path.isUsable` — which paths are looked up at all
* `Files.Path.parent` — the path without its last name
-/

namespace TokenHighlight

/-- The parts of a path between its slashes. -/
structure Files.Path where
  parts : List String
deriving DecidableEq, Repr

namespace Files.Path

/-- The path that a text writes. -/
def ofString (s : String) : Path :=
  ⟨s.splitOn "/"⟩

/-- How many bytes the path is written with. -/
def size (p : Path) : Nat :=
  ("/".intercalate p.parts).utf8ByteSize

/-- How many bytes a path may be written with. -/
def maxSize : Nat := 4095

/-- How many bytes a name may be written with. -/
def maxNameSize : Nat := 255

/-- Whether a path starts at the root, as it does with a slash in front. -/
def isAbsolute (p : Path) : Bool :=
  match p.parts with
  | first :: _ :: _ => first = ""
  | _ => false

/-- Whether a part leads nowhere: it is empty or a single dot. -/
def staysPut (part : String) : Bool :=
  part = "" || part = "."

/-- Whether a part leads one directory up. -/
def goesUp (part : String) : Bool :=
  part = ".."

/-- Whether a part can name a file or a directory. -/
def isName (part : String) : Bool :=
  !staysPut part && !goesUp part && part.utf8ByteSize ≤ maxNameSize

/-- Whether a path can lead anywhere: it is not too long, and has no zero character in it. -/
def isUsable (p : Path) : Bool :=
  p.size ≤ maxSize && p.parts.all fun part => !part.toList.contains '\x00'

/-- Drops the parts at the end that lead nowhere. -/
def trim (parts : List String) : List String :=
  (parts.reverse.dropWhile staysPut).reverse

/-- The path without its last name, or without the last step up. -/
def parent (p : Path) : Path :=
  ⟨trim (trim p.parts).dropLast⟩

end Files.Path

end TokenHighlight
