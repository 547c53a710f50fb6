import TokenHighlight.Config.Toml
import TokenHighlight.Files

/-!
# Configuration files

Loading a configuration from a file and saving it there. The user's own configuration has a fixed
place below the directory for such files; loading it never fails, because a missing or broken one
counts as one in which nothing is set.

## Main definitions

* `Config.ofText` — a configuration from what a file holds
* `Config.loadFrom`, `Config.saveTo`
* `Config.userFile`, `Config.load`, `Config.save`
-/

namespace TokenHighlight.Config

/-- The configuration in a file that holds a text, or cannot be read. -/
def ofText : Option String → Except ConfigError Config
  | some text => ofToml text
  | none => .error .io

/-- The user's configuration, from the text in its file. -/
def ofUserText (text : Option String) : Config :=
  match ofText text with
  | .ok c => c
  | .error _ => default

/-- Loads a configuration. -/
def loadFrom (fs : Files) (path : Files.Path) : Except ConfigError Config :=
  ofText (fs.readText? path)

/-- Saves a configuration and makes the directories on the way, which stay even if saving fails. -/
def saveTo (c : Config) (fs : Files) (path : Files.Path) : Except ConfigError Unit × Files :=
  match fs.create path c.toToml.toUTF8 with
  | (true, fs) => (.ok (), fs)
  | (false, fs) => (.error .io, fs)

/-- The user's configuration file, in the directory for configurations. -/
def userFile (directory : String) : String :=
  directory ++ "/ugo/highlight.toml"

/-- Loads the user's configuration. -/
def load (fs : Files) (directory : String) : Config :=
  ofUserText (fs.readText? (.ofString (userFile directory)))

/-- Saves a configuration as the user's. -/
def save (c : Config) (fs : Files) (directory : String) : Except ConfigError Unit × Files :=
  c.saveTo fs (.ofString (userFile directory))

end TokenHighlight.Config
