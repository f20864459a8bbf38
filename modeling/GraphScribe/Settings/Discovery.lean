import GraphScribe.FileTree
import GraphScribe.Settings.File
import GraphScribe.Text.Utf8

/-!
# Finding the settings file

The settings file is the one that is named, or else the one of the standard name in the working
directory, if there is one. No file gives no settings; a file that cannot be read is an error.
-/

namespace GraphScribe

/-- Why there are no settings to be had from a file. -/
inductive DiscoveryError where
  | unreadable (path : Path) (failure : SystemError)
  | invalid (path : Path) (fault : FileSettings.Fault)
deriving DecidableEq, Repr

namespace DiscoveryError

/-- What went wrong. -/
def message : DiscoveryError → String
  | unreadable path _ => s!"Failed to read config file {path.toString}"
  | invalid path _ => s!"Invalid config file {path.toString}"

/-- Why it went wrong. -/
def cause : DiscoveryError → String
  | unreadable _ failure => failure.message
  | invalid _ fault => fault.message

end DiscoveryError

namespace FileSettings

/-- The settings file that is used where none is named. -/
def standardPath : Path := .ofString "graphfmt.toml"

/-- The settings in the file at a path. -/
def load (t : FileTree) (path : Path) : Except DiscoveryError FileSettings :=
  match t.readFile path with
  | .error failure => .error (.unreadable path failure)
  | .ok bytes =>
    match Utf8.decode bytes with
    | .error _ => .error (.unreadable path .invalidText)
    | .ok text => (parse (String.ofList text)).mapError (.invalid path)

/-- No file is named, and there is one of the standard name. -/
def usesStandardFile (t : FileTree) (named : Option Path) : Bool :=
  named.isNone && t.isFile standardPath

/-- The settings in the file that is named or of the standard name. -/
def discover (t : FileTree) (named : Option Path) : Except DiscoveryError FileSettings :=
  match named with
  | some path => load t path
  | none => if t.isFile standardPath then load t standardPath else .ok {}

end FileSettings
end GraphScribe
