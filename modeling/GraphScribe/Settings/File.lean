import GraphScribe.Decode.Kind
import GraphScribe.Settings.Address
import GraphScribe.Settings.Toml

/-!
# Settings files

The settings that a file may give. Every one may be left out, none may be given twice, and nothing
else may stand in the file.
-/

namespace GraphScribe

/-- The settings of a file. -/
structure FileSettings where
  format : Option String := none
  outputDir : Option String := none
  extension : Option String := none
  decoder : Option DecoderKind := none
  jobs : Option Nat := none
  diagnostics : Option SocketAddress := none
deriving DecidableEq, Repr

namespace FileSettings

/-- Why a text gives no settings. -/
inductive Fault where
  | malformed
  | unknownKey (key : String)
  | invalidValue (key : String)
deriving DecidableEq, Repr

/-- The text of a fault. -/
def Fault.message : Fault → String
  | malformed => "the text is not well formed"
  | unknownKey key => s!"there is no setting {Text.quoted key}"
  | invalidValue key => s!"the setting {Text.quoted key} cannot have this value"

open Toml in
/-- The value is an array or a table without content. -/
def isEmpty : Item → Bool
  | .value (.array []) => true
  | .value (.table []) => true
  | .table _ [] => true
  | _ => false

open Toml in
/-- A text. -/
def textOf? : Item → Option String
  | .value (.string text) => some (String.ofList text)
  | _ => none

open Toml in
/-- A count. -/
def countOf? : Item → Option Nat
  | .value (.integer (.ofNat n)) => some n
  | _ => none

open Toml in
/-- A decoder: its name, or a table whose only key is its name and holds nothing. -/
def decoderOf? (item : Item) : Option DecoderKind :=
  let named (name : Key) := DecoderKind.ofName? (String.ofList name)
  match item with
  | .value (.string name) => named name
  | .value (.table [([name], value)]) => if isEmpty (.value value) then named name else none
  | .table _ [(name, inner)] => if isEmpty inner then named name else none
  | _ => none

open Toml in
/-- An address. -/
def addressOf? : Item → Option SocketAddress
  | .value (.string text) => SocketAddress.read text
  | _ => none

open Toml in
/-- Notes what a key is set to. -/
def set (s : FileSettings) (key : String) (item : Item) : Except Fault FileSettings :=
  let noted (settings : Option FileSettings) : Except Fault FileSettings :=
    match settings with
    | some settings => .ok settings
    | none => .error (.invalidValue key)
  match key with
  | "format" => noted ((textOf? item).map fun text => { s with format := some text })
  | "output_dir" => noted ((textOf? item).map fun text => { s with outputDir := some text })
  | "extension" => noted ((textOf? item).map fun text => { s with extension := some text })
  | "decoder" => noted ((decoderOf? item).map fun kind => { s with decoder := some kind })
  | "jobs" => noted ((countOf? item).map fun count => { s with jobs := some count })
  | "diagnostics" =>
    noted ((addressOf? item).map fun address => { s with diagnostics := some address })
  | key => .error (.unknownKey key)

/-- The settings in a text. -/
def parse (text : String) : Except Fault FileSettings :=
  match Toml.read text.toList with
  | none => .error .malformed
  | some entries => entries.foldlM (fun s (key, item) => s.set (String.ofList key) item) {}

end FileSettings
end GraphScribe
