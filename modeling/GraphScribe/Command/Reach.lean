import GraphScribe.Command

/-!
# What a command looks at

The paths that a command may look at, as far as they can be told from the files that are known
already. Whoever shows a command only part of a file system shows it these, and asks again until
there are no new ones.
-/

namespace GraphScribe

/-- Paths that a command looks at: single ones, and directories with everything in them. -/
structure Reach where
  paths : List Path := []
  directories : List Path := []
deriving DecidableEq, Repr

namespace Reach

/-- The directory that is searched for the files that a pattern stands for. -/
def searched (pattern : String) : Path :=
  match Inputs.literalSteps (.ofString pattern) with
  | [] => .ofString "."
  | steps => .ofComponents steps

/-- What is written for some inputs, and what was there before. -/
def ofOutputs (s : Settings) (inputs : List Path) : List Path :=
  let outputDir := Path.ofString s.outputDir
  outputDir :: inputs.map (outputPath · outputDir s.extension)

/-- What a convert command looks at. -/
def ofConvert (env : Environment) (config : Option Path) (given : List Path)
    (pattern? : Option String) (flags : Flags) : Reach :=
  let settingsPath := config.getD FileSettings.standardPath
  let inputs := match Inputs.resolve env.files given pattern? with
    | .ok inputs => inputs.paths
    | .error _ => []
  let outputs := match FileSettings.discover env.files config with
    | .ok file => ofOutputs (.resolve env.parallelism file flags) inputs
    | .error _ => []
  let named := if given.isEmpty then (pattern?.map Path.ofString).toList else given
  { paths := settingsPath :: named ++ inputs ++ outputs
    directories := if given.isEmpty then (pattern?.map searched).toList else [] }

/-- What the words of a command line make the program look at. -/
def ofWords (env : Environment) (words : List String) : Reach :=
  match Invocation.read words with
  | .ok { request := .convert given pattern? flags, config, .. } =>
    ofConvert env config given pattern? flags
  | _ => {}

end Reach
end GraphScribe
