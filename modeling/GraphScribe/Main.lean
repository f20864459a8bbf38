import GraphScribe.Command.Reach

/-!
# The program

Shows a command the files that it may look at, lets it work on them as a value, and then writes what
has changed.
-/

namespace GraphScribe.Program

/-- The number of jobs where nobody asks for another. -/
def parallelism : Nat := 8

/-- The environment variable that holds the log filter. -/
def logVariable : String := "GRAPHFMT_LOG"

/-- The path of a location. -/
def pathOf (l : Location) : Path :=
  l.reverse.foldl (fun p name => p.join ⟨name.val⟩) ⟨['/']⟩

/-- Adds what a path names, without what is in a directory. -/
def addPath (t : FileTree) (path : Path) : IO FileTree := do
  let place := (← IO.currentDir) / path.toString
  if ← place.isDir then return (t.createDirectories path).2
  else if ← place.pathExists then
    let bytes ← IO.FS.readBinFile place
    return (t.addFile path bytes.toList).toOption.getD t
  else return t

/-- Adds a directory and the names of all that is in it, at any depth. -/
partial def addDirectory (t : FileTree) (path : Path) : IO FileTree := do
  let place := (← IO.currentDir) / path.toString
  if !(← place.isDir) then return t
  let mut tree := (t.createDirectories path).2
  for found in ← place.readDir do
    let inner := path.join (.ofString found.fileName)
    if ← found.path.isDir then tree ← addDirectory tree inner
    else if !tree.isFile inner then
      tree := (tree.addFile inner []).toOption.getD tree
  return tree

/-- Adds everything that a command may look at. What it looks at depends on its settings and on the
files that a pattern stands for, so it is asked three times. -/
def addAll (env : Environment) (words : List String) : IO Environment := do
  let mut env := env
  for _ in [0, 1, 2] do
    let reach := Reach.ofWords env words
    let mut files := env.files
    for path in reach.directories do files ← addDirectory files path
    for path in reach.paths do files ← addPath files path
    env := { env with files }
  return env

/-- Writes what has changed; directories come before what is in them. -/
def writeChanges (before after : FileTree) : IO Unit := do
  for (l, e) in after.entries.reverse do
    if before.get? l != some e then
      let place := (← IO.currentDir) / (pathOf l).toString
      match e with
      | .directory => IO.FS.createDirAll place
      | .file content => IO.FS.writeBinFile place ⟨content.toArray⟩

/-- The surroundings of a command, with an empty working directory. -/
def surroundings : IO Environment := do
  let home := Path.ofString (← IO.currentDir).toString
  let files := (FileTree.empty.createDirectories home).2
  return {
    files := (files.enter home).toOption.getD files
    logFilter := ← IO.getEnv logVariable
    parallelism
    listen := fun _ => .error .unsupported }

/-- Runs the command of a command line, and gives its exit code. -/
def run (words : List String) : IO UInt32 := do
  let env ← addAll (← surroundings) words
  let outcome := Command.execute env words
  writeChanges env.files outcome.files
  IO.print outcome.output
  IO.eprint outcome.errors
  return outcome.exitCode.toUInt32

end GraphScribe.Program

/-- The program. -/
def main (words : List String) : IO UInt32 :=
  GraphScribe.Program.run words
