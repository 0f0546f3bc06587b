import Abacus.CommandLine
import Abacus.Elementary.Standard

/-!
The command line program.
-/

open Abacus

/-- What stands for a file that could not be read. A directory fails with the same kind of error as
a path through a file, and the code tells them apart. -/
def unread : IO.Error → File
  | .noFileOrDirectory .. => .missing
  | .inappropriateType _ code _ => if code = 21 then .directory else .refused "Not a directory"
  | .permissionDenied _ _ reason => .refused reason
  | e => .refused (toString e)

/-- The files that a command may read. -/
def filesFor (args : List String) : IO (String → File) := do
  let explicit :=
    match CommandLine.parse args with
    | .ok (_, o) => o.manifest.toList
    | .error _ => []
  let mut found : List (String × File) := []
  for path in Manifest.fileName :: explicit do
    match ← (IO.FS.readBinFile path).toBaseIO with
    | .ok content => found := (path, .bytes content) :: found
    | .error e => found := (path, unread e) :: found
  return fun path => (found.lookup path).getD .missing

def environment : IO Environment := do
  let mut env : Environment := []
  for name in [Environment.levelVariable, Environment.impliedVariable] do
    if let some value ← IO.getEnv name then env := (name, value) :: env
  return env

/-- Prompts for lines until the session or the input ends. -/
partial def converse (lib : Library) (s : Session) : IO Unit := do
  let stdout ← IO.getStdout
  stdout.putStr CommandLine.prompt
  stdout.flush
  let line ← (← IO.getStdin).getLine
  if line.isEmpty then stdout.putStr "\n"
  else
    let (t, shown) := s.handle lib line
    stdout.putStr (CommandLine.renderAll shown)
    if t.running then converse lib t

def main (args : List String) : IO UInt32 := do
  let lib := Library.builtin Elementary.standard
  match CommandLine.start lib (← filesFor args) (← environment) args with
  | .done result =>
    (← IO.getStdout).putStr result.stdout
    return result.exit.toUInt32
  | .session s =>
    (← IO.getStdout).putStr (CommandLine.opening lib s)
    converse lib s
    return 0
