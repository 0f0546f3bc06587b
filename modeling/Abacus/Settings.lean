import Abacus.Environment
import Abacus.Manifest

/-!
What a command starts from: the manifest, changed by assignments, and the rule for neighbours, which
the command decides before the environment, the environment before the manifest.
-/

namespace Abacus

structure Assignment where
  name : String
  value : String
  deriving DecidableEq, Repr

/-- A text that is no assignment. -/
structure Assignment.Error where
  text : String
  deriving DecidableEq, Repr

namespace Assignment

def Error.message (e : Error) : String := "Expected NAME=VALUE, got " ++ Text.quoted e.text

/-- The name before the first equals sign, without blanks around it, and the value after it. -/
def parse (text : String) : Except Error Assignment :=
  let cs := text.toList
  let name := Text.trim (cs.takeWhile (· != '='))
  match cs.dropWhile (· != '=') with
  | [] => .error ⟨text⟩
  | _ :: value =>
    if name.isEmpty then .error ⟨text⟩ else .ok ⟨String.ofList name, String.ofList value⟩

/-- Each assignment in turn. -/
def applyAll (store : Store) : List String → Except Error Store
  | [] => .ok store
  | text :: rest =>
    match parse text with
    | .error e => .error e
    | .ok a => applyAll (store.assign a.name a.value) rest

end Assignment

structure Settings where
  store : Store
  implied : Bool
  manifest : Option String

namespace Settings

inductive Error
  | manifest (error : Manifest.Error)
  | assignment (error : Assignment.Error)
  deriving DecidableEq, Repr

def Error.message : Error → String
  | .manifest e => e.message
  | .assignment e => e.message

/-- The manifest of the working directory, if there is one. -/
def findManifest (files : String → File) : Option String :=
  match files Manifest.fileName with
  | .bytes _ | .refused _ => some Manifest.fileName
  | .missing | .directory => none

def manifestAt (files : String → File) : Option String → Except Error Manifest
  | none => .ok .empty
  | some path =>
    match Manifest.load path (files path) with
    | .error e => .error (.manifest e)
    | .ok m => .ok m

def resolve (files : String → File) (env : Environment) (manifest : Option String)
    (implied : Option Bool) (assignments : List String) : Except Error Settings :=
  let path := manifest <|> findManifest files
  match manifestAt files path with
  | .error e => .error e
  | .ok m =>
    match Assignment.applyAll m.store assignments with
    | .error e => .error (.assignment e)
    | .ok store => .ok ⟨store, (implied <|> env.implied.1).getD m.implied, path⟩

end Settings

end Abacus
