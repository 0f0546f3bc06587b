import Abacus.Decimal.Shortest
import Abacus.Store
import Abacus.Text.Blank
import Abacus.Text.Lines
import Abacus.Toml.Document

/-!
The manifest: a TOML file with the variables that a session starts from and its rule for neighbours.
Unknown keys make no difference; of several faults the first is reported, that of the evaluator
table before those of the variables.
-/

namespace Abacus

structure Manifest where
  implied : Bool
  entries : List Variable
  deriving DecidableEq, Repr

/-- What is found at a path. -/
inductive File
  | missing
  | directory
  /-- A file that cannot be read, and why. -/
  | refused (reason : String)
  | bytes (content : ByteArray)

namespace Manifest

inductive Fault
  | noFile
  | isDirectory
  | unreadable (reason : String)
  | invalidToml
  | evaluatorNotTable
  | impliedNotBoolean
  | variablesNotArray
  | notTable (index : Nat)
  | noName (index : Nat)
  | badValue (index : Nat)
  deriving DecidableEq, Repr

/-- Why there is no manifest: a fault in the file at a path, bytes that are not UTF-8, or an integer
with too many digits to be read or written. -/
inductive Error
  | fault (path : String) (fault : Fault)
  | notUtf8
  | tooManyDigits (count : Option Nat)
  deriving DecidableEq, Repr

def item (index : Nat) : String := "variables[" ++ toString index ++ "]"

def Fault.message : Fault → String
  | .noFile => "Cannot read manifest: No such file or directory"
  | .isDirectory => "Cannot read manifest: Is a directory"
  | .unreadable reason => "Cannot read manifest: " ++ reason
  | .invalidToml => "Invalid TOML"
  | .evaluatorNotTable => "[evaluator] must be a table"
  | .impliedNotBoolean => "evaluator.implied_multiplication must be true or false"
  | .variablesNotArray => "'variables' must be an array of tables ([[variables]])"
  | .notTable i => item i ++ " must be a table"
  | .noName i => item i ++ " needs a non-empty 'name'"
  | .badValue i => item i ++ ".value must be a string or number"

def Error.message : Error → String
  | .fault path f => path ++ ": " ++ f.message
  | .notUtf8 => "not UTF-8"
  | .tooManyDigits count =>
    "Exceeds the limit (" ++ toString Toml.digitLimit ++ " digits) for integer string conversion"
      ++ (match count with
        | some n => ": value has " ++ toString n ++ " digits"
        | none => "")
      ++ "; use sys.set_int_max_str_digits() to increase the limit"

def fileName : String := "livecalc.toml"

/-- The files seen from a working directory that holds at most a manifest. Points and doubled
slashes in a path do not count. -/
def inDirectory (content : File) (path : String) : File :=
  let parts := (path.splitOn "/").filter fun part => part != "" && part != "."
  if path.startsWith "/" then .missing
  else if parts.isEmpty then .directory
  else if parts = [fileName] then content
  else .missing

def empty : Manifest := ⟨false, []⟩

/-- What a document can be refused for. -/
inductive Refusal
  | fault (fault : Fault)
  | tooManyDigits
  deriving DecidableEq, Repr

/-- The decimal digits of an integer. -/
def integerText (i : Int) : Except Refusal String :=
  let ds := decimalDigits i.natAbs
  if Toml.digitLimit < ds.length then .error .tooManyDigits
  else .ok (String.ofList (Double.signChars (i < 0) ds))

/-- The text of a value: strings as they are, numbers as they are written. -/
def valueText (index : Nat) : Option Toml.Value → Except Refusal String
  | none => .ok Variable.defaultValue
  | some (.string s) => .ok s
  | some (.integer i) => integerText i
  | some (.float x) => .ok x.text
  | some _ => .error (.fault (.badValue index))

def isBlankText (s : String) : Bool := s.toList.all Text.isBlank

def variableOf (index : Nat) : Toml.Value → Except Refusal Variable
  | .table t =>
    match t.lookup "name" with
    | some (.string name) =>
      if isBlankText name then .error (.fault (.noName index))
      else (valueText index (t.lookup "value")).map (⟨name, ·⟩)
    | _ => .error (.fault (.noName index))
  | _ => .error (.fault (.notTable index))

/-- The variables of the items, the first of which has the number `index`. -/
def variablesOf (index : Nat) : List Toml.Value → Except Refusal (List Variable)
  | [] => .ok []
  | v :: rest =>
    match variableOf index v with
    | .error e => .error e
    | .ok x => (variablesOf (index + 1) rest).map (x :: ·)

def impliedOf (root : Toml.Table) : Except Refusal Bool :=
  match root.lookup "evaluator" with
  | none => .ok false
  | some (.table t) =>
    match t.lookup "implied_multiplication" with
    | none => .ok false
    | some (.boolean b) => .ok b
    | some _ => .error (.fault .impliedNotBoolean)
  | some _ => .error (.fault .evaluatorNotTable)

def variablesIn (root : Toml.Table) : Except Refusal (List Variable) :=
  match root.lookup "variables" with
  | none => .ok []
  | some (.array items) => variablesOf 0 items
  | some _ => .error (.fault .variablesNotArray)

/-- The manifest that a document is. -/
def ofDocument (root : Toml.Table) : Except Refusal Manifest :=
  match impliedOf root with
  | .error e => .error e
  | .ok implied => (variablesIn root).map (⟨implied, ·⟩)

def ofText (path text : String) : Except Error Manifest :=
  match Toml.document (Text.unified text) with
  | .error .invalid => .error (.fault path .invalidToml)
  | .error (.tooManyDigits n) => .error (.tooManyDigits (some n))
  | .ok root =>
    match ofDocument root with
    | .ok m => .ok m
    | .error (.fault f) => .error (.fault path f)
    | .error .tooManyDigits => .error (.tooManyDigits none)

/-- The manifest in a file. -/
def load (path : String) : File → Except Error Manifest
  | .missing => .error (.fault path .noFile)
  | .directory => .error (.fault path .isDirectory)
  | .refused reason => .error (.fault path (.unreadable reason))
  | .bytes content =>
    match String.fromUTF8? content with
    | none => .error .notUtf8
    | some text => ofText path text

def store (m : Manifest) : Store := .ofList m.entries

end Manifest

end Abacus
