import Abacus.Session
import Abacus.Settings
import Abacus.Text.Fold

/-!
The commands `eval` and `repl`. Options may stand anywhere among the operands, and two dashes by
themselves end them. The exit code tells a value from a failure, and both from a report of missing
names; wrong usage has the code of the last.
-/

namespace Abacus.CommandLine

def version : String := "0.3.0"

inductive Command
  | eval
  | repl
  deriving DecidableEq, Repr

inductive Switch
  | var
  | expression
  | manifest
  | implied (on : Bool)
  | verbose
  | help
  deriving DecidableEq, Repr

def Command.ofName? : String → Option Command
  | "eval" => some .eval
  | "repl" => some .repl
  | _ => none

def Command.long? (command : Command) (name : String) : Option Switch :=
  match name with
  | "--var" => if command = .eval then some .var else none
  | "--expression" => if command = .repl then some .expression else none
  | "--manifest" => some .manifest
  | "--implied" => some (.implied true)
  | "--no-implied" => some (.implied false)
  | "--verbose" => some .verbose
  | "--help" => some .help
  | _ => none

def Command.short? (command : Command) (letter : Char) : Option Switch :=
  match letter with
  | 'e' => if command = .repl then some .expression else none
  | 'm' => some .manifest
  | _ => none

def Switch.takesValue : Switch → Bool
  | .var => true
  | .expression => true
  | .manifest => true
  | _ => false

/-- What the arguments of a command set; of an option given twice the last counts. -/
structure Options where
  operands : List String
  assignments : List String
  expression : Option String
  manifest : Option String
  implied : Option Bool
  verbose : Bool
  help : Bool
  deriving DecidableEq, Repr

namespace Options

def initial : Options := ⟨[], [], none, none, none, false, false⟩

def withOperands (o : Options) (operands : List String) : Options :=
  { o with operands := o.operands ++ operands }

def set (o : Options) (switch : Switch) (value : String) : Options :=
  match switch with
  | .var => { o with assignments := o.assignments ++ [value] }
  | .expression => { o with expression := some value }
  | .manifest => { o with manifest := some value }
  | .implied on => { o with implied := some on }
  | .verbose => { o with verbose := true }
  | .help => { o with help := true }

end Options

/-- What one argument is. A short option may have its value right behind its letter. -/
inductive Argument
  | operand
  | flag (switch : Switch)
  | option (switch : Switch)
  | setting (switch : Switch) (value : String)
  | unknown
  deriving DecidableEq, Repr

/-- A long option, with its value after an equals sign if there is one. -/
def Command.longArgument? (command : Command) (cs : List Char) : Option Argument :=
  let name := String.ofList (cs.takeWhile (· != '='))
  (command.long? name).map fun switch =>
    match cs.dropWhile (· != '='), switch.takesValue with
    | [], true => .option switch
    | [], false => .flag switch
    | _ :: value, true => .setting switch (String.ofList value)
    | _ :: _, false => .unknown

def Command.argument (command : Command) (arg : String) : Argument :=
  match arg.toList with
  | '-' :: letter :: rest =>
    match command.longArgument? ('-' :: letter :: rest) with
    | some a => a
    | none =>
      match command.short? letter with
      | none => .unknown
      | some switch =>
        match rest with
        | [] => .option switch
        | value => .setting switch (String.ofList value)
  | _ => .operand

inductive UsageError
  | unknownOption (arg : String)
  | missingValue (arg : String)
  | unknownCommand (name : String)
  | noCommand
  | wrongOperands
  deriving DecidableEq, Repr

/-- The options and operands of a command. -/
def Command.options (command : Command) (o : Options) : List String → Except UsageError Options
  | [] => .ok o
  | arg :: rest =>
    if arg = "--" then .ok (o.withOperands rest)
    else
      match command.argument arg with
      | .operand => command.options (o.withOperands [arg]) rest
      | .flag switch => command.options (o.set switch "") rest
      | .setting switch value => command.options (o.set switch value) rest
      | .unknown => .error (.unknownOption arg)
      | .option switch =>
        match rest with
        | [] => .error (.missingValue arg)
        | value :: more => command.options (o.set switch value) more

/-- The command and its options. -/
def parse : List String → Except UsageError (Command × Options)
  | [] => .error .noCommand
  | "--" :: [] => .error .noCommand
  | "--" :: name :: rest => withName name rest
  | name :: rest =>
    if name.startsWith "-" && name != "-" then .error (.unknownOption name) else withName name rest
where
  withName (name : String) (rest : List String) : Except UsageError (Command × Options) :=
    match Command.ofName? name with
    | none => .error (.unknownCommand name)
    | some command => (command.options .initial rest).map (command, ·)

structure Result where
  exit : Nat
  stdout : String
  deriving DecidableEq, Repr

def exitCode : Outcome → Nat
  | .value _ => 0
  | .failure _ => 1
  | .unresolved _ => 2

def usageCode : Nat := 2

/-- A manifest that cannot be used ends a command, an assignment that is none is wrong usage. -/
def settingsCode : Settings.Error → Nat
  | .manifest _ => 1
  | .assignment _ => usageCode

/-- The columns that the lines of a session are laid out for. -/
def columns : Nat := 200

def greeting : String := "livecalc - :help for commands, :quit to leave"

def prompt : String := "livecalc> "

def render (shown : Session.Shown) : String :=
  match shown with
  | .text s => Text.foldText columns s ++ "\n"
  | .table columns =>
    let rows := (columns.head?.getD []).length
    let row (i : Nat) := "  ".intercalate (columns.map fun column => column.getD i "") ++ "\n"
    String.join ((List.range rows).map row)

def renderAll (shown : List Session.Shown) : String := String.join (shown.map render)

/-- How a command begins: it is done at once, or it opens a session. -/
inductive Start
  | done (result : Result)
  | session (session : Session)

variable (lib : Library)

def evalWith (source : String) (settings : Settings) : Result :=
  let outcome := lib.calculate settings.implied source settings.store.snapshot
  ⟨exitCode outcome, outcome.display ++ "\n"⟩

/-- A session without a manifest and without variables has one to play with. -/
def sessionWith (expression : Option String) (settings : Settings) : Session :=
  let store :=
    if settings.manifest.isNone && settings.store.size == 0 then settings.store.add ⟨"a", "200"⟩
    else settings.store
  ⟨store, expression.getD Session.defaultExpression, settings.implied, true⟩

def start (files : String → File) (env : Environment) (args : List String) : Start :=
  match parse args with
  | .error _ => .done ⟨usageCode, ""⟩
  | .ok (command, o) =>
    if o.help then .done ⟨0, ""⟩
    else
      match command, o.operands with
      | .eval, [source] =>
        match Settings.resolve files env o.manifest o.implied o.assignments with
        | .error e => .done ⟨settingsCode e, ""⟩
        | .ok settings => .done (evalWith lib source settings)
      | .repl, [] =>
        match Settings.resolve files env o.manifest o.implied [] with
        | .error e => .done ⟨settingsCode e, ""⟩
        | .ok settings => .session (sessionWith o.expression settings)
      | _, _ => .done ⟨usageCode, ""⟩

/-- What a session shows first. -/
def opening (s : Session) : String :=
  Text.foldText columns greeting ++ "\n" ++ renderAll (s.result lib)

/-- What a session shows for its lines, up to the one that ends it or to the end of the input. -/
def transcript (s : Session) : List String → String
  | [] => prompt ++ "\n"
  | line :: rest =>
    let (t, shown) := s.handle lib line
    prompt ++ renderAll shown ++ (if t.running then transcript t rest else "")

/-- A command with all its input. -/
def run (files : String → File) (env : Environment) (args : List String) (stdin : String) :
    Result :=
  match start lib files env args with
  | .done result => result
  | .session s => ⟨0, opening lib s ++ transcript lib s (Text.lines stdin)⟩

end Abacus.CommandLine
