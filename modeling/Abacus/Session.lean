import Abacus.Display
import Abacus.Store
import Abacus.Text.ShellWords

/-!
An interactive session. A line is an expression or, after a colon, a command that edits the
variables or a setting. Whatever may change the result shows it again; all else leaves the session
as it was.
-/

namespace Abacus

structure Session where
  store : Store
  expression : String
  implied : Bool
  running : Bool

/-- What a line makes appear: a text, or a table by columns. -/
inductive Session.Shown
  | text (s : String)
  | table (columns : List (List String))
  deriving DecidableEq, Repr

/-- What is wrong with a command. -/
inductive Session.Complaint
  | unreadable (fault : Text.ShellWords.Fault)
  | emptyCommand
  | unknownCommand (name : String)
  | usage (form : String)
  | unknownVariable (name : String)
  deriving DecidableEq, Repr

inductive Session.Command
  | set
  | add
  | rename
  | delete
  | implied
  | vars
  | help
  | quit
  deriving DecidableEq, Repr

namespace Session

def defaultExpression : String := "1 + 1 + a"

def helpText : String := "Type an expression to evaluate it. Commands:
  :set NAME [VALUE]     set a variable's value (adds it if missing)
  :add [NAME [VALUE]]   append a variable (default: unknown = 0)
  :rename OLD NEW       rename a variable
  :del NAME             delete a variable
  :implied [on|off]     set or toggle implied multiplication
  :vars                 list variables
  :help                 show this help
  :quit                 leave"

/-- The bell, the backspace, the vertical tab, the form feed and the return are not shown. -/
def showable (s : String) : String :=
  String.ofList (s.toList.filter fun c =>
    !(c == '\x07' || c == '\x08' || c == '\x0b' || c == '\x0c' || c == '\x0d'))

def say (s : String) : Shown := .text (showable s)

def Complaint.message : Complaint → String
  | .unreadable fault => "Cannot read command: " ++ fault.message
  | .emptyCommand => "Empty command. Type :help for a list."
  | .unknownCommand name => "Unknown command ':" ++ name ++ "'. Type :help for a list."
  | .usage form => "Usage: " ++ form
  | .unknownVariable name => "No variable named " ++ Text.quoted name

def Command.ofName? : String → Option Command
  | "set" => some .set
  | "add" => some .add
  | "rename" => some .rename
  | "del" => some .delete
  | "implied" => some .implied
  | "vars" => some .vars
  | "help" => some .help
  | "quit" => some .quit
  | "q" => some .quit
  | _ => none

def Command.form : Command → String
  | .set => ":set NAME [VALUE]"
  | .add => ":add [NAME [VALUE]]"
  | .rename => ":rename OLD NEW"
  | .delete => ":del NAME"
  | .implied => ":implied [on|off]"
  | .vars => ":vars"
  | .help => ":help"
  | .quit => ":quit"

variable (lib : Library) (s : Session)

/-- The line with the result. -/
def resultLine : Shown :=
  .text ("= " ++ lib.answer s.implied s.expression s.store.snapshot)

/-- The result and, for a failure, where it is. -/
def result : List Shown :=
  match lib.calculate s.implied s.expression s.store.snapshot with
  | .failure f => [s.resultLine lib, say (f.describeIn s.expression)]
  | _ => [s.resultLine lib]

def table : Shown :=
  let vs := s.store.toList
  .table
    [ "#" :: (List.range vs.length).map fun i => toString (i + 1),
      "Name" :: vs.map (·.name),
      "Value" :: vs.map (·.value),
      "Numeric" :: vs.map fun v => if v.number?.isSome then "yes" else "no" ]

/-- What a command comes to: a new session whose result is shown after `before`, something shown
with nothing changed, the end, or a complaint. -/
inductive Effect
  | change (session : Session) (before : List Shown)
  | inform (shown : Shown)
  | leave
  | refuse (complaint : Complaint)

def withStore (store : Store) : Session := { s with store := store }

def switch (on : Bool) : Effect :=
  .change { s with implied := on }
    [.text ("implied multiplication " ++ (if on then "on" else "off"))]

def onWords : List String := ["on", "true", "yes", "1"]

def offWords : List String := ["off", "false", "no", "0"]

/-- The command on its arguments. -/
def effect (command : Command) (args : List String) : Effect :=
  match command, args with
  | .set, [name] => .change (s.withStore (s.store.assign name "")) []
  | .set, [name, value] => .change (s.withStore (s.store.assign name value)) []
  | .add, [] => .change (s.withStore (s.store.add ⟨Variable.defaultName, Variable.defaultValue⟩)) []
  | .add, [name] => .change (s.withStore (s.store.add ⟨name, Variable.defaultValue⟩)) []
  | .add, [name, value] => .change (s.withStore (s.store.add ⟨name, value⟩)) []
  | .rename, [old, new] =>
    match s.store.find? old with
    | some r => .change (s.withStore (s.store.setName r.handle new)) []
    | none => .refuse (.unknownVariable old)
  | .delete, [name] =>
    match s.store.find? name with
    | some r => .change (s.withStore (s.store.erase r.handle)) []
    | none => .refuse (.unknownVariable name)
  | .implied, [] => s.switch !s.implied
  | .implied, word :: _ =>
    if onWords.contains (Text.lower word) then s.switch true
    else if offWords.contains (Text.lower word) then s.switch false
    else .refuse (.usage Command.implied.form)
  | .vars, _ => .inform s.table
  | .help, _ => .inform (.text helpText)
  | .quit, _ => .leave
  | command, _ => .refuse (.usage command.form)

/-- The effect of what follows the colon. -/
def commandEffect (text : String) : Effect :=
  match Text.shellWords text with
  | .error fault => .refuse (.unreadable fault)
  | .ok [] => .refuse .emptyCommand
  | .ok (word :: args) =>
    match Command.ofName? (Text.lower word) with
    | none => .refuse (.unknownCommand (Text.lower word))
    | some command => s.effect command args

/-- The effect of a line; a blank one only shows the result again. -/
def lineEffect (line : String) : Effect :=
  match Text.trim line.toList with
  | ':' :: rest => s.commandEffect (String.ofList rest)
  | [] => .change s []
  | cs => .change { s with expression := String.ofList cs } []

def apply : Effect → Session × List Shown
  | .change t before => (t, before ++ t.result lib)
  | .inform shown => (s, [shown])
  | .leave => ({ s with running := false }, [])
  | .refuse complaint => (s, [say complaint.message])

def handle (line : String) : Session × List Shown := s.apply lib (s.lineEffect line)

end Session

end Abacus
