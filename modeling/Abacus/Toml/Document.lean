import Abacus.Toml.Scalars

/-!
Documents: arrays, inline tables, and the statements that build up the root table. What has been
written as a value is closed, a table can be declared once, and dotted keys open tables only within
their own section.
-/

namespace Abacus.Toml

/-- A key under a path. A table in the way is made if it is missing; with `intoArrays`, an array in
the way stands for its last item. -/
def under (intoArrays : Bool) (f : Table → Option Table) : Key → Table → Option Table
  | [], t => f t
  | k :: path, t =>
    match t.lookup k with
    | none => (under intoArrays f path []).map fun sub => t ++ [(k, .table sub)]
    | some (.table sub) => (under intoArrays f path sub).map fun sub => put t k (.table sub)
    | some (.array items) =>
      match intoArrays, items.getLast? with
      | true, some (.table sub) =>
        (under intoArrays f path sub).map fun sub =>
          put t k (.array (items.dropLast ++ [.table sub]))
      | _, _ => none
    | some _ => none
where
  put (t : Table) (k : String) (v : Value) : Table :=
    t.map fun entry => if entry.1 == k then (k, v) else entry

/-- A new entry. -/
def insertNew (k : String) (v : Value) (t : Table) : Option Table :=
  if (t.lookup k).isSome then none else some (t ++ [(k, v)])

/-- One more table in an array of tables. -/
def appendTable (k : String) (t : Table) : Option Table :=
  match t.lookup k with
  | none => some (t ++ [(k, .array [.table []])])
  | some (.array items) => some (under.put t k (.array (items ++ [.table []])))
  | some _ => none

def orInvalid {α : Type} : Option α → Except Fault α
  | some a => .ok a
  | none => .error .invalid

def isClosedValue : Value → Bool
  | .table _ => true
  | .array _ => true
  | _ => false

/-- Whether a path leads through one of the closed ones. -/
def passes (closed : List Key) (path : Key) : Bool := closed.any (·.isPrefixOf path)

mutual

/-- A value. The first argument bounds the steps left. -/
def value : Nat → List Char → Except Fault (Value × List Char)
  | 0, _ => .error .invalid
  | fuel + 1, cs =>
    match cs with
    | '[' :: rest => do
      let rest ← skipLines false rest
      let (items, after) ← items fuel rest
      return (.array items, after)
    | '\x7b' :: rest => do
      match skipSpaces rest with
      | '\x7d' :: after => return (.table [], after)
      | rest =>
        let (entries, after) ← entries fuel [] [] rest
        return (.table entries, after)
    | cs => scalar cs

/-- The items of an array up to its end; a comma may follow the last one. -/
def items : Nat → List Char → Except Fault (List Value × List Char)
  | 0, _ => .error .invalid
  | fuel + 1, cs =>
    match cs with
    | ']' :: rest => .ok ([], rest)
    | cs => do
      let (v, rest) ← value fuel cs
      match ← skipLines false rest with
      | ']' :: after => return ([v], after)
      | ',' :: more =>
        let (vs, after) ← items fuel (← skipLines false more)
        return (v :: vs, after)
      | _ => .error .invalid

/-- The entries of an inline table up to its end, after those in `t`. -/
def entries : Nat → List Key → Table → List Char → Except Fault (Table × List Char)
  | 0, _, _, _ => .error .invalid
  | fuel + 1, closed, t, cs => do
    let (path, rest) ← key (cs.length + 1) cs
    match rest with
    | '=' :: rest =>
      let (v, rest) ← value fuel (skipSpaces rest)
      if passes closed path then .error .invalid
      else
        let t ← orInvalid (under false (insertNew (path.getLastD "") v) path.dropLast t)
        match skipSpaces rest with
        | '\x7d' :: after => return (t, after)
        | ',' :: more =>
          entries fuel (if isClosedValue v then path :: closed else closed) t (skipSpaces more)
        | _ => .error .invalid
    | _ => .error .invalid

end

/-- What has been read of a document. `declared` holds the tables that cannot be opened again,
`closed` the values that cannot be added to, and `opened` the tables that dotted keys of this
section opened. -/
structure Progress where
  root : Table
  header : Key
  declared : List Key
  closed : List Key
  opened : List Key

namespace Progress

def start : Progress := ⟨[], [], [], [], []⟩

/-- A new section: the tables that dotted keys opened are declared now. -/
def newSection (p : Progress) : Progress :=
  { p with declared := p.opened ++ p.declared, opened := [] }

/-- The table at a path becomes the place of the keys that follow. -/
def openTable (p : Progress) (path : Key) : Except Fault Progress := do
  if p.declared.contains path || passes p.closed path then throw .invalid
  let root ← orInvalid (under true some path p.root)
  return { p with root := root, header := path, declared := path :: p.declared }

/-- A new item of an array of tables; nothing below the path is declared in it yet. -/
def openItem (p : Progress) (path : Key) : Except Fault Progress := do
  if passes p.closed path then throw .invalid
  let fresh (paths : List Key) := paths.filter fun q => !path.isPrefixOf q
  let root ← orInvalid (under true (appendTable (path.getLastD "")) path.dropLast p.root)
  return { p with
    root := root
    header := path
    declared := path :: fresh p.declared
    closed := fresh p.closed }

/-- The paths of the tables that a dotted key goes through. -/
def through (header path : Key) : List Key :=
  (List.range (path.length - 1)).map fun i => header ++ path.take (i + 1)

def assign (p : Progress) (path : Key) (v : Value) : Except Fault Progress := do
  let ways := through p.header path
  let parent := p.header ++ path.dropLast
  if ways.any p.declared.contains || passes p.closed parent then throw .invalid
  let root ← orInvalid (under true (insertNew (path.getLastD "") v) parent p.root)
  return { p with
    root := root
    opened := ways ++ p.opened
    closed := if isClosedValue v then (p.header ++ path) :: p.closed else p.closed }

end Progress

/-- A key and its value, or the opening of a table. -/
def statement (p : Progress) (cs : List Char) : Except Fault (Progress × List Char) :=
  let bound := 2 * cs.length + 2
  match cs with
  | '[' :: '[' :: rest => do
    let (path, rest) ← key bound (skipSpaces rest)
    let p ← p.newSection.openItem path
    match rest with
    | ']' :: ']' :: after => return (p, after)
    | _ => .error .invalid
  | '[' :: rest => do
    let (path, rest) ← key bound (skipSpaces rest)
    let p ← p.newSection.openTable path
    match rest with
    | ']' :: after => return (p, after)
    | _ => .error .invalid
  | cs => do
    let (path, rest) ← key bound cs
    match rest with
    | '=' :: rest =>
      let (v, after) ← value bound (skipSpaces rest)
      return (← p.assign path v, after)
    | _ => .error .invalid

/-- The statements of a document, one a line. -/
def statements : Nat → Progress → List Char → Except Fault Progress
  | 0, _, _ => .error .invalid
  | fuel + 1, p, cs =>
    match skipSpaces cs with
    | [] => .ok p
    | '\n' :: rest => statements fuel p rest
    | cs => do
      let (p, rest) ← if cs.head? = some '#' then .ok (p, cs) else statement p cs
      match ← skipComment (skipSpaces rest) with
      | [] => return p
      | '\n' :: rest => statements fuel p rest
      | _ => .error .invalid

/-- The root table of a document. -/
def document (text : String) : Except Fault Table := do
  let cs := text.toList
  return (← statements (cs.length + 1) .start cs).root

end Abacus.Toml
