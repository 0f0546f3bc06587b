import Abacus.Store

/-!
A store as it is used: one request after another, each with its reply. What asks for a row that is
not there is refused and leaves the store as it is.
-/

namespace Abacus.Store

/-- A new row has the usual name and value unless others are given; what a change does not give
stays. -/
inductive Request
  | add (name value : Option String)
  | get (handle : Nat)
  | update (handle : Nat) (name value : Option String)
  | remove (handle : Nat)
  | find (name : String)
  | snapshot
  deriving DecidableEq, Repr

/-- A changed row is returned as it has become, a removed one as it was. -/
inductive Reply
  | row (found : Option Row)
  | refused (handle : Nat)
  | taken (vars : Snapshot)
  deriving DecidableEq, Repr

/-- The variable of a new row. -/
def fresh (name value : Option String) : Variable :=
  ⟨name.getD Variable.defaultName, value.getD Variable.defaultValue⟩

def perform (s : Store) : Request → Store × Reply
  | .add name value =>
    let v := fresh name value
    (s.add v, .row (some ⟨s.next, v⟩))
  | .get handle =>
    match s.get? handle with
    | some r => (s, .row (some r))
    | none => (s, .refused handle)
  | .update handle name value =>
    match s.update? handle name value with
    | some t => (t, .row (t.get? handle))
    | none => (s, .refused handle)
  | .remove handle =>
    match s.remove? handle with
    | some t => (t, .row (s.get? handle))
    | none => (s, .refused handle)
  | .find name => (s, .row (s.find? name))
  | .snapshot => (s, .taken s.snapshot)

/-- The store after all the requests. -/
def run (s : Store) (requests : List Request) : Store :=
  requests.foldl (fun t r => (t.perform r).1) s

/-- The requests that make rows of these variables. -/
def requestsFor (vs : List Variable) : List Request :=
  vs.map fun v => .add (some v.name) (some v.value)

/-- A store of pairs, in their order. -/
def ofPairs (pairs : List (Given × Given)) : Store :=
  ofList (pairs.map fun p => Variable.ofPair p.1 p.2)

end Abacus.Store
