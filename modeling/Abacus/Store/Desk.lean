import Abacus.Store.Requests

/-!
A store and the snapshots taken of it, with the memory that they share. A row is an object that is
never changed once it is made, and a list says where its rows are. The list of the store is changed
in place, a changed row being a new object; a snapshot has a list of its own to the same objects.
-/

namespace Abacus

/-- `rows` and `lists` are all that was ever made, by place. -/
structure Desk where
  rows : List Row
  lists : List (List Nat)
  store : Nat
  next : Nat
  snapshots : List Nat

namespace Desk

open Store (Request Reply fresh requestsFor)

def empty : Desk := ⟨[], [[]], 0, 0, []⟩

variable (d : Desk)

/-- The places that a list has. -/
def places (list : Nat) : List Nat := d.lists[list]?.getD []

/-- The rows that a list shows. -/
def shown (list : Nat) : List Row := (d.places list).filterMap (d.rows[·]?)

/-- The first row of the store with a handle, and where in the list it stands. -/
def locate? (handle : Nat) : Option (Nat × Row) := do
  let i ← (d.places d.store).findIdx? fun p => d.rows[p]?.any (·.handle == handle)
  let p ← (d.places d.store)[i]?
  let r ← d.rows[p]?
  return (i, r)

/-- The list of the store has become `list`. -/
def relist (list : List Nat) : Desk := { d with lists := d.lists.set d.store list }

/-- A new object, which lies behind all others. -/
def make (r : Row) : Desk := { d with rows := d.rows ++ [r] }

def perform : Request → Desk × Reply
  | .add name value =>
    let r : Row := ⟨d.next, fresh name value⟩
    ({ (d.make r).relist (d.places d.store ++ [d.rows.length]) with next := d.next + 1 },
      .row (some r))
  | .get handle =>
    match d.locate? handle with
    | some (_, r) => (d, .row (some r))
    | none => (d, .refused handle)
  | .update handle name value =>
    match d.locate? handle with
    | some (i, r) =>
      let changed : Row := ⟨r.handle, name.getD r.entry.name, value.getD r.entry.value⟩
      ((d.make changed).relist ((d.places d.store).set i d.rows.length), .row (some changed))
    | none => (d, .refused handle)
  | .remove handle =>
    match d.locate? handle with
    | some (i, r) => (d.relist ((d.places d.store).eraseIdx i), .row (some r))
    | none => (d, .refused handle)
  | .find name => (d, .row ((d.shown d.store).find? (·.entry.answersTo name)))
  | .snapshot =>
    ({ d with
        lists := d.lists ++ [d.places d.store]
        snapshots := d.snapshots ++ [d.lists.length] },
      .taken ⟨(d.shown d.store).map (·.entry)⟩)

def run (requests : List Request) : Desk := requests.foldl (fun t r => (t.perform r).1) d

def ofPairs (pairs : List (Given × Given)) : Desk :=
  empty.run (requestsFor (pairs.map fun p => Variable.ofPair p.1 p.2))

/-- The rows that the snapshot number `k` shows now. -/
def rowsOf (k : Nat) : List Row := (d.snapshots[k]?.map d.shown).getD []

def snapshot (k : Nat) : Snapshot := ⟨(d.rowsOf k).map (·.entry)⟩

end Desk

end Abacus
