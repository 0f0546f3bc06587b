import Abacus.Text.Quoted
import Abacus.Variables

/-!
An editable list of variables. A row keeps its handle for good, handles are given in increasing
order, and rows stay in the order in which they were added.
-/

namespace Abacus

structure Row where
  handle : Nat
  entry : Variable
  deriving DecidableEq, Repr

/-- `next` is the handle of the next row. -/
structure Store where
  rows : List Row
  next : Nat
  sorted : (rows.map (·.handle)).Pairwise (· < ·)
  below : ∀ h ∈ rows.map (·.handle), h < next

namespace Store

def empty : Store := ⟨[], 0, .nil, by simp⟩

def add (s : Store) (v : Variable) : Store where
  rows := s.rows ++ [⟨s.next, v⟩]
  next := s.next + 1
  sorted := by
    simp only [List.map_append, List.map_cons, List.map_nil, List.pairwise_append]
    exact ⟨s.sorted, List.pairwise_singleton _ _, fun h hh k hk => by
      simp only [List.mem_singleton] at hk
      exact hk ▸ s.below h hh⟩
  below := by
    simp only [List.map_append, List.map_cons, List.map_nil, List.mem_append,
      List.mem_singleton]
    rintro h (hh | rfl)
    · exact Nat.lt_succ_of_lt (s.below h hh)
    · exact Nat.lt_succ_self _

def ofList (vs : List Variable) : Store := vs.foldl add empty

def toList (s : Store) : List Variable := s.rows.map (·.entry)

def snapshot (s : Store) : Snapshot := ⟨s.toList⟩

def size (s : Store) : Nat := s.rows.length

def get? (s : Store) (handle : Nat) : Option Row := s.rows.find? (·.handle == handle)

/-- The first row that answers to a name. -/
def find? (s : Store) (name : String) : Option Row := s.rows.find? (·.entry.answersTo name)

/-- Applies `f` to the variable of one row. -/
def modify (s : Store) (handle : Nat) (f : Variable → Variable) : Store :=
  let edit (r : Row) : Row := if r.handle = handle then { r with entry := f r.entry } else r
  have same : (s.rows.map edit).map (·.handle) = s.rows.map (·.handle) := by
    rw [List.map_map]
    refine List.map_congr_left fun r _ => ?_
    simp only [Function.comp, edit]
    split <;> rfl
  { rows := s.rows.map edit
    next := s.next
    sorted := same ▸ s.sorted
    below := same ▸ s.below }

def setValue (s : Store) (handle : Nat) (value : String) : Store :=
  s.modify handle fun v => { v with value := value }

def setName (s : Store) (handle : Nat) (name : String) : Store :=
  s.modify handle fun v => { v with name := name }

/-- A field that is not given stays. -/
def update? (s : Store) (handle : Nat) (name value : Option String) : Option Store :=
  (s.get? handle).map fun _ =>
    s.modify handle fun v => ⟨name.getD v.name, value.getD v.value⟩

def erase (s : Store) (handle : Nat) : Store where
  rows := s.rows.filter (·.handle != handle)
  next := s.next
  sorted := s.sorted.sublist (List.filter_sublist.map _)
  below := fun h hh => s.below h ((List.filter_sublist.map _).subset hh)

def remove? (s : Store) (handle : Nat) : Option Store :=
  (s.get? handle).map fun _ => s.erase handle

/-- The value of the first variable of a name is set, or a new variable is added. -/
def assign (s : Store) (name value : String) : Store :=
  match s.find? name with
  | some r => s.setValue r.handle value
  | none => s.add ⟨name, value⟩

def text (s : Store) : String :=
  let one (v : Variable) := v.name ++ "=" ++ Text.quoted v.value
  "VariableStore([" ++ ", ".intercalate (s.toList.map one) ++ "])"

end Store

end Abacus
