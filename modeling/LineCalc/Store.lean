import Std.Data.ExtTreeMap
import LineCalc.Error

/-!
# The store of variables

A store knows the declared variables and the values of those that have been assigned. Two stores
with the same variables are equal, whatever their history. This is the module `symbols` of the
specification (4.3 and 10.2), with a `SymbolTable` of `Symbol` entries.

* `Variable` is a declared variable. Before its first assignment it reads as positive zero.
* `Store.declare`, `Store.assign` and `Store.clear` change a store; the first two may refuse, and
  then there is no new store.
* `Store.lookup` and `Store.isAssigned` ask for a variable, `Store.contains` never refuses.
* `Store.toList` lists the variables by name, in the order of code points, which is the order of the
  bytes of their UTF-8 encodings. `Store.listing` shows that list. They are `iter` and `dump` there.
-/

namespace LineCalc

/-- A declared variable. -/
inductive Variable where
  /-- Declared and never assigned. -/
  | unassigned
  | assigned (value : Binary64)
  deriving DecidableEq

namespace Variable

/-- The value that a variable reads as. -/
def value : Variable → Binary64
  | unassigned => .zero false
  | assigned value => value

/-- Whether the variable has been assigned. -/
def isAssigned : Variable → Bool
  | unassigned => false
  | assigned _ => true

end Variable

/-- The declared variables. -/
structure Store where
  entries : Std.ExtTreeMap String Variable

namespace Store

/-- The store without variables. -/
def empty : Store := ⟨∅⟩

instance : Inhabited Store := ⟨empty⟩

/-- The variable of the given name, if it is declared. -/
def get? (s : Store) (name : String) : Option Variable := s.entries[name]?

/-- Two stores with the same variables are equal. -/
theorem ext_get? {s t : Store} (h : ∀ name, s.get? name = t.get? name) : s = t := by
  cases s
  cases t
  congr 1
  exact Std.ExtTreeMap.ext_getElem? h

/-- The store with one variable changed or added. -/
def put (s : Store) (name : String) (v : Variable) : Store := ⟨s.entries.insert name v⟩

@[simp] theorem get?_empty (name : String) : empty.get? name = none := by
  simp [empty, get?]

theorem get?_put (s : Store) (name other : String) (v : Variable) :
    (s.put name v).get? other = if name = other then some v else s.get? other := by
  simp [put, get?, Std.ExtTreeMap.getElem?_insert]

/-- Whether a variable is declared. -/
def contains (s : Store) (name : String) : Bool := (s.get? name).isSome

/-- Declares a variable; one that is declared stays as it is. -/
def declare (s : Store) (name : String) : Except StoreError Store :=
  if s.contains name then .error (.alreadyDeclared name) else .ok (s.put name .unassigned)

/-- Gives a declared variable a value. -/
def assign (s : Store) (name : String) (value : Binary64) : Except StoreError Store :=
  if s.contains name then .ok (s.put name (.assigned value)) else .error (.notDeclared name)

/-- The value that a declared variable reads as. -/
def lookup (s : Store) (name : String) : Except StoreError Binary64 :=
  match s.get? name with
  | some v => .ok v.value
  | none => .error (.notDeclared name)

/-- Succeeds for a variable that has been assigned. -/
def isAssigned (s : Store) (name : String) : Except StoreError Bool :=
  match s.get? name with
  | some (.assigned _) => .ok true
  | some .unassigned => .error (.notAssigned name)
  | none => .error (.notDeclared name)

/-- Forgets all variables. -/
def clear (_ : Store) : Store := empty

/-- The number of declared variables. -/
def size (s : Store) : Nat := s.entries.size

/-- The declared variables in the order of their names. -/
def toList (s : Store) : List (String × Variable) := s.entries.toList

/-- The line of a listing for one variable. -/
def listingLine (name : String) (v : Variable) : String :=
  "name: " ++ name ++ " value = " ++
    (match v with
      | .assigned value => value.fixed
      | .unassigned => "not assigned") ++ "\n"

/-- The variables with their values, one on each line. -/
def listing (s : Store) : String := String.join (s.toList.map fun (name, v) => listingLine name v)

end Store

end LineCalc
