import Mathlib.Data.List.Induction
import Mathlib.Data.List.TakeWhile
import LineCalc.Store
import LineCalc.Proofs.Text.ByteOrder

/-!
# Stores and their histories

A store is made by operations, some of which are refused. Everything that can be asked of it is
said by the operations behind the last one that clears it: a variable is known if one of them
declares it, and it has the last value that is given to it behind the first of these declarations.

* `Store.Operation` are the operations that can change a store, `Store.behind` is the store behind
  one of them, and `Store.ofHistory` the store behind a list of them.
* `Store.sinceClear`, `Store.sinceDeclared` and `Store.lastValue?` look at a list of operations
  alone. `Store.get?_behind` is about one operation on a store, `Store.sinceDeclared_concat` about
  one more operation in a list, and `Store.get?_ofHistory` brings them together.
* `Store.pairwise_toList`: the variables are listed in the order of the bytes of their names.
* `Store.determined_by_history` says everything at once.
-/

namespace LineCalc

/-- The variable that was given the value, or none. -/
def Variable.ofValue? : Option Binary64 → Variable
  | some value => .assigned value
  | none => .unassigned

namespace Store

/-! ## Operations on a store -/

/-- An operation that can change a store. -/
inductive Operation where
  | declare (name : String)
  | assign (name : String) (value : Binary64)
  | clear
  deriving DecidableEq

/-- The store that an operation leads to, or why it is refused. -/
def perform (s : Store) : Operation → Except StoreError Store
  | .declare name => s.declare name
  | .assign name value => s.assign name value
  | .clear => .ok s.clear

/-- The store behind an operation; one that is refused leaves the store as it was. -/
def behind (s : Store) (op : Operation) : Store :=
  match s.perform op with
  | .ok t => t
  | .error _ => s

/-- The store behind operations that are done one after the other, beginning without variables. -/
def ofHistory (ops : List Operation) : Store := ops.foldl behind empty

variable {s : Store} {ops : List Operation} {op : Operation} {name : String} {x : StoreError}

theorem ofHistory_concat (ops : List Operation) (op : Operation) :
    ofHistory (ops ++ [op]) = (ofHistory ops).behind op := List.foldl_append ..

theorem behind_of_error (h : s.perform op = .error x) : s.behind op = s := by
  unfold behind
  rw [h]

/-- The operations that are refused, and why: a declaration of a known variable and an assignment
to an unknown one. -/
theorem perform_eq_error_iff :
    s.perform op = .error x ↔
      match op with
      | .declare name => s.contains name = true ∧ x = .alreadyDeclared name
      | .assign name _ => s.contains name = false ∧ x = .notDeclared name
      | .clear => False := by
  cases op with
  | declare name =>
    simp only [perform, declare]
    cases s.contains name <;> simp [eq_comm]
  | assign name value =>
    simp only [perform, assign]
    cases s.contains name <;> simp [eq_comm]
  | clear => simp [perform]

/-- A declaration that is carried out adds a variable. -/
theorem behind_declare (s : Store) (name : String) :
    s.behind (.declare name) = if s.contains name then s else s.put name .unassigned := by
  simp only [behind, perform, declare]
  by_cases h : s.contains name = true
  · rw [if_pos h, if_pos h]
  · rw [if_neg h, if_neg h]

/-- An assignment that is carried out changes a variable. -/
theorem behind_assign (s : Store) (name : String) (value : Binary64) :
    s.behind (.assign name value) =
      if s.contains name then s.put name (.assigned value) else s := by
  simp only [behind, perform, assign]
  by_cases h : s.contains name = true
  · rw [if_pos h, if_pos h]
  · rw [if_neg h, if_neg h]

/-- What an operation does to a variable. -/
theorem get?_behind (s : Store) (op : Operation) (name : String) :
    (s.behind op).get? name =
      match op with
      | .declare other =>
        if other = name then some ((s.get? name).getD .unassigned) else s.get? name
      | .assign other value =>
        if other = name then (s.get? name).map fun _ => .assigned value else s.get? name
      | .clear => none := by
  cases op with
  | declare other =>
    rw [behind_declare, contains]
    dsimp only
    by_cases ho : other = name
    · subst ho
      cases hv : s.get? other <;> simp [hv, get?_put]
    · cases s.get? other <;> simp [ho, get?_put]
  | assign other value =>
    rw [behind_assign, contains]
    dsimp only
    by_cases ho : other = name
    · subst ho
      cases hv : s.get? other <;> simp [hv, get?_put]
    · cases s.get? other <;> simp [ho, get?_put]
  | clear => exact get?_empty name

/-! ## What a list of operations says -/

/-- The value that an operation gives to a variable, if it is an assignment to it. -/
def Operation.value? (name : String) : Operation → Option Binary64
  | assign other value => if other = name then some value else none
  | _ => none

/-- The operations behind the last one that clears the store. -/
def sinceClear (ops : List Operation) : List Operation :=
  (ops.reverse.takeWhile (· ≠ .clear)).reverse

/-- The operations behind the last one that clears the store, from the first one of them on that
declares the variable. -/
def sinceDeclared (ops : List Operation) (name : String) : List Operation :=
  (sinceClear ops).dropWhile (· ≠ .declare name)

/-- The last value that is given to the variable behind its declaration. -/
def lastValue? (ops : List Operation) (name : String) : Option Binary64 :=
  ((sinceDeclared ops name).filterMap (Operation.value? name)).getLast?

theorem sinceDeclared_eq_nil_iff :
    sinceDeclared ops name = [] ↔ .declare name ∉ sinceClear ops := by
  unfold sinceDeclared
  rw [List.dropWhile_eq_nil_iff]
  constructor
  · intro h hmem
    exact absurd rfl (of_decide_eq_true (h _ hmem))
  · intro h op hop
    refine decide_eq_true ?_
    rintro rfl
    exact h hop

theorem sinceClear_concat (ops : List Operation) (op : Operation) :
    sinceClear (ops ++ [op]) = if op = .clear then [] else sinceClear ops ++ [op] := by
  unfold sinceClear
  rw [List.reverse_concat, List.takeWhile_cons]
  by_cases h : op = .clear <;> simp [h]

/-- One more operation in a list. -/
theorem sinceDeclared_concat (ops : List Operation) (op : Operation) (name : String) :
    sinceDeclared (ops ++ [op]) name =
      if op = .clear then []
      else if sinceDeclared ops name = [] then (if op = .declare name then [op] else [])
      else sinceDeclared ops name ++ [op] := by
  unfold sinceDeclared
  rw [sinceClear_concat]
  split
  · rfl
  · rw [List.dropWhile_append]
    simp only [List.isEmpty_iff]
    split
    · by_cases h : op = .declare name <;> simp [h]
    · rfl

/-- **Every variable is what the operations say.** -/
theorem get?_ofHistory (ops : List Operation) (name : String) :
    (ofHistory ops).get? name =
      if .declare name ∈ sinceClear ops then some (Variable.ofValue? (lastValue? ops name))
      else none := by
  have hview : (ofHistory ops).get? name =
      if sinceDeclared ops name = [] then none
      else some (Variable.ofValue? (lastValue? ops name)) := by
    induction ops using List.reverseRecOn with
    | nil => exact get?_empty name
    | append_singleton ops op ih =>
      rw [ofHistory_concat, get?_behind, ih]
      unfold lastValue?
      rw [sinceDeclared_concat]
      generalize sinceDeclared ops name = since
      cases op with
      | clear => rfl
      | declare other =>
        by_cases hs : since = [] <;> by_cases ho : other = name <;>
          simp [hs, ho, Operation.value?, Variable.ofValue?]
      | assign other value =>
        by_cases hs : since = [] <;> by_cases ho : other = name <;>
          simp [hs, ho, Operation.value?, Variable.ofValue?]
  rw [hview]
  simp only [sinceDeclared_eq_nil_iff, ite_not]

/-- A refused assignment gives no value, and a refused declaration takes none away. -/
example : (ofHistory [.clear, .assign "x" .nan, .declare "x", .assign "x" (.zero true),
    .declare "x"]).get? "x" = some (.assigned (.zero true)) := by
  cbv

theorem contains_ofHistory (ops : List Operation) (name : String) :
    (ofHistory ops).contains name = true ↔ .declare name ∈ sinceClear ops := by
  rw [contains, get?_ofHistory]
  split <;> simp [*]

/-! ## The list of variables -/

theorem mem_toList_iff {v : Variable} : (name, v) ∈ s.toList ↔ s.get? name = some v :=
  Std.ExtTreeMap.mem_toList_iff_getElem?_eq_some

/-- **The variables are listed in the order of the bytes of their names.** -/
theorem pairwise_toList (s : Store) : (s.toList.map Prod.fst).Pairwise BytesBefore := by
  have hordered : s.toList.Pairwise fun a b => compare a.1 b.1 = .lt :=
    Std.ExtTreeMap.ordered_keys_toList
  rw [List.pairwise_map]
  exact hordered.imp fun h => bytesBefore_of_lt (compareOfLessAndEq_eq_lt.mp h)

theorem size_eq_length_toList (s : Store) : s.size = s.toList.length :=
  Std.ExtTreeMap.length_toList.symm

theorem mem_names_iff : name ∈ s.toList.map Prod.fst ↔ s.contains name = true := by
  rw [contains, Option.isSome_iff_exists]
  simp only [← mem_toList_iff, List.mem_map, Prod.exists, exists_and_right, exists_eq_right]

/-- The variables that are listed are what the operations say. -/
theorem toList_ofHistory (ops : List Operation) :
    (ofHistory ops).toList = ((ofHistory ops).toList.map Prod.fst).map fun name =>
      (name, .ofValue? (lastValue? ops name)) := by
  rw [List.map_map]
  refine (List.map_id _).symm.trans (List.map_congr_left fun entry hentry => ?_)
  obtain ⟨name, v⟩ := entry
  rw [mem_toList_iff, get?_ofHistory] at hentry
  split at hentry
  · exact congrArg (name, ·) (Option.some.inj hentry).symm
  · cases hentry

/-- **A store is determined by its history.** Whatever operations have been done, and whether they
were refused or not: a variable is known if it was declared behind the last clearing, it reads as
the last value that it was given behind the first such declaration, or as positive zero, and an
unknown one does not read. Whether it was assigned is answered with yes, or refused in two ways. An
operation is refused if it declares a known variable or assigns to an unknown one, and then nothing
changes. The list of variables has the known ones in the strict order of the bytes of their names,
with as many entries as there are variables, and the listing shows the same variables in the same
order. -/
theorem determined_by_history (ops : List Operation) :
    let s := ofHistory ops
    let known := fun name => .declare name ∈ sinceClear ops
    let names := s.toList.map Prod.fst
    (∀ name,
      (s.contains name = true ↔ known name) ∧
      s.lookup name =
        (if known name then .ok ((lastValue? ops name).getD (.zero false))
        else .error (.notDeclared name)) ∧
      s.isAssigned name =
        (if known name then
          (if (lastValue? ops name).isSome then .ok true else .error (.notAssigned name))
        else .error (.notDeclared name)) ∧
      s.isAssigned name ≠ .ok false) ∧
    (∀ op x, s.perform op = .error x ↔
      match op with
      | .declare name => known name ∧ x = .alreadyDeclared name
      | .assign name _ => ¬ known name ∧ x = .notDeclared name
      | .clear => False) ∧
    (∀ op x, s.perform op = .error x → ofHistory (ops ++ [op]) = s) ∧
    (∀ name, name ∈ names ↔ known name) ∧ names.Pairwise BytesBefore ∧ names.length = s.size ∧
    s.toList = (names.map fun name => (name, .ofValue? (lastValue? ops name))) ∧
    s.listing = String.join (names.map fun name =>
      "name: " ++ name ++ " value = " ++
        ((lastValue? ops name).elim "not assigned" Binary64.fixed) ++ "\n") := by
  intro s known names
  have hknown : ∀ name, s.contains name = true ↔ known name := contains_ofHistory ops
  have htoList := toList_ofHistory ops
  refine ⟨fun name => ?_, fun op x => ?_, fun op x hop => ?_, fun name => ?_, s.pairwise_toList,
    ?_, htoList, ?_⟩
  · have hget : s.get? name = if known name then _ else none := get?_ofHistory ops name
    refine ⟨hknown name, ?_⟩
    rw [lookup, isAssigned, hget]
    by_cases hk : known name
    · rw [if_pos hk, if_pos hk, if_pos hk]
      cases lastValue? ops name <;> simp [Variable.ofValue?, Variable.value]
    · rw [if_neg hk, if_neg hk, if_neg hk]
      simp
  · rw [perform_eq_error_iff]
    cases op with
    | declare name => simp only [hknown]
    | assign name value => simp only [← hknown, Bool.not_eq_true]
    | clear => exact Iff.rfl
  · rw [ofHistory_concat, behind_of_error hop]
  · rw [← hknown]
    exact mem_names_iff
  · rw [size_eq_length_toList, List.length_map]
  · rw [listing, htoList, List.map_map]
    refine congrArg String.join (List.map_congr_left fun name _ => ?_)
    simp only [Function.comp_apply, listingLine]
    cases lastValue? ops name <;> rfl

end Store

end LineCalc
