import LineCalc.Proofs.Binary64.Text
import LineCalc.Proofs.Expr.Signs
import LineCalc.Proofs.Text.Lines
import LineCalc.Proofs.Text.Pieces

/-!
# Listings read back

A listing is a row of lines without brackets, but each line says how many children its node has. So
the tree can be put together again from the last line to the first: below a root stand the lines of
its last child, and what is left belongs to the other children.

* `Expr.ListedAlike` relates trees that differ in their constants only, and there not in the text of
  three places.
* `Expr.listingLine_inj`: a line says which node it is for, up to its children.
* `Expr.listedAlike_of_append`: the last lines of a list determine the tree that they are for, and
  with it how many lines there are.
* `ChildrenFirst` are the lists in which the nodes below a node stand directly before it.
* `Expr.listing_faithful` is about the text.
-/

namespace LineCalc

namespace Operator

variable {op op' : Operator}

theorem symbol_inj (h : op.symbol = op'.symbol) : op = op' := by
  revert h
  cases op <;> cases op' <;> decide

theorem oneLine_symbol (op : Operator) : OneLine op.symbol := by
  cases op <;> decide

end Operator

/-- What a description says about the kind of the node. -/
def NodeKind.heading : NodeKind → String
  | literal => "literal value: "
  | var => "variable name: "
  | unary => "unary node op: "
  | binary => "binary node op: "
  | assign => "assign node"
  | print => "print node"

namespace NodeKind

theorem toList_heading_ne_nil (k : NodeKind) : k.heading.toList ≠ [] := by
  cases k <;> decide

/-- The headings have different initials. -/
theorem heading_inj {k k' : NodeKind}
    (h : k.heading.toList.head? = k'.heading.toList.head?) : k = k' := by
  revert h
  cases k <;> cases k' <;> decide

theorem oneLine_heading (k : NodeKind) : OneLine k.heading := by
  cases k <;> decide

end NodeKind

namespace Expr

/-- What a description says about the node beyond its kind. -/
def detail : Expr → String
  | literal value _ => value.fixed
  | var name _ => name
  | unary op _ _ => op.symbol
  | binary op _ _ _ => op.symbol
  | assign _ _ _ => ""
  | print _ _ => ""

/-- The trees are the same up to constants, and those are written alike in listings. -/
inductive ListedAlike : Expr → Expr → Prop
  | literal {v w : Binary64} (id : NodeId) (h : v.fixed = w.fixed) :
      ListedAlike (literal v id) (literal w id)
  | var (name : String) (id : NodeId) : ListedAlike (var name id) (var name id)
  | unary {e f : Expr} (op : Operator) (id : NodeId) (h : ListedAlike e f) :
      ListedAlike (unary op e id) (unary op f id)
  | binary {l r l' r' : Expr} (op : Operator) (id : NodeId) (hl : ListedAlike l l')
      (hr : ListedAlike r r') : ListedAlike (binary op l r id) (binary op l' r' id)
  | assign {t v t' v' : Expr} (id : NodeId) (ht : ListedAlike t t') (hv : ListedAlike v v') :
      ListedAlike (assign t v id) (assign t' v' id)
  | print {e f : Expr} (id : NodeId) (h : ListedAlike e f) : ListedAlike (print e id) (print f id)

variable {e f : Expr}

/-! ## Lines -/

/-- A description is the heading of the kind and the detail of the node. -/
theorem description_eq (e : Expr) : e.description = e.kind.heading ++ e.detail := by
  cases e with
  | literal | var | unary | binary => rfl
  | assign | print => exact String.append_empty.symm

theorem description_inj (h : e.description = f.description) :
    e.kind = f.kind ∧ e.detail = f.detail := by
  have hhead : ∀ e : Expr, e.description.toList.head? = e.kind.heading.toList.head? := by
    intro e
    obtain ⟨c, cs, hcs⟩ := List.exists_cons_of_ne_nil e.kind.toList_heading_ne_nil
    rw [description_eq, String.toList_append, hcs]
    rfl
  have hkind : e.kind = f.kind := NodeKind.heading_inj ((hhead e).symm.trans (h ▸ hhead f))
  rw [description_eq, description_eq, hkind, String.append_right_inj] at h
  exact ⟨hkind, h⟩

theorem listingLine_inj (h : e.listingLine = f.listingLine) :
    e.id = f.id ∧ e.kind = f.kind ∧ e.detail = f.detail := by
  have hline : ∀ e : Expr,
      e.listingLine = "#" ++ (toString e.id ++ (" " ++ (e.description ++ "\n"))) := by
    intro e
    simp only [listingLine, String.append_assoc]
  have hspace : ∀ text, EndsNumber (" " ++ text) := EndsNumber.append (by decide) (by decide)
  rw [hline, hline, String.append_right_inj] at h
  obtain ⟨hid, hrest⟩ := toString_append_inj (hspace _) (hspace _) h
  rw [String.append_right_inj, String.append_left_inj] at hrest
  exact ⟨hid, description_inj hrest⟩

/-- From the last line to the first: the root, and then the lines of its last child. -/
theorem roots_of_append {xs ys : List String}
    (h : xs ++ e.postorder.map listingLine = ys ++ f.postorder.map listingLine) :
    (e.id = f.id ∧ e.kind = f.kind ∧ e.detail = f.detail) ∧
      xs ++ (e.children.flatMap postorder).map listingLine =
        ys ++ (f.children.flatMap postorder).map listingLine := by
  rw [postorder_eq e, postorder_eq f, List.map_append, List.map_append, List.map_singleton,
    List.map_singleton, ← List.append_assoc, ← List.append_assoc, List.append_singleton_inj] at h
  exact ⟨listingLine_inj h.2, h.1⟩

/-- **The last lines determine the tree they are for**, and where its lines begin. -/
theorem listedAlike_of_append {xs ys : List String}
    (h : xs ++ e.postorder.map listingLine = ys ++ f.postorder.map listingLine) :
    e.ListedAlike f ∧ xs = ys := by
  induction e generalizing f xs ys with
  | literal v id =>
    obtain ⟨⟨hid, hkind, hdetail⟩, hbelow⟩ := roots_of_append h
    cases f with
    | literal w id' =>
      obtain rfl : id = id' := hid
      refine ⟨.literal id hdetail, ?_⟩
      simpa [children] using hbelow
    | _ => cases hkind
  | var name id =>
    obtain ⟨⟨hid, hkind, hdetail⟩, hbelow⟩ := roots_of_append h
    cases f with
    | var name' id' =>
      obtain rfl : id = id' := hid
      obtain rfl : name = name' := hdetail
      refine ⟨.var name id, ?_⟩
      simpa [children] using hbelow
    | _ => cases hkind
  | unary op operand id ih =>
    obtain ⟨⟨hid, hkind, hdetail⟩, hbelow⟩ := roots_of_append h
    cases f with
    | unary op' operand' id' =>
      obtain rfl : id = id' := hid
      obtain rfl : op = op' := Operator.symbol_inj hdetail
      simp only [children, List.flatMap_singleton] at hbelow
      obtain ⟨ho, hxs⟩ := ih hbelow
      exact ⟨.unary op id ho, hxs⟩
    | _ => cases hkind
  | binary op left right id ihl ihr =>
    obtain ⟨⟨hid, hkind, hdetail⟩, hbelow⟩ := roots_of_append h
    cases f with
    | binary op' left' right' id' =>
      obtain rfl : id = id' := hid
      obtain rfl : op = op' := Operator.symbol_inj hdetail
      simp only [children, List.flatMap_cons, List.flatMap_nil, List.append_nil, List.map_append,
        ← List.append_assoc] at hbelow
      obtain ⟨hr, hleft⟩ := ihr hbelow
      obtain ⟨hl, hxs⟩ := ihl hleft
      exact ⟨.binary op id hl hr, hxs⟩
    | _ => cases hkind
  | assign target value id iht ihv =>
    obtain ⟨⟨hid, hkind, hdetail⟩, hbelow⟩ := roots_of_append h
    cases f with
    | assign target' value' id' =>
      obtain rfl : id = id' := hid
      simp only [children, List.flatMap_cons, List.flatMap_nil, List.append_nil, List.map_append,
        ← List.append_assoc] at hbelow
      obtain ⟨hv, htarget⟩ := ihv hbelow
      obtain ⟨ht, hxs⟩ := iht htarget
      exact ⟨.assign id ht hv, hxs⟩
    | _ => cases hkind
  | print operand id ih =>
    obtain ⟨⟨hid, hkind, hdetail⟩, hbelow⟩ := roots_of_append h
    cases f with
    | print operand' id' =>
      obtain rfl : id = id' := hid
      simp only [children, List.flatMap_singleton] at hbelow
      obtain ⟨ho, hxs⟩ := ih hbelow
      exact ⟨.print id ho, hxs⟩
    | _ => cases hkind

/-- Constants that are written alike do not change a listing. -/
theorem ListedAlike.map_listingLine (h : e.ListedAlike f) :
    e.postorder.map listingLine = f.postorder.map listingLine := by
  induction h with
  | @literal v w id h =>
    have hline : (Expr.literal v id).listingLine = (Expr.literal w id).listingLine :=
      congrArg (fun text => "#" ++ toString id ++ " " ++ ("literal value: " ++ text) ++ "\n") h
    simp only [postorder, List.map_singleton, hline]
  | var name id => rfl
  | unary op id h ih | print id h ih =>
    simp only [postorder, List.map_append, List.map_singleton, ih]
    rfl
  | binary op id hl hr ihl ihr =>
    simp only [postorder, List.map_append, List.map_singleton, ihl, ihr]
    rfl
  | assign id ht hv iht ihv =>
    simp only [postorder, List.map_append, List.map_singleton, iht, ihv]
    rfl

/-! ## The order of the lines -/

/-- Directly before each node of the list stand the nodes below it, child by child. -/
def ChildrenFirst (ns : List Expr) : Prop :=
  ∀ before n after, ns = before ++ n :: after → n.children.flatMap postorder <:+ before

namespace ChildrenFirst

variable {ms ns : List Expr}

theorem nil : ChildrenFirst [] := by
  intro before n after h
  cases (List.append_eq_nil_iff.mp h.symm).2

theorem append (hm : ChildrenFirst ms) (hn : ChildrenFirst ns) : ChildrenFirst (ms ++ ns) := by
  intro before n after h
  rcases List.append_eq_append_iff.mp h with ⟨mid, rfl, hns⟩ | ⟨mid, hms, hmid⟩
  · exact List.suffix_append_of_suffix (hn mid n after hns)
  · cases mid with
    | nil =>
      have hbelow := hn [] n after hmid.symm
      rw [List.suffix_nil.mp hbelow]
      exact List.nil_suffix
    | cons m mid =>
      obtain ⟨rfl, -⟩ := List.cons.inj hmid
      exact hm before n mid hms

theorem flatMap {es : List Expr} (h : ∀ e ∈ es, ChildrenFirst e.postorder) :
    ChildrenFirst (es.flatMap postorder) := by
  induction es with
  | nil => exact .nil
  | cons e es ih =>
    obtain ⟨he, hes⟩ := List.forall_mem_cons.mp h
    rw [List.flatMap_cons]
    exact he.append (ih hes)

/-- A node may follow the nodes below it. -/
theorem concat (hn : ChildrenFirst ns) (h : e.children.flatMap postorder <:+ ns) :
    ChildrenFirst (ns ++ [e]) := by
  intro before n after hsplit
  rcases List.eq_nil_or_concat after with rfl | ⟨after, m, rfl⟩
  · obtain ⟨rfl, rfl⟩ := List.append_singleton_inj.mp hsplit
    exact h
  · rw [List.concat_eq_append, ← List.cons_append, ← List.append_assoc] at hsplit
    exact hn before n after (List.append_singleton_inj.mp hsplit).1

end ChildrenFirst

/-- **The nodes below a node stand directly before it.** -/
theorem childrenFirst_postorder (e : Expr) : ChildrenFirst e.postorder := by
  induction e using children_induction with
  | node e ih =>
    rw [postorder_eq]
    exact (ChildrenFirst.flatMap ih).concat (List.suffix_refl _)

/-! ## Texts -/

/-- Where no name has a line feed in it, the lines of a listing are those of the nodes. -/
theorem fullLines_listing (he : ∀ name ∈ e.names, '\n' ∉ name.toList) :
    fullLines e.listing = e.postorder.map listingLine := by
  have hdetail : ∀ n ∈ e.postorder, '\n' ∉ n.detail.toList := by
    intro n hn
    cases n with
    | literal v id => exact (Binary64.oneLine_fixed v).1
    | var name id => exact he name (mem_names_of_mem_postorder hn)
    | unary op operand id | binary op left right id => exact op.oneLine_symbol.1
    | assign target value id | print operand id => exact List.not_mem_nil
  have hlines : AreLines (e.postorder.map listingLine) := by
    refine .of_forall fun l hl => ?_
    obtain ⟨n, hn, rfl⟩ := List.mem_map.mp hl
    refine ⟨"#" ++ toString n.id ++ " " ++ n.description, ?_, rfl⟩
    rw [description_eq]
    simp only [String.toList_append, List.mem_append, not_or]
    exact ⟨⟨⟨by decide, (oneLine_toString n.id).1⟩, by decide⟩,
      n.kind.oneLine_heading.1, hdetail n hn⟩
  exact hlines.fullLines_join

/-- **A listing says everything about the tree but the exact constants.** -/
theorem listing_faithful (he : ∀ name ∈ e.names, '\n' ∉ name.toList)
    (hf : ∀ name ∈ f.names, '\n' ∉ name.toList) :
    (e.listing = f.listing ↔ e.ListedAlike f) ∧
      fullLines e.listing = e.postorder.map listingLine ∧
      (fullLines e.listing).length = e.size ∧ ChildrenFirst e.postorder := by
  refine ⟨⟨fun h => ?_, fun h => ?_⟩, fullLines_listing he, ?_, childrenFirst_postorder e⟩
  · have hlines : [] ++ e.postorder.map listingLine = [] ++ f.postorder.map listingLine := by
      rw [← fullLines_listing he, ← fullLines_listing hf, h]
    exact (listedAlike_of_append hlines).1
  · exact congrArg String.join h.map_listingLine
  · rw [fullLines_listing he, List.length_map, length_postorder]

/-- Two trees with a target that is no variable, operators in each other's places, a name that is
the text of another line and numbers used twice. They differ in a constant that is nearly zero. -/
theorem listing_faithful_of_tiny_constant :
    let tree : Binary64 → Expr := fun v =>
      .assign (.unary .mul (.var "assign node" 4) 4) (.binary .neg (.literal v 9) (.var "x" 2) 4) 0
    let e := tree (.zero false)
    let f := tree (.finite false ⟨1, by decide⟩)
    ((∀ name ∈ e.names, '\n' ∉ name.toList) ∧ ∀ name ∈ f.names, '\n' ∉ name.toList) ∧
      e ≠ f ∧ e.listing = f.listing ∧ (fullLines e.listing).length = 6 := by
  intro tree e f
  have he : ∀ name ∈ e.names, '\n' ∉ name.toList := by decide
  have hf : ∀ name ∈ f.names, '\n' ∉ name.toList := by decide
  have hv : Binary64.fixed (.zero false) = Binary64.fixed (.finite false ⟨1, by decide⟩) := by
    decide +kernel
  have halike : e.ListedAlike f :=
    .assign 0 (.unary .mul 4 (.var _ 4)) (.binary .neg 4 (.literal 9 hv) (.var "x" 2))
  obtain ⟨hiff, -, hlength, -⟩ := listing_faithful he hf
  exact ⟨⟨he, hf⟩, by decide, hiff.mpr halike, hlength⟩

end Expr

end LineCalc
