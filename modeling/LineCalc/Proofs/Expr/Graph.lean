import Mathlib.Data.List.Nodup
import Mathlib.Data.List.Perm.Basic
import LineCalc.Proofs.Expr.Listing
import LineCalc.Proofs.Phrase.Numbering

/-!
# Graphs read back

A graph is a row of vertices and edges without brackets, and a label alone does not say what kind of
node it is for: a variable may have the name of an operator. What tells the nodes apart are their
numbers. If no number is used twice, then the parts of the graph that belong to one node are its
label and the numbers of its children, and that is enough to put the tree together again.

* `GraphItem.line_inj`: a line of a graph says which part it is for.
* `Expr.filter_owner_graphItems`: the parts of a graph that belong to one node.
* `Expr.Legible` are the trees with different numbers and leaves as they are read, and
  `Expr.Legible.eq_of_graphItems_eq` says that their graphs determine them.
* `DrawsTree` says what the vertices and edges of a graph have in common with a tree.
* `readLine_graph_lossless` is about the texts of graphs.
-/

namespace LineCalc

namespace Expr

/-! ## Parts of a graph -/

/-- The name of the vertex of a node. -/
def vertexName (id : NodeId) : String := "n" ++ toString id

namespace GraphItem

/-- The node that a part belongs to; an edge belongs to the parent. -/
def owner : GraphItem → NodeId
  | vertex id _ => id
  | edge parent _ => parent

@[simp] theorem owner_vertex (id : NodeId) (label : String) : (vertex id label).owner = id := rfl

@[simp] theorem owner_edge (parent child : NodeId) : (edge parent child).owner = parent := rfl

/-- The vertex that a part declares. -/
def vertex? : GraphItem → Option String
  | vertex id _ => some (vertexName id)
  | edge _ _ => none

/-- The ends of the edge that a part is. -/
def edge? : GraphItem → Option (String × String)
  | vertex _ _ => none
  | edge parent child => some (vertexName parent, vertexName child)

theorem line_vertex (id : NodeId) (label : String) :
    (vertex id label).line =
      "    " ++ (vertexName id ++ (" [label=\"" ++ (label ++ "\"];\n"))) := by
  have hindent : "    n" = "    " ++ "n" := rfl
  simp only [line, vertexName, hindent, String.append_assoc]

theorem line_edge (parent child : NodeId) :
    (edge parent child).line =
      "    " ++ (vertexName parent ++ (" -> " ++ (vertexName child ++ ";\n"))) := by
  have hindent : "    n" = "    " ++ "n" := rfl
  have harrow : " -> n" = " -> " ++ "n" := rfl
  simp only [line, vertexName, hindent, harrow, String.append_assoc]

end GraphItem

/-- The name of a vertex can be read back where the text goes on with no digit. -/
theorem vertexName_append_inj {i j : NodeId} {s t : String} (hs : EndsNumber s)
    (ht : EndsNumber t) (h : vertexName i ++ s = vertexName j ++ t) : i = j ∧ s = t := by
  unfold vertexName at h
  rw [String.append_assoc, String.append_assoc, String.append_right_inj] at h
  exact toString_append_inj hs ht h

theorem vertexName_injective : Function.Injective vertexName := by
  intro i j h
  have hnil : EndsNumber "" := rfl
  exact (vertexName_append_inj hnil hnil (congrArg (· ++ "") h)).1

namespace GraphItem

variable {x y : GraphItem}

/-- **A line says which part of a graph it is for.** -/
theorem line_inj (h : x.line = y.line) : x = y := by
  have hlabel : ∀ text, EndsNumber (" [label=\"" ++ text) :=
    EndsNumber.append (by decide) (by decide)
  have harrow : ∀ text, EndsNumber (" -> " ++ text) := EndsNumber.append (by decide) (by decide)
  have hne : ∀ s t : String, " [label=\"" ++ s ≠ " -> " ++ t := by
    intro s t hst
    simpa using congrArg String.toList hst
  cases x with
  | vertex id label =>
    cases y with
    | vertex id' label' =>
      rw [line_vertex, line_vertex, String.append_right_inj] at h
      obtain ⟨rfl, hrest⟩ := vertexName_append_inj (hlabel _) (hlabel _) h
      rw [String.append_right_inj, String.append_left_inj] at hrest
      rw [hrest]
    | edge parent child =>
      rw [line_vertex, line_edge, String.append_right_inj] at h
      exact absurd (vertexName_append_inj (hlabel _) (harrow _) h).2 (hne _ _)
  | edge parent child =>
    cases y with
    | vertex id label =>
      rw [line_vertex, line_edge, String.append_right_inj] at h
      exact absurd (vertexName_append_inj (harrow _) (hlabel _) h).2.symm (hne _ _)
    | edge parent' child' =>
      rw [line_edge, line_edge, String.append_right_inj] at h
      obtain ⟨rfl, hrest⟩ := vertexName_append_inj (harrow _) (harrow _) h
      rw [String.append_right_inj, String.append_left_inj] at hrest
      rw [vertexName_injective hrest]

end GraphItem

variable {e f n m : Expr}

/-! ## The nodes of a tree -/

/-- The two orders have the same nodes. -/
theorem preorder_perm_postorder (e : Expr) : e.preorder.Perm e.postorder := by
  induction e using children_induction with
  | node e ih =>
    rw [preorder_eq, postorder_eq]
    exact ((List.Perm.flatMap_left _ ih).cons e).trans (List.perm_append_singleton _ _).symm

/-- The parts of a graph are the labels of the nodes and the edges to their children. -/
theorem mem_graphItems_iff {x : GraphItem} : x ∈ e.graphItems ↔
    ∃ n ∈ e.postorder, x = .vertex n.id n.label ∨ ∃ c ∈ n.children, x = .edge n.id c.id := by
  induction e using children_induction with
  | node e ih =>
    have hnodes : ∀ n, n ∈ e.postorder ↔ n = e ∨ ∃ c ∈ e.children, n ∈ c.postorder :=
      fun n => mem_postorder_iff
    simp only [graphItems_eq e, List.mem_cons, List.mem_flatMap, hnodes]
    constructor
    · rintro (rfl | ⟨c, hc, rfl | hx⟩)
      · exact ⟨e, Or.inl rfl, Or.inl rfl⟩
      · exact ⟨e, Or.inl rfl, Or.inr ⟨c, hc, rfl⟩⟩
      · obtain ⟨n, hn, h⟩ := (ih c hc).mp hx
        exact ⟨n, Or.inr ⟨c, hc, hn⟩, h⟩
    · rintro ⟨n, rfl | ⟨c, hc, hn⟩, h⟩
      · rcases h with rfl | ⟨c, hc, rfl⟩
        · exact Or.inl rfl
        · exact Or.inr ⟨c, hc, Or.inl rfl⟩
      · exact Or.inr ⟨c, hc, Or.inr ((ih c hc).mpr ⟨n, hn, h⟩)⟩

/-! ## The parts of one node -/

/-- Where no number is used twice, the nodes below a node have other numbers than that node, and the
nodes below one of its children have other numbers than those below another. -/
theorem nodup_children (h : (e.postorder.map id).Nodup) :
    (∀ c ∈ e.children, e.id ∉ c.postorder.map id ∧ (c.postorder.map id).Nodup) ∧
      e.children.Pairwise fun c d => List.Disjoint (c.postorder.map id) (d.postorder.map id) := by
  rw [postorder_eq, List.map_append, List.nodup_append, List.map_flatMap] at h
  obtain ⟨hbelow, -, hroot⟩ := h
  obtain ⟨hchildren, hdisjoint⟩ := List.nodup_flatMap.mp hbelow
  refine ⟨fun c hc => ⟨fun hid => ?_, hchildren c hc⟩, hdisjoint⟩
  exact hroot e.id (List.mem_flatMap.mpr ⟨c, hc, hid⟩) e.id (List.mem_singleton_self _) rfl

theorem filter_owner_eq_nil {p : NodeId} (hp : p ∉ e.postorder.map id) :
    e.graphItems.filter (·.owner == p) = [] := by
  rw [List.filter_eq_nil_iff]
  intro x hx
  obtain ⟨n, hn, hx⟩ := mem_graphItems_iff.mp hx
  have howner : x.owner = n.id := by
    rcases hx with rfl | ⟨c, -, rfl⟩ <;> rfl
  rw [howner, beq_iff_eq]
  rintro rfl
  exact hp (List.mem_map_of_mem hn)

/-- **The parts that belong to a node** are its vertex and the edges to its children in their order,
if no number is used twice. -/
theorem filter_owner_graphItems (h : (e.postorder.map id).Nodup) (hn : n ∈ e.postorder) :
    e.graphItems.filter (·.owner == n.id) =
      .vertex n.id n.label :: n.children.map fun c => .edge n.id c.id := by
  induction e using children_induction with
  | node e ih =>
    obtain ⟨hchildren, hdisjoint⟩ := nodup_children h
    rw [graphItems_eq]
    rcases mem_postorder_iff.mp hn with rfl | ⟨c, hc, hn⟩
    · -- Nothing below the root belongs to it.
      have hedge : ∀ c ∈ n.children,
          (GraphItem.edge n.id c.id :: c.graphItems).filter (·.owner == n.id) =
            [.edge n.id c.id] := by
        intro c hc
        rw [List.filter_cons_of_pos (by simp), filter_owner_eq_nil (hchildren c hc).1]
      rw [List.filter_cons_of_pos (by simp), List.filter_flatMap, List.flatMap_congr hedge,
        ← List.map_eq_flatMap]
    · -- What belongs to a node below the root is in the graph of one child.
      have hne : e.id ≠ n.id := fun hid => (hchildren c hc).1 (hid ▸ List.mem_map_of_mem hn)
      have hedge : ∀ d ∈ e.children,
          (GraphItem.edge e.id d.id :: d.graphItems).filter (·.owner == n.id) =
            d.graphItems.filter (·.owner == n.id) :=
        fun d _ => List.filter_cons_of_neg (by simpa using hne)
      rw [List.filter_cons_of_neg (by simpa using hne), List.filter_flatMap,
        List.flatMap_congr hedge]
      obtain ⟨before, after, hsplit⟩ := List.append_of_mem hc
      rw [hsplit, List.pairwise_append, List.pairwise_cons] at hdisjoint
      obtain ⟨-, ⟨hafter, -⟩, hbefore⟩ := hdisjoint
      have hnid : n.id ∈ c.postorder.map id := List.mem_map_of_mem hn
      have hb : before.flatMap (fun d => d.graphItems.filter (·.owner == n.id)) = [] := by
        rw [List.flatMap_eq_nil_iff]
        intro d hd
        exact filter_owner_eq_nil fun hid => hbefore d hd c List.mem_cons_self hid hnid
      have ha : after.flatMap (fun d => d.graphItems.filter (·.owner == n.id)) = [] := by
        rw [List.flatMap_eq_nil_iff]
        intro d hd
        exact filter_owner_eq_nil (hafter d hd hnid)
      rw [hsplit, List.flatMap_append, List.flatMap_cons, hb, ha, List.nil_append, List.append_nil]
      exact ih c hc (hchildren c hc).2 hn

/-! ## Trees with the same parts -/

/-- A leaf as it is read: a constant without a sign, or a variable that is a name. -/
def LegibleLeaf : Expr → Prop
  | literal value _ => ∃ m, value = .finite false m
  | var name _ => IsName name
  | _ => True

/-- A tree whose graph can be read back: it uses no number twice, and its leaves are as they are
read. -/
structure Legible (e : Expr) : Prop where
  nodup : (e.postorder.map id).Nodup
  leaves : ∀ n ∈ e.postorder, n.LegibleLeaf

/-- A number is no name. -/
theorem plain_ne_of_isName {name : String} (h : IsName name) (m : Magnitude) :
    (Binary64.finite false m).plain ≠ name := by
  rintro rfl
  have hdigit := Binary64.head?_plain m
  obtain ⟨hstart, -⟩ := h
  cases hc : (Binary64.finite false m).plain.toList.head? with
  | none =>
    rw [hc] at hdigit
    cases hdigit
  | some c =>
    rw [hc, Option.any_some] at hdigit hstart
    rw [isWordStart_of_isDigit hdigit] at hstart
    cases hstart

/-- Label and number of children tell the kinds of nodes apart, although a variable may have the
name of an operator. -/
theorem kind_eq_of_label_eq (hn : n.LegibleLeaf) (hm : m.LegibleLeaf) (hlabel : n.label = m.label)
    (hchildren : n.children.length = m.children.length) : n.kind = m.kind := by
  have hprint : ∀ op : Operator, op.symbol ≠ "print" := by
    intro op
    cases op <;> decide
  have hequals : ∀ op : Operator, op.symbol ≠ "=" := by
    intro op
    cases op <;> decide
  cases n with
  | literal v id =>
    cases m with
    | literal => rfl
    | var name id' =>
      obtain ⟨a, rfl⟩ := hn
      exact absurd hlabel (plain_ne_of_isName hm a)
    | _ => cases hchildren
  | var name id =>
    cases m with
    | literal w id' =>
      obtain ⟨a, rfl⟩ := hm
      exact absurd hlabel.symm (plain_ne_of_isName hn a)
    | var => rfl
    | _ => cases hchildren
  | unary op operand id =>
    cases m with
    | unary => rfl
    | print => exact absurd hlabel (hprint op)
    | _ => cases hchildren
  | binary op left right id =>
    cases m with
    | binary => rfl
    | assign => exact absurd hlabel (hequals op)
    | _ => cases hchildren
  | assign target value id =>
    cases m with
    | binary op left right id' => exact absurd hlabel.symm (hequals op)
    | assign => rfl
    | _ => cases hchildren
  | print operand id =>
    cases m with
    | unary op operand' id' => exact absurd hlabel.symm (hprint op)
    | print => rfl
    | _ => cases hchildren

/-- Number, label and children make a node. -/
theorem eq_of_label_eq (hn : n.LegibleLeaf) (hm : m.LegibleLeaf) (hid : n.id = m.id)
    (hlabel : n.label = m.label) (hchildren : n.children = m.children) : n = m := by
  have hkind := kind_eq_of_label_eq hn hm hlabel (congrArg List.length hchildren)
  cases n with
  | literal v id =>
    cases m with
    | literal w id' =>
      obtain rfl : id = id' := hid
      obtain ⟨a, rfl⟩ := hn
      obtain ⟨b, rfl⟩ := hm
      rw [Binary64.plain_inj hlabel]
    | _ => cases hkind
  | var name id =>
    cases m with
    | var name' id' =>
      obtain rfl : id = id' := hid
      obtain rfl : name = name' := hlabel
      rfl
    | _ => cases hkind
  | unary op operand id =>
    cases m with
    | unary op' operand' id' =>
      obtain rfl : id = id' := hid
      obtain rfl : op = op' := Operator.symbol_inj hlabel
      cases hchildren
      rfl
    | _ => cases hkind
  | binary op left right id =>
    cases m with
    | binary op' left' right' id' =>
      obtain rfl : id = id' := hid
      obtain rfl : op = op' := Operator.symbol_inj hlabel
      cases hchildren
      rfl
    | _ => cases hkind
  | assign target value id =>
    cases m with
    | assign target' value' id' =>
      obtain rfl : id = id' := hid
      cases hchildren
      rfl
    | _ => cases hkind
  | print operand id =>
    cases m with
    | print operand' id' =>
      obtain rfl : id = id' := hid
      cases hchildren
      rfl
    | _ => cases hkind

namespace Legible

/-- Nodes with the same number are the same in both trees. -/
theorem eq_of_id_eq (he : e.Legible) (hf : f.Legible) (h : e.graphItems = f.graphItems)
    (hn : n ∈ e.postorder) (hm : m ∈ f.postorder) (hid : n.id = m.id) : n = m := by
  induction n using children_induction generalizing m with
  | node n ih =>
    have hparts : GraphItem.vertex n.id n.label :: (n.children.map fun c => .edge n.id c.id) =
        .vertex m.id m.label :: m.children.map fun c => .edge m.id c.id := by
      rw [← filter_owner_graphItems he.nodup hn, ← filter_owner_graphItems hf.nodup hm, h, hid]
    obtain ⟨hvertex, hedges⟩ := List.cons.inj hparts
    have hlabel : n.label = m.label := (GraphItem.vertex.inj hvertex).2
    have hlength : n.children.length = m.children.length := by
      simpa using congrArg List.length hedges
    have hchildren : n.children = m.children := by
      refine List.ext_getElem hlength fun i hi hi' => ?_
      have hc : n.children[i] ∈ n.children := List.getElem_mem hi
      have hd : m.children[i] ∈ m.children := List.getElem_mem hi'
      have hedge := List.getElem_of_eq hedges (by simpa using hi)
      rw [List.getElem_map, List.getElem_map] at hedge
      exact ih _ hc (mem_postorder_of_mem_children hn hc) (mem_postorder_of_mem_children hm hd)
        (GraphItem.edge.inj hedge).2
    exact eq_of_label_eq (he.leaves n hn) (hf.leaves m hm) hid hlabel hchildren

/-- **The parts of its graph determine a tree.** -/
theorem eq_of_graphItems_eq (he : e.Legible) (hf : f.Legible) (h : e.graphItems = f.graphItems) :
    e = f := by
  have hroots := h
  rw [graphItems_eq e, graphItems_eq f] at hroots
  have hid : e.id = f.id := (GraphItem.vertex.inj (List.cons.inj hroots).1).1
  exact he.eq_of_id_eq hf h (self_mem_postorder e) (self_mem_postorder f) hid

end Legible

/-! ## Vertices and edges -/

/-- The parts are the vertices and edges of a tree with the given root and the given number of
nodes: the vertices have different names, every edge joins two of them, there is one edge less than
there are vertices, and one edge goes to every vertex but the root. -/
structure DrawsTree (parts : List GraphItem) (root : String) (size : Nat) : Prop where
  vertices : (parts.filterMap GraphItem.vertex?).length = size
  distinct : (parts.filterMap GraphItem.vertex?).Nodup
  edges : (parts.filterMap GraphItem.edge?).length + 1 = size
  ends : ∀ edge ∈ parts.filterMap GraphItem.edge?,
    edge.1 ∈ parts.filterMap GraphItem.vertex? ∧ edge.2 ∈ parts.filterMap GraphItem.vertex?
  incoming : ∀ name ∈ parts.filterMap GraphItem.vertex?,
    ((parts.filterMap GraphItem.edge?).map Prod.snd).count name = if name = root then 0 else 1

/-- The vertices of a graph are those of the nodes, each before its children. -/
theorem filterMap_vertex?_graphItems (e : Expr) :
    e.graphItems.filterMap GraphItem.vertex? = e.preorder.map (vertexName ·.id) := by
  induction e using children_induction with
  | node e ih =>
    have hchild : ∀ c ∈ e.children,
        (GraphItem.edge e.id c.id :: c.graphItems).filterMap GraphItem.vertex? =
          c.preorder.map (vertexName ·.id) := by
      intro c hc
      rw [List.filterMap_cons_none rfl, ih c hc]
    have hroot : (GraphItem.vertex e.id e.label).vertex? = some (vertexName e.id) := rfl
    rw [graphItems_eq, preorder_eq, List.filterMap_cons_some hroot, List.filterMap_flatMap,
      List.flatMap_congr hchild, List.map_cons, List.map_flatMap]

/-- The edges go to the same vertices in the same order, the root left out. -/
theorem map_snd_filterMap_edge?_graphItems (e : Expr) :
    (e.graphItems.filterMap GraphItem.edge?).map Prod.snd =
      (e.children.flatMap preorder).map (vertexName ·.id) := by
  induction e using children_induction with
  | node e ih =>
    have hchild : ∀ c ∈ e.children,
        ((GraphItem.edge e.id c.id :: c.graphItems).filterMap GraphItem.edge?).map Prod.snd =
          c.preorder.map (vertexName ·.id) := by
      intro c hc
      have hedge : (GraphItem.edge e.id c.id).edge? = some (vertexName e.id, vertexName c.id) := rfl
      rw [List.filterMap_cons_some hedge, List.map_cons, ih c hc, preorder_eq c, List.map_cons]
    rw [graphItems_eq, List.filterMap_cons_none rfl, List.filterMap_flatMap, List.map_flatMap,
      List.flatMap_congr hchild, List.map_flatMap]

/-- **The graph of a tree is a tree**, if no number is used twice. -/
theorem drawsTree (h : (e.postorder.map id).Nodup) :
    DrawsTree e.graphItems (vertexName e.id) e.size := by
  have hvertices := filterMap_vertex?_graphItems e
  have hcons : e.graphItems.filterMap GraphItem.vertex? =
      vertexName e.id :: (e.graphItems.filterMap GraphItem.edge?).map Prod.snd := by
    rw [hvertices, map_snd_filterMap_edge?_graphItems, preorder_eq, List.map_cons]
  have hlength : (e.graphItems.filterMap GraphItem.vertex?).length = e.size := by
    rw [hvertices, List.length_map, length_preorder]
  have hdistinct : (e.graphItems.filterMap GraphItem.vertex?).Nodup := by
    have hids : (e.preorder.map id).Nodup :=
      ((preorder_perm_postorder e).map id).nodup_iff.mpr h
    have hnames := hids.map vertexName_injective
    rw [List.map_map] at hnames
    rw [hvertices]
    exact hnames
  refine ⟨hlength, hdistinct, ?_, fun edge hedge => ⟨?_, ?_⟩, fun name hname => ?_⟩
  · rw [← hlength, hcons, List.length_cons, List.length_map]
  · obtain ⟨x, hx, hedge⟩ := List.mem_filterMap.mp hedge
    obtain ⟨n, hn, rfl | ⟨c, -, rfl⟩⟩ := mem_graphItems_iff.mp hx
    · cases hedge
    · cases hedge
      rw [hvertices]
      exact List.mem_map_of_mem ((preorder_perm_postorder e).mem_iff.mpr hn)
  · rw [hcons]
    exact List.mem_cons_of_mem _ (List.mem_map_of_mem hedge)
  · rw [hcons] at hdistinct hname
    obtain ⟨hroot, hnodup⟩ := List.nodup_cons.mp hdistinct
    by_cases hr : name = vertexName e.id
    · rw [if_pos hr, hr]
      exact List.count_eq_zero_of_not_mem hroot
    · rw [if_neg hr]
      exact List.count_eq_one_of_mem hnodup ((List.mem_cons.mp hname).resolve_left hr)

/-! ## Texts -/

/-- A label as it is read has no line end in it. -/
theorem LegibleLeaf.oneLine_label (h : n.LegibleLeaf) : OneLine n.label := by
  cases n with
  | literal v id => exact v.oneLine_plain
  | var name id => exact IsName.oneLine h
  | unary op operand id | binary op left right id => exact op.oneLine_symbol
  | assign target value id =>
    have hequals : OneLine "=" := by decide
    exact hequals
  | print operand id =>
    have hprint : OneLine "print" := by decide
    exact hprint

/-- What a line holds before its end, if its label has no line end in it. -/
theorem GraphItem.exists_line_eq {x : GraphItem}
    (h : ∀ id label, x = vertex id label → OneLine label) :
    ∃ text : String, '\n' ∉ text.toList ∧ x.line = text ++ "\n" := by
  have hname : ∀ id, '\n' ∉ (vertexName id).toList := by
    intro id
    rw [vertexName, String.toList_append, List.mem_append, not_or]
    exact ⟨by decide, (oneLine_toString id).1⟩
  cases x with
  | vertex id label =>
    refine ⟨"    " ++ (vertexName id ++ (" [label=\"" ++ (label ++ "\"];"))), ?_, ?_⟩
    · simp only [String.toList_append, List.mem_append, not_or]
      exact ⟨by decide, hname id, by decide, (h id label rfl).1, by decide⟩
    · have hend : "\"];\n" = "\"];" ++ "\n" := rfl
      simp only [line_vertex, hend, String.append_assoc]
  | edge parent child =>
    refine ⟨"    " ++ (vertexName parent ++ (" -> " ++ (vertexName child ++ ";"))), ?_, ?_⟩
    · simp only [String.toList_append, List.mem_append, not_or]
      exact ⟨by decide, hname parent, by decide, hname child, by decide⟩
    · have hend : ";\n" = ";" ++ "\n" := rfl
      simp only [line_edge, hend, String.append_assoc]

/-- The lines of a graph: those of its parts, between the first line and the last. -/
def graphLines (e : Expr) : List String :=
  "digraph ast \x7b\n" :: (e.graphItems.map GraphItem.line ++ ["\x7d\n"])

theorem fullLines_graph (h : ∀ n ∈ e.postorder, n.LegibleLeaf) :
    fullLines e.graph = e.graphLines := by
  have hlines : AreLines e.graphLines := by
    refine .of_forall fun l hl => ?_
    unfold graphLines at hl
    simp only [List.mem_cons, List.mem_append, List.mem_map, List.not_mem_nil, or_false] at hl
    rcases hl with rfl | ⟨x, hx, rfl⟩ | rfl
    · exact ⟨"digraph ast \x7b", by decide, rfl⟩
    · refine GraphItem.exists_line_eq fun id label hvertex => ?_
      obtain ⟨n, hn, rfl | ⟨c, -, rfl⟩⟩ := mem_graphItems_iff.mp hx
      · cases hvertex
        exact (h n hn).oneLine_label
      · cases hvertex
    · exact ⟨"\x7d", by decide, rfl⟩
  have hgraph : e.graph = String.join e.graphLines := by
    rw [graphLines, String.join_cons, String.join_append, String.join_cons, String.join_nil,
      String.append_empty, ← String.append_assoc]
    rfl
  rw [hgraph, hlines.fullLines_join]

/-- The texts of graphs determine their parts. -/
theorem graphItems_eq_of_graph_eq (he : ∀ n ∈ e.postorder, n.LegibleLeaf)
    (hf : ∀ n ∈ f.postorder, n.LegibleLeaf) (h : e.graph = f.graph) :
    e.graphItems = f.graphItems := by
  have hlines := congrArg fullLines h
  rw [fullLines_graph he, fullLines_graph hf, graphLines, graphLines, List.cons_inj_right,
    List.append_left_inj] at hlines
  exact List.map_injective_iff.mpr (fun _ _ => GraphItem.line_inj) hlines

end Expr

/-! ## Lines that are read -/

/-- What is read uses no number twice, and its leaves are legible. -/
theorem legible_of_readLine {source : String} {line : Nat} {next : NodeId} {e : Expr}
    (h : (readLine source line next).outcome = .ok (some e)) : e.Legible := by
  obtain ⟨hliterals, hnames⟩ := leaves_of_readLine h
  refine ⟨(numberedFrom_of_readLine h).1.nodup, fun n hn => ?_⟩
  cases n with
  | literal v id => exact hliterals v (Expr.mem_literals_of_mem_postorder hn)
  | var name id => exact hnames name (Expr.mem_names_of_mem_postorder hn)
  | unary | binary | assign | print => trivial

/-- **The graph of a statement loses nothing.** The text has a line for each part of a tree that has
as many vertices as the statement has nodes. Two statements with the same text are the same, down to
the numbers of the nodes and the signs and magnitudes of the constants. -/
theorem readLine_graph_lossless {source : String} {line : Nat} {next : NodeId} {e : Expr}
    (h : (readLine source line next).outcome = .ok (some e)) :
    fullLines e.graph = e.graphLines ∧
      Expr.DrawsTree e.graphItems (Expr.vertexName e.id) e.size ∧
      ∀ source' line' next' f, (readLine source' line' next').outcome = .ok (some f) →
        e.graph = f.graph → e = f := by
  have he := legible_of_readLine h
  refine ⟨Expr.fullLines_graph he.leaves, Expr.drawsTree he.nodup, ?_⟩
  intro source' line' next' f h' hgraph
  have hf := legible_of_readLine h'
  exact he.eq_of_graphItems_eq hf (Expr.graphItems_eq_of_graph_eq he.leaves hf.leaves hgraph)

/-- Two statements whose graphs have vertices and edges between the same names. In both, a variable
has the name of an operator. -/
theorem readLine_graph_lossless_of_operator_names :
    let e : Expr := .assign (.var "neg" 2) (.unary .abs (.var "abs" 0) 1) 3
    let f : Expr := .assign (.var "neg" 2) (.unary .neg (.var "abs" 0) 1) 3
    ((readLine "neg = +abs" 1 0).outcome = .ok (some e) ∧
      (readLine "neg = -abs" 1 0).outcome = .ok (some f)) ∧
    fullLines e.graph = e.graphLines ∧ Expr.DrawsTree e.graphItems "n3" 4 ∧ e.graph ≠ f.graph := by
  intro e f
  have he : (readLine "neg = +abs" 1 0).outcome = .ok (some e) := by decide +kernel
  have hf : (readLine "neg = -abs" 1 0).outcome = .ok (some f) := by decide +kernel
  have hne : e ≠ f := by decide
  obtain ⟨hlines, htree, hsame⟩ := readLine_graph_lossless he
  have hroot : Expr.vertexName e.id = "n3" := by decide
  rw [hroot] at htree
  exact ⟨⟨he, hf⟩, hlines, htree, fun hgraph => hne (hsame _ _ _ f hf hgraph)⟩

end LineCalc
