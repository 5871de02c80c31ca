import LineCalc.Proofs.Text.Lines

/-!
# Pieces put together

Cutting a text into its lines can be undone and done again: lines in a row are a text whose lines
they are, as long as each of them has its line end where it should have one.

* `Pieces` are the lists of pieces that cutting a list can come to: `pieces_piecesAfter`, and
  `Pieces.piecesAfter_flatten`.
* `Pieces.takeWhile` and `Pieces.map_or`: pieces from the front, and pieces some of which are
  replaced by an end alone, are pieces again.
* `AreLines` are the lines of texts, and `AreLines.fullLines_join` says which text.
  `AreLines.of_forall` is the way to them from texts that have no line end yet.
-/

namespace LineCalc

section Pieces

variable {α : Type} {isEnd : α → Bool}

/-- Pieces of a list: each has an end and holds no other, and only the last one may lack it. -/
inductive Pieces (isEnd : α → Bool) : List (List α) → Prop
  | nil : Pieces isEnd []
  | last {xs : List α} (hne : xs ≠ []) (h : ∀ x ∈ xs, isEnd x = false) : Pieces isEnd [xs]
  | cons {xs : List α} {y : α} {pieces : List (List α)} (h : ∀ x ∈ xs, isEnd x = false)
      (hy : isEnd y = true) (more : Pieces isEnd pieces) : Pieces isEnd ((xs ++ [y]) :: pieces)

/-- An element in front that is no end belongs to the first piece. -/
theorem Pieces.push {x : α} {piece : List α} {pieces : List (List α)} (hx : isEnd x = false)
    (h : Pieces isEnd (piece :: pieces)) : Pieces isEnd ((x :: piece) :: pieces) := by
  cases h with
  | last hne h => exact .last (List.cons_ne_nil _ _) (List.forall_mem_cons.mpr ⟨hx, h⟩)
  | cons h hy more => exact .cons (List.forall_mem_cons.mpr ⟨hx, h⟩) hy more

theorem Pieces.cons_end {y : α} {pieces : List (List α)} (hy : isEnd y = true)
    (more : Pieces isEnd pieces) : Pieces isEnd ([y] :: pieces) :=
  have hnil : ∀ x ∈ ([] : List α), isEnd x = false := fun _ hx => nomatch hx
  .cons hnil hy more

/-- A list is cut into pieces. -/
theorem pieces_piecesAfter (xs : List α) : Pieces isEnd (piecesAfter isEnd xs) := by
  induction xs with
  | nil => exact .nil
  | cons x xs ih =>
    rw [piecesAfter]
    by_cases hx : isEnd x = true
    · rw [if_pos hx]
      exact .cons_end hx ih
    · rw [Bool.not_eq_true] at hx
      rw [if_neg (Bool.eq_false_iff.mp hx)]
      cases hp : piecesAfter isEnd xs with
      | nil => exact .last (List.cons_ne_nil _ _) (List.forall_mem_singleton.mpr hx)
      | cons piece pieces => exact .push hx (hp ▸ ih)

namespace Pieces

variable {pieces : List (List α)}

/-- **Pieces are cut as they were put together.** -/
theorem piecesAfter_flatten (h : Pieces isEnd pieces) :
    piecesAfter isEnd pieces.flatten = pieces := by
  induction h with
  | nil => rfl
  | @last xs hne h =>
    rw [List.flatten_singleton, ← List.append_nil xs, piecesAfter_append hne h, List.append_nil]
    rfl
  | @cons xs y pieces h hy more ih =>
    rw [List.flatten_cons, List.append_assoc, List.singleton_append, piecesAfter_append_cons h hy,
      ih]

theorem takeWhile (h : Pieces isEnd pieces) (p : List α → Bool) :
    Pieces isEnd (pieces.takeWhile p) := by
  induction h with
  | nil => exact .nil
  | @last xs hne h =>
    rw [List.takeWhile_cons]
    split
    · exact .last hne h
    · exact .nil
  | @cons xs y pieces h hy more ih =>
    rw [List.takeWhile_cons]
    split
    · exact .cons h hy ih
    · exact .nil

/-- Any of the pieces may be replaced by an end. -/
theorem map_or (h : Pieces isEnd pieces) {f : List α → List α} {y : α} (hy : isEnd y = true)
    (hf : ∀ xs, f xs = xs ∨ f xs = [y]) : Pieces isEnd (pieces.map f) := by
  induction h with
  | nil => exact .nil
  | @last xs hne h =>
    rw [List.map_singleton]
    rcases hf xs with hxs | hxs <;> rw [hxs]
    · exact .last hne h
    · exact .cons_end hy .nil
  | @cons xs z pieces h hz more ih =>
    rw [List.map_cons]
    rcases hf (xs ++ [z]) with hxs | hxs <;> rw [hxs]
    · exact .cons h hz ih
    · exact .cons_end hy ih

end Pieces

end Pieces

/-! ## Lines of a text -/

/-- The lines are the lines of a text, with their line ends. -/
def AreLines (ls : List String) : Prop := Pieces (· == '\n') (ls.map String.toList)

theorem areLines_fullLines (text : String) : AreLines (fullLines text) := by
  have hid : String.toList ∘ String.ofList = id := funext fun cs => String.toList_ofList
  unfold AreLines fullLines
  rw [List.map_map, hid, List.map_id]
  exact pieces_piecesAfter _

theorem toList_join (ls : List String) :
    (String.join ls).toList = (ls.map String.toList).flatten := by
  induction ls with
  | nil => rfl
  | cons l ls ih =>
    rw [String.join_cons, String.toList_append, ih, List.map_cons, List.flatten_cons]

namespace AreLines

variable {ls : List String}

/-- Texts without line feeds in them become lines by a line feed behind each. -/
theorem of_forall (h : ∀ l ∈ ls, ∃ text : String, '\n' ∉ text.toList ∧ l = text ++ "\n") :
    AreLines ls := by
  unfold AreLines
  induction ls with
  | nil => exact .nil
  | cons l ls ih =>
    obtain ⟨⟨text, htext, rfl⟩, hls⟩ := List.forall_mem_cons.mp h
    rw [List.map_cons, String.toList_append]
    refine .cons (fun c hc => ?_) (beq_self_eq_true '\n') (ih hls)
    rw [beq_eq_false_iff_ne]
    rintro rfl
    exact htext hc

/-- **Lines put together are a text whose lines they are.** -/
theorem fullLines_join (h : AreLines ls) : fullLines (String.join ls) = ls := by
  have hid : String.ofList ∘ String.toList = id := funext fun l => String.ofList_toList
  unfold fullLines
  rw [toList_join, h.piecesAfter_flatten, List.map_map, hid, List.map_id]

theorem takeWhile (h : AreLines ls) (p : String → Bool) : AreLines (ls.takeWhile p) := by
  have hp : (p ∘ String.ofList) ∘ String.toList = p :=
    funext fun l => congrArg p String.ofList_toList
  have hpieces := Pieces.takeWhile h (p ∘ String.ofList)
  rwa [List.takeWhile_map, hp] at hpieces

/-- Any of the lines may be replaced by an empty one. -/
theorem map_or (h : AreLines ls) {f : String → String} (hf : ∀ l, f l = l ∨ f l = "\n") :
    AreLines (ls.map f) := by
  have hchars : ∀ cs,
      (f (String.ofList cs)).toList = cs ∨ (f (String.ofList cs)).toList = ['\n'] := by
    intro cs
    rcases hf (String.ofList cs) with hl | hl
    · exact Or.inl (by rw [hl, String.toList_ofList])
    · exact Or.inr (by rw [hl]; rfl)
  have hmap : (ls.map f).map String.toList =
      (ls.map String.toList).map fun cs => (f (String.ofList cs)).toList := by
    rw [List.map_map, List.map_map]
    exact List.map_congr_left fun l _ => by simp only [Function.comp_apply, String.ofList_toList]
  unfold AreLines
  rw [hmap]
  exact Pieces.map_or h (beq_self_eq_true '\n') hchars

end AreLines

end LineCalc
