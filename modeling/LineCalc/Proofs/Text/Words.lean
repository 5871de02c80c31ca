import Mathlib.Data.List.TakeWhile
import LineCalc.Text.Lines

/-!
# The first word of a text

A text is cut into the spaces in front of its first word, that word, and what stands behind it. What
stands behind the word begins with a space, if there is anything.

* `EndsRun` says that a run of characters ends in front of a text, and `takeWhile_append_of_endsRun`
  that such a run is taken as a whole.
* `trim_eq_nil_iff`: what is nothing but spaces is trimmed to nothing, and nothing else is.
* `Trimmed` are the texts that trimming leaves behind. `exists_append_trim` says what it takes away,
  and `Trimmed.trim_append` that spaces around such a text are all that it takes away.
* `firstWord` and `argument` are the parts that a command is recognised by. `exists_firstWord` says
  where they stand in the text, and `firstWord_append` which they are in a text with a word in it.
-/

namespace LineCalc

/-! ## Where a run of characters ends -/

section Runs

variable {p : Char → Bool} {run rest : List Char}

/-- The text goes on with a character outside of a class, or not at all. -/
def EndsRun (p : Char → Bool) (rest : List Char) : Prop := ∀ c, rest.head? = some c → p c = false

theorem takeWhile_of_endsRun (h : EndsRun p rest) :
    rest.takeWhile p = [] ∧ rest.dropWhile p = rest := by
  cases rest with
  | nil => exact ⟨rfl, rfl⟩
  | cons c rest =>
    have hc : ¬ p c = true := Bool.eq_false_iff.mp (h c rfl)
    exact ⟨List.takeWhile_cons_of_neg hc, List.dropWhile_cons_of_neg hc⟩

/-- A run of characters is taken as a whole, if it ends where the class does. -/
theorem takeWhile_append_of_endsRun (hrun : ∀ c ∈ run, p c = true) (h : EndsRun p rest) :
    (run ++ rest).takeWhile p = run := by
  rw [List.takeWhile_append_of_pos hrun, (takeWhile_of_endsRun h).1, List.append_nil]

theorem dropWhile_append_of_endsRun (hrun : ∀ c ∈ run, p c = true) (h : EndsRun p rest) :
    (run ++ rest).dropWhile p = rest := by
  rw [List.dropWhile_append_of_pos hrun, (takeWhile_of_endsRun h).2]

end Runs

/-! ## Trimmed texts -/

/-- What is removed at the end of a text are spaces. -/
theorem exists_append_trimEnd (cs : List Char) :
    ∃ back, cs = trimEnd cs ++ back ∧ ∀ c ∈ back, isSpace c = true := by
  refine ⟨(cs.reverse.takeWhile isSpace).reverse, ?_, fun c hc => ?_⟩
  · rw [trimEnd, ← List.reverse_append, List.takeWhile_append_dropWhile, List.reverse_reverse]
  · exact List.all_eq_true.mp List.all_takeWhile c (List.mem_reverse.mp hc)

theorem trimEnd_eq_nil_iff {cs : List Char} : trimEnd cs = [] ↔ ∀ c ∈ cs, isSpace c = true := by
  rw [trimEnd, List.reverse_eq_nil_iff, List.dropWhile_eq_nil_iff]
  simp only [List.mem_reverse]

theorem trim_eq_nil_iff {cs : List Char} : trim cs = [] ↔ ∀ c ∈ cs, isSpace c = true := by
  rw [trim, trimEnd_eq_nil_iff]
  constructor
  · intro h c hc
    rw [← List.takeWhile_append_dropWhile (p := isSpace) (l := cs), List.mem_append] at hc
    rcases hc with hc | hc
    · exact List.all_eq_true.mp List.all_takeWhile c hc
    · exact h c hc
  · exact fun h c hc => h c ((List.dropWhile_sublist _).subset hc)

/-- A text that is not empty and has no space at its two ends. -/
structure Trimmed (cs : List Char) : Prop where
  ne_nil : cs ≠ []
  head : ∀ c, cs.head? = some c → isSpace c = false
  last : ∀ c, cs.getLast? = some c → isSpace c = false

section Ends

variable {front cs back : List Char}

theorem trimEnd_append (h : ∀ c ∈ back, isSpace c = true) : trimEnd (cs ++ back) = trimEnd cs := by
  have hback : ∀ c ∈ back.reverse, isSpace c = true := fun c hc => h c (List.mem_reverse.mp hc)
  rw [trimEnd, List.reverse_append, List.dropWhile_append_of_pos hback, trimEnd]

/-- Spaces in front of a text are trimmed. -/
theorem trim_append_left (h : ∀ c ∈ front, isSpace c = true) : trim (front ++ cs) = trim cs := by
  rw [trim, List.dropWhile_append_of_pos h, trim]

/-- Spaces behind a text are trimmed. -/
theorem trim_append_right (h : ∀ c ∈ back, isSpace c = true) : trim (cs ++ back) = trim cs := by
  rw [trim, List.dropWhile_append]
  split
  · rename_i hnil
    have hcs : cs.dropWhile isSpace = [] := List.isEmpty_iff.mp hnil
    have hback : back.dropWhile isSpace = [] := List.dropWhile_eq_nil_iff.mpr h
    rw [hback, trim, hcs]
  · rw [trimEnd_append h, trim]

theorem Trimmed.trimEnd_eq (h : Trimmed cs) : trimEnd cs = cs := by
  have hlast : ¬ isSpace (cs.getLast h.ne_nil) = true := by
    rw [h.last _ (List.getLast?_eq_some_getLast h.ne_nil)]
    exact Bool.false_ne_true
  rw [trimEnd, ← List.dropLast_concat_getLast h.ne_nil, List.reverse_append,
    List.reverse_singleton, List.singleton_append, List.dropWhile_cons_of_neg hlast,
    List.reverse_cons, List.reverse_reverse]

/-- Behind a trimmed text, spaces are trimmed at the end as they are on their own. -/
theorem Trimmed.trimEnd_append (h : Trimmed cs) : trimEnd (cs ++ back) = cs ++ trimEnd back := by
  have hcs := h.trimEnd_eq
  unfold trimEnd at hcs ⊢
  rw [List.reverse_append, List.dropWhile_append]
  split
  · rename_i hnil
    rw [hcs, List.isEmpty_iff.mp hnil, List.reverse_nil, List.append_nil]
  · rw [List.reverse_append, List.reverse_reverse]

/-- **Spaces around a trimmed text are all that is trimmed.** -/
theorem Trimmed.trim_append (h : Trimmed cs) (hfront : ∀ c ∈ front, isSpace c = true)
    (hback : ∀ c ∈ back, isSpace c = true) : trim (front ++ (cs ++ back)) = cs := by
  rw [trim_append_left hfront, trim_append_right hback, trim]
  obtain ⟨c, more, rfl⟩ := List.exists_cons_of_ne_nil h.ne_nil
  have hc : ¬ isSpace c = true := by
    rw [h.head c rfl]
    exact Bool.false_ne_true
  rw [List.dropWhile_cons_of_neg hc, h.trimEnd_eq]

/-- Nothing is lost of the trimmed text without the space in front. -/
theorem trim_drop_one (h : ∀ c, cs.head? = some c → isSpace c = true) :
    trim (cs.drop 1) = trim cs := by
  cases cs with
  | nil => rfl
  | cons c cs =>
    have hc : ∀ d ∈ [c], isSpace d = true := List.forall_mem_singleton.mpr (h c rfl)
    rw [List.drop_one, List.tail_cons, ← List.singleton_append, trim_append_left hc]

/-- What is removed at the two ends of a text are spaces. -/
theorem exists_append_trim (cs : List Char) :
    ∃ front back, cs = front ++ (trim cs ++ back) ∧ (∀ c ∈ front, isSpace c = true) ∧
      ∀ c ∈ back, isSpace c = true := by
  obtain ⟨back, hback, hspaces⟩ := exists_append_trimEnd (cs.dropWhile isSpace)
  refine ⟨cs.takeWhile isSpace, back, ?_, List.all_eq_true.mp List.all_takeWhile, hspaces⟩
  rw [trim, ← hback, List.takeWhile_append_dropWhile]

/-- What is left is trimmed, if anything is left. -/
theorem trimmed_trim (h : trim cs ≠ []) : Trimmed (trim cs) where
  ne_nil := h
  head := by
    intro c hc
    obtain ⟨back, hback, -⟩ := exists_append_trimEnd (cs.dropWhile isSpace)
    have hleft : (trimEnd (cs.dropWhile isSpace)).head? = some c := hc
    have hhead : (cs.dropWhile isSpace).head? = some c := by
      rw [hback, List.head?_append, hleft, Option.some_or]
    have hnot := List.head?_dropWhile_not isSpace cs
    rw [hhead] at hnot
    simpa using hnot
  last := by
    intro c hc
    rw [trim, trimEnd, List.getLast?_reverse] at hc
    have hnot := List.head?_dropWhile_not isSpace (cs.dropWhile isSpace).reverse
    rw [hc] at hnot
    simpa using hnot

end Ends

/-! ## The first word and what stands behind it -/

/-- The characters up to the first space, not counting the spaces that the text starts with. -/
def firstWord (cs : List Char) : List Char := (cutWord (trim cs)).1

/-- What stands behind the first word, without the spaces at both ends. -/
def argument (cs : List Char) : List Char := trim (cutWord (trim cs)).2

/-- **A text is cut at its first word.** Nothing but spaces stands in front of the word, and a space
stands behind it unless the text ends there. The argument is what stands behind the word,
trimmed. -/
theorem exists_firstWord (cs : List Char) :
    ∃ front behind, cs = front ++ (firstWord cs ++ behind) ∧ (∀ c ∈ front, isSpace c = true) ∧
      (∀ c, behind.head? = some c → isSpace c = true) ∧ argument cs = trim behind := by
  obtain ⟨front, back, hcs, hfront, hspaces⟩ := exists_append_trim cs
  -- The first character that the word does not take is a space.
  have hhead : ∀ c, ((trim cs).dropWhile (!isSpace ·)).head? = some c → isSpace c = true := by
    intro c hc
    have hnot := List.head?_dropWhile_not (!isSpace ·) (trim cs)
    rw [hc] at hnot
    simpa using hnot
  refine ⟨front, (trim cs).dropWhile (!isSpace ·) ++ back, ?_, hfront, fun c hc => ?_, ?_⟩
  · have hword : firstWord cs ++ (trim cs).dropWhile (!isSpace ·) = trim cs :=
      List.takeWhile_append_dropWhile
    rw [← List.append_assoc (firstWord cs), hword]
    exact hcs
  · rw [List.head?_append, Option.or_eq_some_iff] at hc
    rcases hc with hc | ⟨-, hc⟩
    · exact hhead c hc
    · exact hspaces c (List.mem_of_head? hc)
  · rw [argument, cutWord, trim_append_right hspaces]
    exact trim_drop_one hhead

/-- A text in which a word is known to stand is cut there. -/
theorem firstWord_append {front word behind : List Char} (hne : word ≠ [])
    (hword : ∀ c ∈ word, isSpace c = false) (hfront : ∀ c ∈ front, isSpace c = true)
    (hbehind : ∀ c, behind.head? = some c → isSpace c = true) :
    firstWord (front ++ (word ++ behind)) = word ∧
      argument (front ++ (word ++ behind)) = trim behind := by
  have htrimmed : Trimmed word :=
    ⟨hne, fun c hc => hword c (List.mem_of_head? hc), fun c hc => hword c (List.mem_of_getLast? hc)⟩
  have htrim : trim (front ++ (word ++ behind)) = word ++ trimEnd behind := by
    obtain ⟨c, more, rfl⟩ := List.exists_cons_of_ne_nil hne
    have hc : ¬ isSpace c = true := by
      rw [hword c List.mem_cons_self]
      exact Bool.false_ne_true
    rw [trim_append_left hfront, trim, List.cons_append, List.dropWhile_cons_of_neg hc,
      ← List.cons_append, htrimmed.trimEnd_append]
  obtain ⟨back, hback, hspaces⟩ := exists_append_trimEnd behind
  have hhead : ∀ c, (trimEnd behind).head? = some c → isSpace c = true := by
    intro c hc
    refine hbehind c ?_
    rw [hback, List.head?_append, hc, Option.some_or]
  have hrun : ∀ c ∈ word, (!isSpace c) = true := by simpa using hword
  have hend : EndsRun (!isSpace ·) (trimEnd behind) := fun c hc => by simp [hhead c hc]
  constructor
  · rw [firstWord, htrim, cutWord, takeWhile_append_of_endsRun hrun hend]
  · rw [argument, htrim, cutWord, dropWhile_append_of_endsRun hrun hend, trim_drop_one hhead]
    exact ((congrArg trim hback).trans (trim_append_right hspaces)).symm

end LineCalc
