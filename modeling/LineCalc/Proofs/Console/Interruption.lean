import Mathlib.Data.List.TakeWhile
import LineCalc.Console
import LineCalc.Proofs.Text.Pieces

/-!
# Lines that are no text

A line that is not well-formed UTF-8 ends the reading of an input. What was done before it stays,
and nothing is done for it: the console is the one behind an input that ends in front of that line.

* `textBefore` are the lines of bytes in front of the first one that is no text, and
  `Console.ReachesBadLine` says that the reading comes to that one.
* `Console.handled` are the lines of an input that are handled at all.
* `Console.readLines_textBefore` is about lines, whatever they hold, and
  `Console.runInput_textBefore` about inputs.
-/

namespace LineCalc

/-- The lines of bytes in front of the first one that is not well-formed UTF-8. -/
def textBefore (pieces : List (List UInt8)) : List (List UInt8) :=
  pieces.takeWhile fun bytes => (decodeLine bytes).isSome

variable {pieces : List (List UInt8)} {bytes : List UInt8}

theorem textBefore_cons_of_none (h : decodeLine bytes = none) (pieces : List (List UInt8)) :
    textBefore (bytes :: pieces) = [] := List.takeWhile_cons_of_neg (by simp [h])

theorem textBefore_cons_of_some {l : String} (h : decodeLine bytes = some l)
    (pieces : List (List UInt8)) : textBefore (bytes :: pieces) = bytes :: textBefore pieces :=
  List.takeWhile_cons_of_pos (by simp [h])

/-- The lines in front of a line are the lines of what stands in front of it. -/
theorem byteLines_textBefore (input : ByteArray) :
    byteLines ⟨(textBefore (byteLines input)).flatten.toArray⟩ = textBefore (byteLines input) := by
  have hpieces : Pieces (· == 10) (byteLines input) := pieces_piecesAfter _
  have hcut := (hpieces.takeWhile fun bytes => (decodeLine bytes).isSome).piecesAfter_flatten
  unfold byteLines at hcut ⊢
  exact hcut

/-- Every line of a text is text. -/
theorem textBefore_toUTF8 (text : String) :
    textBefore (byteLines text.toUTF8) = byteLines text.toUTF8 := by
  refine List.takeWhile_eq_self_iff.mpr fun bytes hbytes => ?_
  have hmem : decodeLine bytes ∈ (byteLines text.toUTF8).map decodeLine :=
    List.mem_map_of_mem hbytes
  rw [byteLines_toUTF8] at hmem
  obtain ⟨l, -, hl⟩ := List.mem_map.mp hmem
  rw [← hl, Option.isSome_some]

namespace Console

/-- The line tells a conversation to end. -/
def EndsReading (interactive : Bool) (bytes : List UInt8) : Prop :=
  ∃ l, decodeLine bytes = some l ∧ command? interactive l = some .quit

/-- The reading comes to a line that is not well-formed UTF-8: there is one, and no line in front of
it tells a conversation to end. -/
def ReachesBadLine (interactive : Bool) (pieces : List (List UInt8)) : Prop :=
  textBefore pieces ≠ pieces ∧ ∀ bytes ∈ textBefore pieces, ¬ EndsReading interactive bytes

variable {interactive : Bool}

theorem reachesBadLine_cons_of_none (h : decodeLine bytes = none) (pieces : List (List UInt8)) :
    ReachesBadLine interactive (bytes :: pieces) := by
  unfold ReachesBadLine
  rw [textBefore_cons_of_none h]
  exact ⟨(List.cons_ne_nil _ _).symm, fun _ hmem => nomatch hmem⟩

theorem reachesBadLine_cons_of_some {l : String} (h : decodeLine bytes = some l)
    (pieces : List (List UInt8)) :
    ReachesBadLine interactive (bytes :: pieces) ↔
      command? interactive l ≠ some .quit ∧ ReachesBadLine interactive pieces := by
  have hends : EndsReading interactive bytes ↔ command? interactive l = some .quit := by
    simp [EndsReading, h]
  unfold ReachesBadLine
  rw [textBefore_cons_of_some h, List.forall_mem_cons, hends, ne_eq, List.cons.injEq]
  constructor
  · rintro ⟨hne, hl, hmore⟩
    exact ⟨hl, fun heq => hne ⟨rfl, heq⟩, hmore⟩
  · rintro ⟨hl, hne, hmore⟩
    exact ⟨fun heq => hne heq.2, hl, hmore⟩

/-! ## The lines that are handled -/

/-- The lines that are handled: those in front of the first one that is not well-formed UTF-8 or
that tells a conversation to end. -/
def handled (interactive : Bool) (pieces : List (List UInt8)) : List String :=
  ((textBefore pieces).filterMap decodeLine).takeWhile fun l =>
    command? interactive l ≠ some .quit

variable {l : String}

theorem handled_cons_of_none (hd : decodeLine bytes = none) (pieces : List (List UInt8)) :
    handled interactive (bytes :: pieces) = [] := by
  rw [handled, textBefore_cons_of_none hd]
  rfl

theorem handled_cons_of_quit (hd : decodeLine bytes = some l)
    (hq : command? interactive l = some .quit) (pieces : List (List UInt8)) :
    handled interactive (bytes :: pieces) = [] := by
  rw [handled, textBefore_cons_of_some hd, List.filterMap_cons_some hd]
  exact List.takeWhile_cons_of_neg (by simp [hq])

theorem handled_cons_of_more (hd : decodeLine bytes = some l)
    (hq : command? interactive l ≠ some .quit) (pieces : List (List UInt8)) :
    handled interactive (bytes :: pieces) = l :: handled interactive pieces := by
  rw [handled, textBefore_cons_of_some hd, List.filterMap_cons_some hd]
  exact List.takeWhile_cons_of_pos (by simp [hq])

/-! ## Reading -/

theorem readLines_cons_of_none (hd : decodeLine bytes = none) (pieces : List (List UInt8))
    (c : Console) :
    readLines interactive (bytes :: pieces) c = (c.prompt interactive, .notText) := by
  simp only [readLines, advance, hd]

theorem readLines_cons_of_quit (hd : decodeLine bytes = some l)
    (hq : command? interactive l = some .quit) (pieces : List (List UInt8)) (c : Console) :
    readLines interactive (bytes :: pieces) c =
      ((c.prompt interactive).step interactive l, .done) := by
  simp only [readLines, advance, hd, if_pos hq]

theorem readLines_cons_of_more (hd : decodeLine bytes = some l)
    (hq : command? interactive l ≠ some .quit) (pieces : List (List UInt8)) (c : Console) :
    readLines interactive (bytes :: pieces) c =
      readLines interactive pieces ((c.prompt interactive).step interactive l) := by
  simp only [readLines, advance, hd, if_neg hq]

theorem prompt_eq (c : Console) (interactive : Bool) :
    c.prompt interactive = { c with output := (c.prompt interactive).output } := by
  cases interactive <;> rfl

/-- **Reading lines** does what reading those in front of the first bad one does, and ends at that
one if it comes to it. -/
theorem readLines_textBefore (interactive : Bool) (pieces : List (List UInt8)) (c : Console) :
    (readLines interactive pieces c).1 = (readLines interactive (textBefore pieces) c).1 ∧
      (readLines interactive (textBefore pieces) c).2 = .done ∧
      ((readLines interactive pieces c).2 = .notText ↔ ReachesBadLine interactive pieces) := by
  induction pieces generalizing c with
  | nil => exact ⟨rfl, rfl, fun h => (nomatch h), fun h => absurd rfl h.1⟩
  | cons bytes pieces ih =>
    cases hd : decodeLine bytes with
    | none =>
      rw [textBefore_cons_of_none hd, readLines_cons_of_none hd]
      exact ⟨rfl, rfl, fun _ => reachesBadLine_cons_of_none hd pieces, fun _ => rfl⟩
    | some l =>
      rw [textBefore_cons_of_some hd, reachesBadLine_cons_of_some hd]
      by_cases hq : command? interactive l = some .quit
      · rw [readLines_cons_of_quit hd hq, readLines_cons_of_quit hd hq]
        exact ⟨rfl, rfl, fun h => (nomatch h), fun h => absurd hq h.1⟩
      · rw [readLines_cons_of_more hd hq, readLines_cons_of_more hd hq]
        obtain ⟨hconsole, hdone, hbad⟩ := ih ((c.prompt interactive).step interactive l)
        exact ⟨hconsole, hdone, hbad.trans ⟨fun h => ⟨hq, h⟩, fun h => h.2⟩⟩

/-- **A line that is no text ends the reading without effects of its own.** Whatever the bytes of an
input are, and whether they are a conversation or not: the reading leads to the same session with
the same output, line count and number of failed lines as the reading of the lines in front of the
first one that is not well-formed UTF-8, so nothing of that line or behind it has an effect. The
reading of the lines in front ends well. The reading of the whole input ends with a complaint
exactly if it comes to such a line, that is, if there is one and no line in front of it tells a
conversation to end; otherwise it ends well too. -/
theorem runInput_textBefore (s : Session) (next : NodeId) (input : ByteArray)
    (interactive : Bool) :
    let before := textBefore (byteLines input)
    let run := runInput s next input interactive
    let alone := runInput s next ⟨before.flatten.toArray⟩ interactive
    run.1 = alone.1 ∧ alone.2 = .done ∧
      (run.2 = .notText ↔ before ≠ byteLines input ∧
        ∀ bytes ∈ before, ¬ EndsReading interactive bytes) ∧
      (run.2 = .done ↔ before = byteLines input ∨
        ∃ bytes ∈ before, EndsReading interactive bytes) := by
  intro before run alone
  have halone : alone = readLines interactive before _ :=
    congrArg (readLines interactive · _) (byteLines_textBefore input)
  obtain ⟨hconsole, hdone, hbad⟩ := readLines_textBefore interactive (byteLines input)
    (if interactive then (start s next).greet else start s next)
  rw [halone]
  have hbad : run.2 = .notText ↔ before ≠ byteLines input ∧
    ∀ bytes ∈ before, ¬ EndsReading interactive bytes := hbad
  have hends : run.2 = .done ↔ ¬ run.2 = .notText := by cases run.2 <;> decide
  refine ⟨hconsole, hdone, hbad, hends.trans ?_⟩
  rw [hbad, not_and_or, not_not]
  simp only [not_forall, not_not, exists_prop]

end Console

end LineCalc
