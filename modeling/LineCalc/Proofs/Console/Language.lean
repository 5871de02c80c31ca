import LineCalc.Console
import LineCalc.Proofs.Text.Words

/-!
# The language of commands

Which lines are commands, said without cutting a line into words: a word with spaces around it, or a
word and an argument with spaces around and between them.

* `IsAlone` and `IsBefore` are the two forms of a line, and `Command.IsWritten` the lines of each
  command.
* `isAlone_iff` and `isBefore_iff`: a line has one of the forms exactly if its first word and its
  argument are the ones of that form.
* `Command.ofLine?_recognises_language` is the statement for every line and every command.
-/

namespace LineCalc

/-! ## The two forms of a line -/

/-- A text of nothing but spaces; it may be empty. -/
def Spaces (cs : List Char) : Prop := ∀ c ∈ cs, isSpace c = true

instance (cs : List Char) : Decidable (Spaces cs) :=
  decidable_of_iff (cs.all isSpace = true) List.all_eq_true

/-- The line is the word, with spaces in front of it and behind it. -/
inductive IsAlone (word : List Char) : List Char → Prop
  | mk {front back : List Char} (hfront : Spaces front) (hback : Spaces back) :
      IsAlone word (front ++ word ++ back)

/-- The line is the word and the argument with at least one space between them, and with spaces in
front of the word and behind the argument. The argument holds something, and has no space at its
ends. -/
inductive IsBefore (word argument : List Char) : List Char → Prop
  | mk {front gap back : List Char} (hfront : Spaces front) (hgap : Spaces gap) (hne : gap ≠ [])
      (hargument : Trimmed argument) (hback : Spaces back) :
      IsBefore word argument (front ++ word ++ gap ++ argument ++ back)

/-- A text that holds something, and no spaces. -/
structure IsWord (word : List Char) : Prop where
  ne_nil : word ≠ []
  no_space : ∀ c ∈ word, isSpace c = false

variable {word source cs : List Char}

/-- **A line is a word alone** exactly if that is its first word and the argument is empty. -/
theorem isAlone_iff (hword : IsWord word) :
    IsAlone word cs ↔ firstWord cs = word ∧ argument cs = [] := by
  constructor
  · rintro ⟨hfront, hback⟩
    obtain ⟨hfirst, hargument⟩ := firstWord_append hword.ne_nil hword.no_space hfront
      fun c hc => hback c (List.mem_of_head? hc)
    rw [List.append_assoc]
    exact ⟨hfirst, hargument.trans (trim_eq_nil_iff.mpr hback)⟩
  · rintro ⟨rfl, hnil⟩
    obtain ⟨front, behind, hcs, hfront, -, hargument⟩ := exists_firstWord cs
    have hline : IsAlone (firstWord cs) (front ++ firstWord cs ++ behind) :=
      .mk hfront (trim_eq_nil_iff.mp (hargument.symm.trans hnil))
    rwa [List.append_assoc, ← hcs] at hline

/-- **A line is a word before an argument** exactly if these are its first word and its argument,
and the argument is not empty. -/
theorem isBefore_iff (hword : IsWord word) :
    IsBefore word source cs ↔ firstWord cs = word ∧ argument cs = source ∧ source ≠ [] := by
  constructor
  · rintro @⟨front, gap, back, hfront, hgap, hne, hsource, hback⟩
    obtain ⟨space, spaces, rfl⟩ := List.exists_cons_of_ne_nil hne
    have hbehind :
        ∀ c, (space :: spaces ++ (source ++ back)).head? = some c → isSpace c = true := by
      intro c hc
      exact hgap c (Option.some.inj hc ▸ List.mem_cons_self)
    obtain ⟨hfirst, hargument⟩ := firstWord_append hword.ne_nil hword.no_space hfront hbehind
    rw [hsource.trim_append hgap hback] at hargument
    simp only [List.append_assoc] at hfirst hargument ⊢
    exact ⟨hfirst, hargument, hsource.ne_nil⟩
  · rintro ⟨rfl, rfl, hne⟩
    obtain ⟨front, behind, hcs, hfront, hhead, hargument⟩ := exists_firstWord cs
    obtain ⟨gap, back, hbehind, hgap, hback⟩ := exists_append_trim behind
    rw [← hargument] at hbehind
    have htrimmed : Trimmed (argument cs) := hargument ▸ trimmed_trim (hargument ▸ hne)
    -- Without a gap, the argument would begin with the space that stands behind the word.
    have hgap_ne : gap ≠ [] := by
      rintro rfl
      obtain ⟨c, more, hc⟩ := List.exists_cons_of_ne_nil hne
      have hspace : isSpace c = true := hhead c (by rw [hbehind, hc]; rfl)
      rw [htrimmed.head c (by rw [hc]; rfl)] at hspace
      cases hspace
    have hline : IsBefore (firstWord cs) (argument cs)
        (front ++ firstWord cs ++ gap ++ argument cs ++ back) :=
      .mk hfront hgap hgap_ne htrimmed hback
    simp only [List.append_assoc] at hline
    rwa [← hbehind, ← hcs] at hline

/-! ## The lines of each command -/

namespace Command

/-- **The lines that a command is written as.** -/
def IsWritten (l : String) : Command → Prop
  | help => IsAlone "help".toList l.toList
  | quit => IsAlone "quit".toList l.toList ∨ IsAlone "exit".toList l.toList
  | store => IsAlone "symbols".toList l.toList
  | listing source => IsBefore "dump".toList source.toList l.toList
  | graph source => IsBefore "dot".toList source.toList l.toList

theorem ofWord?_eq_some_iff {word : String} {source : List Char} {c : Command} :
    ofWord? word source = some c ↔
      match c with
      | help => word = "help" ∧ source = []
      | quit => (word = "quit" ∨ word = "exit") ∧ source = []
      | store => word = "symbols" ∧ source = []
      | listing text => word = "dump" ∧ source = text.toList ∧ text.toList ≠ []
      | graph text => word = "dot" ∧ source = text.toList ∧ text.toList ≠ [] := by
  cases source with
  | nil =>
    simp only [ofWord?, List.isEmpty_nil]
    cases c <;> grind
  | cons d ds =>
    simp only [ofWord?, List.isEmpty_cons]
    cases c <;> grind [String.toList_ofList, String.ofList_toList]

theorem isWord_of_mem {word : String}
    (h : word ∈ ["help", "quit", "exit", "symbols", "dump", "dot"]) : IsWord word.toList := by
  have hall : ∀ w ∈ ["help", "quit", "exit", "symbols", "dump", "dot"],
      w.toList ≠ [] ∧ w.toList.all (!isSpace ·) = true := by decide
  exact ⟨(hall word h).1, by simpa using (hall word h).2⟩

/-- The command that a line is recognised as is the one that it is written as. -/
theorem ofLine?_eq_some_iff {l : String} {c : Command} : ofLine? l = some c ↔ c.IsWritten l := by
  have hword : ∀ w : String, String.ofList (firstWord l.toList) = w ↔
      firstWord l.toList = w.toList := fun w => by
    rw [← String.toList_inj, String.toList_ofList]
  have hline : ofLine? l = ofWord? (String.ofList (firstWord l.toList)) (argument l.toList) := rfl
  rw [hline, ofWord?_eq_some_iff]
  cases c with
  | help | store =>
    simp only [IsWritten]
    rw [isAlone_iff (isWord_of_mem (by decide)), hword]
  | quit =>
    simp only [IsWritten]
    rw [isAlone_iff (isWord_of_mem (by decide)), isAlone_iff (isWord_of_mem (by decide)), hword,
      hword, or_and_right]
  | listing source | graph source =>
    simp only [IsWritten]
    rw [isBefore_iff (isWord_of_mem (by decide)), hword]

/-- **Exactly the language of commands is recognised.** A line is recognised as a command if and
only if it is written as that command, and is no command if and only if it is written as none. No
line is written as two commands, so the argument of a line is the only one that it is written with,
whatever spaces stand around it. -/
theorem ofLine?_recognises_language (l : String) :
    (∀ c, ofLine? l = some c ↔ c.IsWritten l) ∧
    (ofLine? l = none ↔ ∀ c : Command, ¬ c.IsWritten l) ∧
      ∀ c d : Command, c.IsWritten l → d.IsWritten l → c = d := by
  refine ⟨fun c => ofLine?_eq_some_iff, ?_, fun c d hc hd => ?_⟩
  · rw [Option.eq_none_iff_forall_ne_some]
    exact forall_congr' fun c => not_congr ofLine?_eq_some_iff
  · rw [← ofLine?_eq_some_iff] at hc hd
    exact Option.some.inj (hc.symm.trans hd)

/-- A line with spaces of several kinds, some of them inside the argument. -/
theorem ofLine?_recognises_language_of_wide_spaces :
    let argument := "1 +\u00a0 2"
    let l := "\u3000dump\u2003\t" ++ argument ++ " \r\n"
    (listing argument).IsWritten l ∧ ofLine? l = some (.listing argument) ∧
      ∀ d : Command, d.IsWritten l → .listing argument = d := by
  intro argument l
  have hargument : argument.toList = ['1', ' ', '+', '\u00a0', ' ', '2'] := by decide
  have htrimmed : Trimmed argument.toList := by
    rw [hargument]
    exact ⟨by decide, fun _ h => Option.some.inj h ▸ rfl, fun _ h => Option.some.inj h ▸ rfl⟩
  have hl : l.toList = ['\u3000'] ++ "dump".toList ++ ['\u2003', '\t'] ++ argument.toList ++
      [' ', '\r', '\n'] := by decide
  have hwritten : (listing argument).IsWritten l := by
    rw [IsWritten, hl]
    exact .mk (by decide) (by decide) (by decide) htrimmed (by decide)
  obtain ⟨hsome, -, hunique⟩ := ofLine?_recognises_language l
  exact ⟨hwritten, (hsome _).mpr hwritten, fun d => hunique _ d hwritten⟩

end Command

end LineCalc
