import LineCalc.Phrase

/-!
# Open parentheses

How many parentheses are open inside a list of tokens. A closing one with nothing to close counts
for nothing.

* `unclosed` counts the parentheses that a list of tokens opens and does not close, and
  `NestsWithin` bounds that count for every front part of a list.
* `Nests` is the bound for tokens that close whatever they open; such lists can be put together
  (`Nests.append`, `Nests.cons`, `Nests.group`).
-/

namespace LineCalc

/-! ## Open parentheses -/

/-- The parentheses that are open behind a token, if `opened` are open in front of it. A closing
one with nothing to close counts for nothing. -/
def Token.openedBehind (opened : Nat) : Token → Nat
  | opening => opened + 1
  | closing => opened - 1
  | _ => opened

/-- The parentheses that are open behind a list of tokens, if `opened` are open in front of it. -/
def openedBehind (opened : Nat) (ts : List Token) : Nat := ts.foldl Token.openedBehind opened

/-- The parentheses that a list of tokens opens and does not close. -/
def unclosed (ts : List Token) : Nat := openedBehind 0 ts

/-- No front part of a list of tokens has more than the given number of unclosed parentheses. -/
def NestsWithin (limit : Nat) (ts : List Token) : Prop :=
  ∀ before, before <+: ts → unclosed before ≤ limit

theorem openedBehind_cons (opened : Nat) (t : Token) (ts : List Token) :
    openedBehind opened (t :: ts) = openedBehind (t.openedBehind opened) ts := rfl

theorem openedBehind_append (opened : Nat) (ts us : List Token) :
    openedBehind opened (ts ++ us) = openedBehind (openedBehind opened ts) us :=
  List.foldl_append

/-- A front part of a list is empty or has the first token and a front part of the others. -/
theorem forall_prefix_cons_iff {P : List Token → Prop} {t : Token} {ts : List Token} :
    (∀ before, before <+: t :: ts → P before) ↔
      P [] ∧ ∀ before, before <+: ts → P (t :: before) := by
  constructor
  · intro h
    exact ⟨h [] List.nil_prefix, fun before hb => h _ (List.cons_prefix_cons.mpr ⟨rfl, hb⟩)⟩
  · rintro ⟨hn, hc⟩ before hb
    rcases List.prefix_cons_iff.mp hb with rfl | ⟨more, rfl, hm⟩
    · exact hn
    · exact hc more hm

/-- A front part of two lists in a row is one of the first list, or the first list and a front part
of the second. -/
theorem forall_prefix_append_iff {P : List Token → Prop} {ts us : List Token} :
    (∀ before, before <+: ts ++ us → P before) ↔
      (∀ before, before <+: ts → P before) ∧ ∀ before, before <+: us → P (ts ++ before) := by
  induction ts generalizing P with
  | nil =>
    simp only [List.nil_append, List.prefix_nil, forall_eq]
    exact ⟨fun h => ⟨h [] List.nil_prefix, h⟩, fun h => h.2⟩
  | cons t ts ih =>
    rw [List.cons_append, forall_prefix_cons_iff, forall_prefix_cons_iff, ih, and_assoc]
    rfl

/-! ## Tokens that close what they open -/

/-- The tokens close what they open, and have at most the given number of parentheses open at a
time, apart from those that are open in front of them. -/
def Nests (depth : Nat) (ts : List Token) : Prop :=
  ∀ opened, openedBehind opened ts = opened ∧
    ∀ before, before <+: ts → openedBehind opened before ≤ opened + depth

namespace Nests

variable {depth more : Nat} {ts us : List Token}

theorem mono (h : Nests depth ts) (hle : depth ≤ more) : Nests more ts := by
  intro opened
  constructor
  · exact (h opened).1
  · intro before hb
    have hd := (h opened).2 before hb
    omega

theorem append (h : Nests depth ts) (h' : Nests depth us) : Nests depth (ts ++ us) := by
  intro opened
  rw [openedBehind_append, (h opened).1, forall_prefix_append_iff]
  refine ⟨(h' opened).1, (h opened).2, ?_⟩
  intro before hb
  rw [openedBehind_append, (h opened).1]
  exact (h' opened).2 before hb

theorem cons {t : Token} (h : Nests depth ts) (ht : ∀ opened, t.openedBehind opened = opened) :
    Nests depth (t :: ts) := by
  intro opened
  rw [forall_prefix_cons_iff, openedBehind_cons, ht opened]
  refine ⟨(h opened).1, Nat.le_add_right _ _, ?_⟩
  intro before hb
  rw [openedBehind_cons, ht opened]
  exact (h opened).2 before hb

theorem nil : Nests 0 [] := by
  intro opened
  constructor
  · rfl
  · intro before hb
    rw [List.prefix_nil.mp hb]
    exact Nat.le_refl opened

/-- Parentheses around the tokens make the nesting one deeper. -/
theorem group (h : Nests depth ts) : Nests (depth + 1) (.opening :: ts ++ [.closing]) := by
  intro opened
  -- Inside, one more is open; the closing parenthesis takes it away again.
  obtain ⟨hclosed, hbound⟩ := h (opened + 1)
  rw [List.cons_append, forall_prefix_cons_iff, forall_prefix_append_iff, forall_prefix_cons_iff]
  simp only [openedBehind_cons, openedBehind_append, Token.openedBehind, hclosed]
  refine ⟨rfl, Nat.le_add_right _ _, ?_, ?_, ?_⟩
  · intro before hb
    have hd := hbound before hb
    omega
  · simp only [openedBehind, List.foldl_nil]
    omega
  · intro before hb
    rw [List.prefix_nil.mp hb]
    simp only [openedBehind, List.foldl_nil]
    omega

/-- The bound for a whole list. -/
theorem nestsWithin (h : Nests depth ts) (hle : depth ≤ more) : NestsWithin more ts := by
  intro before hb
  have hd := (h 0).2 before hb
  unfold unclosed
  omega

end Nests

end LineCalc
