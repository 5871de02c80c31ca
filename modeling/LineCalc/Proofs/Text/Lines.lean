import LineCalc.Text.Lines

/-!
# The lines of texts and of bytes

A text and its bytes are cut at the same places, and every line of bytes is decoded to the line of
the text.

* `piecesAfter_append_cons`: the first piece of a list goes up to the first end in it.
* `piecesAfter_flatMap`: pieces can be taken before or after every element is replaced by some
  elements, if ends are replaced by ends and nothing else is.
* `fullLines` are the lines of a text with their line ends, and `byteLines_toUTF8` says that they
  are what the lines of its bytes decode to.
* `lines_eq_map_fullLines` and `exists_lineEnd`: the other lines of a text are the same without
  their line ends.
* `lines_append_newline`: a text of full lines is cut into what was put together.

A whole number is written with its digits. So there is no line end in it, and it can be read back
where the text goes on with something other than a digit.

* `EndsNumber` says that of the text that follows a number.
* `toString_append_inj`: the number and the text behind it are determined.
-/

namespace LineCalc

/-! ## Pieces -/

section Pieces

variable {α β : Type} {isEnd : α → Bool} {isEnd' : β → Bool}

theorem piecesAfter_cons_of_pos {x : α} (h : isEnd x = true) (xs : List α) :
    piecesAfter isEnd (x :: xs) = [x] :: piecesAfter isEnd xs := by
  rw [piecesAfter, if_pos h]

/-- What stands before the first end belongs to the first piece. -/
theorem piecesAfter_append {xs : List α} (hne : xs ≠ []) (h : ∀ x ∈ xs, isEnd x = false)
    (ys : List α) :
    piecesAfter isEnd (xs ++ ys) =
      match piecesAfter isEnd ys with
      | [] => [xs]
      | piece :: pieces => (xs ++ piece) :: pieces := by
  induction xs with
  | nil => exact absurd rfl hne
  | cons x xs ih =>
    obtain ⟨hx, hxs⟩ := List.forall_mem_cons.mp h
    rw [List.cons_append, piecesAfter, if_neg (Bool.eq_false_iff.mp hx)]
    cases xs with
    | nil =>
      rw [List.nil_append]
      cases piecesAfter isEnd ys <;> rfl
    | cons x' xs =>
      rw [ih (List.cons_ne_nil _ _) hxs]
      cases piecesAfter isEnd ys <;> rfl

theorem piecesAfter_append_cons {xs : List α} {y : α} (h : ∀ x ∈ xs, isEnd x = false)
    (hy : isEnd y = true) (ys : List α) :
    piecesAfter isEnd (xs ++ y :: ys) = (xs ++ [y]) :: piecesAfter isEnd ys := by
  cases xs with
  | nil => exact piecesAfter_cons_of_pos hy ys
  | cons x xs =>
    rw [piecesAfter_append (List.cons_ne_nil _ _) h, piecesAfter_cons_of_pos hy]

/-- Taking pieces commutes with replacing every element by some elements, if an end is replaced by
one end, and what is no end by elements that are none. -/
theorem piecesAfter_flatMap {f : α → List β}
    (hend : ∀ a, isEnd a = true → ∃ b, f a = [b] ∧ isEnd' b = true)
    (hother : ∀ a, isEnd a = false → f a ≠ [] ∧ ∀ b ∈ f a, isEnd' b = false) (xs : List α) :
    piecesAfter isEnd' (xs.flatMap f) = (piecesAfter isEnd xs).map (List.flatMap f) := by
  induction xs with
  | nil => rfl
  | cons x xs ih =>
    rw [List.flatMap_cons, piecesAfter]
    by_cases hx : isEnd x = true
    · obtain ⟨b, hb, hb'⟩ := hend x hx
      rw [if_pos hx, hb, List.singleton_append, piecesAfter_cons_of_pos hb', ih, List.map_cons,
        List.flatMap_singleton, hb]
    · obtain ⟨hne, hno⟩ := hother x (Bool.eq_false_iff.mpr hx)
      rw [if_neg hx, piecesAfter_append hne hno, ih]
      cases piecesAfter isEnd xs <;> simp

end Pieces

/-! ## Bytes -/

theorem newline_eq_ofNat_iff {n : Nat} : 10 = UInt8.ofNat n ↔ n % 256 = 10 := by
  rw [← UInt8.toNat_inj, UInt8.toNat_ofNat']
  exact eq_comm

/-- The byte of a line feed is in the encoding of no other character. -/
theorem newline_mem_utf8EncodeChar_iff {c : Char} :
    10 ∈ String.utf8EncodeChar c ↔ c = '\n' := by
  constructor
  · intro h
    -- The bytes of a character beyond ASCII are at least 0x80.
    have hc : c.val.toNat = 10 := by
      unfold String.utf8EncodeChar at h
      generalize c.val.toNat = n at h
      dsimp only at h
      split at h
      · rw [List.mem_singleton, newline_eq_ofNat_iff] at h
        omega
      · split at h <;> try split at h
        all_goals
          simp only [List.mem_cons, newline_eq_ofNat_iff, List.not_mem_nil, or_false] at h
          omega
    exact Char.toNat_inj.mp hc
  · rintro rfl
    decide

theorem toList_toUTF8 (text : String) :
    text.toUTF8.data.toList = text.toList.flatMap String.utf8EncodeChar := by
  rw [String.toUTF8_eq_toByteArray, ← String.utf8Encode_toList, List.utf8Encode]
  simp

/-- What was encoded is decoded. -/
theorem decodeLine_flatMap (cs : List Char) :
    decodeLine (cs.flatMap String.utf8EncodeChar) = some (String.ofList cs) := by
  have h : decodeLine (cs.flatMap String.utf8EncodeChar) = String.fromUTF8? cs.utf8Encode := by
    unfold decodeLine List.utf8Encode
    congr 1
    apply ByteArray.ext
    simp
  rw [h, String.fromUTF8?, dif_pos ByteArray.isValidUTF8_utf8Encode]
  rfl

/-- The lines of a text, with their line ends. -/
def fullLines (text : String) : List String :=
  (piecesAfter (· == '\n') text.toList).map String.ofList

/-- **The lines of the bytes of a text are decoded to the lines of the text.** -/
theorem byteLines_toUTF8 (text : String) :
    (byteLines text.toUTF8).map decodeLine = (fullLines text).map some := by
  have hcut : byteLines text.toUTF8 =
      (piecesAfter (· == '\n') text.toList).map (List.flatMap String.utf8EncodeChar) := by
    unfold byteLines
    rw [toList_toUTF8]
    refine piecesAfter_flatMap (fun c hc => ⟨10, ?_, rfl⟩) (fun c hc => ⟨by simp, fun b hb => ?_⟩) _
    · rw [beq_iff_eq.mp hc]
      decide
    · rw [beq_eq_false_iff_ne]
      rintro rfl
      rw [newline_mem_utf8EncodeChar_iff.mp hb] at hc
      cases hc
  rw [hcut, fullLines, List.map_map, List.map_map]
  exact List.map_congr_left fun cs _ => decodeLine_flatMap cs

/-! ## Line ends -/

/-- What stands behind a line in a text. -/
def IsLineEnd (cs : List Char) : Prop := cs = [] ∨ cs = ['\n'] ∨ cs = ['\r', '\n']

/-- A line is what it is without its line end, and that line end. -/
theorem exists_lineEnd (piece : List Char) :
    ∃ ending, piece = chomp piece ++ ending ∧ IsLineEnd ending := by
  unfold chomp
  split
  · rename_i rest h
    refine ⟨['\r', '\n'], ?_, Or.inr (Or.inr rfl)⟩
    rw [← List.reverse_inj, h]
    simp
  · rename_i rest h
    refine ⟨['\n'], ?_, Or.inr (Or.inl rfl)⟩
    rw [← List.reverse_inj, h]
    simp
  · exact ⟨[], (List.append_nil _).symm, Or.inl rfl⟩

/-- A line without its line end. -/
def chompLine (l : String) : String := String.ofList (chomp l.toList)

theorem lines_eq_map_fullLines (text : String) : lines text = (fullLines text).map chompLine := by
  unfold lines fullLines
  rw [List.map_map]
  exact List.map_congr_left fun cs _ => by simp [chompLine]

/-- A line feed ends a line, and only that is taken away if no carriage return is before it. -/
theorem chomp_append_newline {cs : List Char} (h : '\r' ∉ cs) : chomp (cs ++ ['\n']) = cs := by
  unfold chomp
  rw [List.reverse_append, List.reverse_singleton, List.singleton_append]
  split
  · rename_i rest hr
    rw [List.cons.injEq] at hr
    exact absurd (List.mem_reverse.mp (hr.2 ▸ List.mem_cons_self)) h
  · rename_i rest _ hr
    rw [List.cons.injEq] at hr
    rw [← hr.2, List.reverse_reverse]
  · rename_i _ hr
    exact absurd rfl (hr _)

/-- The text has no line ends in it. -/
def OneLine (text : String) : Prop := '\n' ∉ text.toList ∧ '\r' ∉ text.toList

instance (text : String) : Decidable (OneLine text) := inferInstanceAs (Decidable (_ ∧ _))

namespace OneLine

variable {text other : String}

/-- A text of characters of a class without the line ends. -/
theorem of_forall {p : Char → Bool} (h : ∀ c ∈ text.toList, p c = true)
    (hp : p '\n' = false ∧ p '\r' = false) : OneLine text := by
  constructor
  · intro hn
    rw [h _ hn] at hp
    cases hp.1
  · intro hr
    rw [h _ hr] at hp
    cases hp.2

theorem append (h : OneLine text) (h' : OneLine other) : OneLine (text ++ other) := by
  unfold OneLine
  rw [String.toList_append, List.mem_append, List.mem_append, not_or, not_or]
  exact ⟨⟨h.1, h'.1⟩, ⟨h.2, h'.2⟩⟩

end OneLine

/-- A line in front of a text is its first line. -/
theorem lines_append_newline {l : String} (h : OneLine l) (text : String) :
    lines (l ++ "\n" ++ text) = l :: lines text := by
  have htext : (l ++ "\n" ++ text).toList = l.toList ++ '\n' :: text.toList := by simp
  have hno : ∀ c ∈ l.toList, (c == '\n') = false := by
    intro c hc
    rw [beq_eq_false_iff_ne]
    rintro rfl
    exact h.1 hc
  unfold lines
  rw [htext, piecesAfter_append_cons hno rfl, List.map_cons, chomp_append_newline h.2,
    String.ofList_toList]

/-! ## Whole numbers -/

theorem isDigit_of_mem_toString {n : Nat} : ∀ c ∈ (toString n).toList, c.isDigit = true := by
  rw [Nat.toString_eq_ofList_toDigits, String.toList_ofList]
  exact fun c hc => Nat.isDigit_of_mem_toDigits (by decide) (by decide) hc

theorem oneLine_toString (n : Nat) : OneLine (toString n) :=
  .of_forall isDigit_of_mem_toString (by decide)

/-- A number in front of the text ends where the text begins. -/
def EndsNumber (s : String) : Prop := s.toList.head?.any Char.isDigit = false

instance (s : String) : Decidable (EndsNumber s) := inferInstanceAs (Decidable (_ = _))

theorem EndsNumber.append {s : String} (hs : EndsNumber s) (hne : s ≠ "") (t : String) :
    EndsNumber (s ++ t) := by
  unfold EndsNumber at hs ⊢
  rw [String.toList_append]
  cases hcs : s.toList with
  | nil => exact absurd (String.toList_eq_nil_iff.mp hcs) hne
  | cons c cs => rwa [hcs] at hs

theorem takeWhile_toString_append (n : Nat) {s : String} (hs : EndsNumber s) :
    (toString n ++ s).toList.takeWhile Char.isDigit = Nat.toDigits 10 n := by
  have hrest : s.toList.takeWhile Char.isDigit = [] := by
    unfold EndsNumber at hs
    cases hcs : s.toList with
    | nil => rfl
    | cons c cs =>
      rw [hcs, List.head?_cons, Option.any_some] at hs
      exact List.takeWhile_cons_of_neg (Bool.eq_false_iff.mp hs)
  rw [String.toList_append, List.takeWhile_append_of_pos isDigit_of_mem_toString, hrest,
    List.append_nil, Nat.toString_eq_ofList_toDigits, String.toList_ofList]

/-- **A number can be read back**, and so can the text behind it. -/
theorem toString_append_inj {m n : Nat} {s t : String} (hs : EndsNumber s) (ht : EndsNumber t)
    (h : toString m ++ s = toString n ++ t) : m = n ∧ s = t := by
  have hdigits : Nat.toDigits 10 m = Nat.toDigits 10 n := by
    rw [← takeWhile_toString_append m hs, h, takeWhile_toString_append n ht]
  have hmn : m = n :=
    calc
      m = Nat.ofDigitChars 10 (Nat.toDigits 10 m) 0 := Nat.ofDigitChars_ten_toDigits.symm
      _ = Nat.ofDigitChars 10 (Nat.toDigits 10 n) 0 := by rw [hdigits]
      _ = n := Nat.ofDigitChars_ten_toDigits
  rw [hmn] at h
  exact ⟨hmn, (String.append_right_inj _).mp h⟩

end LineCalc
