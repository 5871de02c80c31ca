import LineCalc.Proofs.Text.Lines

/-!
# The order of texts and the order of their bytes

Texts are compared by their first different character. Their encodings are compared by the first
different byte, and that is the same order: of two characters the greater one has the greater
encoding, and the two encodings differ before either of them ends.

* `BytesBefore` compares texts by their bytes.
* `encodeChar_append_lt` is about the characters in which two texts differ, and
  `bytesBefore_of_lt` about texts.
-/

namespace LineCalc

/-- The bytes of a text come before those of another one in the order of lists of bytes. -/
def BytesBefore (s t : String) : Prop := s.toUTF8.data.toList < t.toUTF8.data.toList

section Bytes

variable {m n : Nat}

theorem ofNat_lt_ofNat_iff (hm : m < 256) (hn : n < 256) :
    UInt8.ofNat m < UInt8.ofNat n ↔ m < n := by
  rw [UInt8.lt_iff_toNat_lt, UInt8.toNat_ofNat', UInt8.toNat_ofNat', Nat.mod_eq_of_lt hm,
    Nat.mod_eq_of_lt hn]

theorem ofNat_eq_ofNat_iff (hm : m < 256) (hn : n < 256) :
    UInt8.ofNat m = UInt8.ofNat n ↔ m = n := by
  rw [← UInt8.toNat_inj, UInt8.toNat_ofNat', UInt8.toNat_ofNat', Nat.mod_eq_of_lt hm,
    Nat.mod_eq_of_lt hn]

/-- Numbers are compared by the first difference in their groups of six bits. -/
theorem sextets_lt (h : m < n) :
    m / 262144 < n / 262144 ∨ m / 262144 = n / 262144 ∧
      (m / 4096 % 64 < n / 4096 % 64 ∨ m / 4096 % 64 = n / 4096 % 64 ∧
        (m / 64 % 64 < n / 64 % 64 ∨ m / 64 % 64 = n / 64 % 64 ∧ m % 64 < n % 64)) := by
  omega

end Bytes

/-- **The greater character has the greater encoding**, whatever follows the two. -/
theorem encodeChar_append_lt {c d : Char} (h : c < d) (xs ys : List UInt8) :
    String.utf8EncodeChar c ++ xs < String.utf8EncodeChar d ++ ys := by
  have hlt : c.val.toNat < d.val.toNat := h
  have hbound : d.val.toNat < 0x110000 := by
    rcases d.valid with hd | hd
    · exact Nat.lt_trans hd (by decide)
    · exact hd.2
  unfold String.utf8EncodeChar
  generalize c.val.toNat = m at hlt
  generalize d.val.toNat = n at hlt hbound
  dsimp only
  -- The lead byte of four has room for three bits, and no character needs more.
  have hm : m / 262144 % 8 = m / 262144 := by omega
  have hn : n / 262144 % 8 = n / 262144 := by omega
  rw [hm, hn]
  have hsextets := sextets_lt hlt
  -- A longer encoding has a greater lead byte; encodings of one length differ in a group of bits.
  repeat' split
  all_goals
    simp (disch := omega) only [List.cons_append, List.nil_append, List.cons_lt_cons_iff,
      ofNat_lt_ofNat_iff, ofNat_eq_ofNat_iff, Nat.add_lt_add_iff_right, Nat.add_right_cancel_iff]
    omega

theorem flatMap_encodeChar_lt {cs ds : List Char} (h : cs < ds) :
    cs.flatMap String.utf8EncodeChar < ds.flatMap String.utf8EncodeChar := by
  induction h with
  | @nil d ds =>
    obtain ⟨b, bs, hb⟩ := List.exists_cons_of_ne_nil (String.utf8EncodeChar_ne_nil (c := d))
    rw [List.flatMap_nil, List.flatMap_cons, hb]
    exact .nil
  | cons h ih =>
    rw [List.flatMap_cons, List.flatMap_cons]
    exact List.append_left_lt ih
  | rel h =>
    rw [List.flatMap_cons, List.flatMap_cons]
    exact encodeChar_append_lt h _ _

/-- **Texts in their order have bytes in that order.** -/
theorem bytesBefore_of_lt {s t : String} (h : s < t) : BytesBefore s t := by
  unfold BytesBefore
  rw [toList_toUTF8, toList_toUTF8]
  exact flatMap_encodeChar_lt h

end LineCalc
