import LineCalc.Proofs.Token.Numeral
import LineCalc.Proofs.Token.LineEnd

/-!
# Characters of written numbers

The texts of numbers consist of digits, points, signs and a few letters.

* `Decimal.isPoint_of_mem_plain` and `Decimal.isNumberPart_of_mem_scientific`: the characters of the
  two ways to write a decimal.
* `Binary64.isPlainPart_of_mem_plainChars`: the characters of the text of a result, which leave the
  letter out that an error starts with.
* `Binary64.oneLine_plain`, `Binary64.oneLine_fixed` and `Binary64.oneLine_explicit`: none of the
  three texts of a number has a line end in it.
* `Binary64.plain_inj`: numbers without signs have different texts.
-/

namespace LineCalc

namespace Decimal

/-- A decimal by position consists of digits and a point. -/
theorem isDigit_or_eq_of_mem_plain {d : Decimal} {c : Char} (h : c ∈ d.plain) :
    c.isDigit = true ∨ c = '.' := by
  have hn := d.numeral_plain
  rw [← chars_numeral, Numeral.chars, hn.exponent_eq_none, Numeral.exponentChars,
    List.append_nil, List.mem_append] at h
  rcases h with h | h
  · exact Or.inl (hn.whole_digits c h)
  · cases hf : d.numeral.fraction with
    | none =>
      rw [hf] at h
      cases h
    | some digits =>
      rw [hf, Numeral.fractionChars, List.mem_cons] at h
      rcases h with rfl | h
      · exact Or.inr rfl
      · exact Or.inl (hn.fraction_digits digits hf c h)

theorem isNumberPart_of_mem_plain {d : Decimal} : ∀ c ∈ d.plain, isNumberPart c = true := by
  intro c hc
  rcases isDigit_or_eq_of_mem_plain hc with h | rfl
  · simp [isNumberPart, h]
  · decide

theorem isNumberPart_of_mem_figures {d : Decimal} : ∀ c ∈ d.figures, isNumberPart c = true := by
  intro c hc
  simp [isNumberPart, isDigit_of_mem_figures hc]

theorem isNumberPart_of_mem_signedFigures {n : Int} :
    ∀ c ∈ signedFigures n, isNumberPart c = true := by
  have hdigits : ∀ k, ∀ c ∈ Nat.toDigits 10 k, isNumberPart c = true := by
    intro k c hc
    simp [isNumberPart, Nat.isDigit_of_mem_toDigits (by decide) (by decide) hc]
  cases n with
  | ofNat k => exact hdigits k
  | negSucc k => exact List.forall_mem_cons.mpr ⟨by decide, hdigits (k + 1)⟩

theorem isNumberPart_of_mem_scientific {d : Decimal} :
    ∀ c ∈ d.scientific, isNumberPart c = true := by
  have hf := isNumberPart_of_mem_figures (d := d)
  unfold scientific
  refine List.forall_mem_append.mpr
    ⟨?_, List.forall_mem_cons.mpr ⟨by decide, isNumberPart_of_mem_signedFigures⟩⟩
  split <;> rename_i heq
  · exact fun _ hc => nomatch hc
  · rw [heq] at hf
    exact hf
  · rw [heq, List.forall_mem_cons] at hf
    exact List.forall_mem_cons.mpr ⟨hf.1, List.forall_mem_cons.mpr ⟨by decide, hf.2⟩⟩

end Decimal

/-! ## Results -/

/-- Whether a character can stand in the text of a result. -/
def isPlainPart (c : Char) : Bool :=
  c.isDigit || c == '.' || c == '-' || c == 'N' || c == 'a' || c == 'i' || c == 'n' || c == 'f'

namespace Binary64

/-- A text whose finite magnitudes are written by position consists of digits, points, signs and the
letters of what is not finite. -/
theorem isPlainPart_of_mem_charsWith (decimal : Magnitude → Decimal) (x : Binary64) :
    ∀ c ∈ x.charsWith fun m => (decimal m).plain, isPlainPart c = true := by
  have hplain : ∀ d : Decimal, ∀ c ∈ d.plain, isPlainPart c = true := by
    intro d c hc
    rcases Decimal.isDigit_or_eq_of_mem_plain hc with h | rfl
    · simp [isPlainPart, h]
    · decide
  match x with
  | nan | infinite false | infinite true => exact List.all_eq_true.mp rfl
  | finite false m => exact hplain _
  | finite true m => exact List.forall_mem_cons.mpr ⟨by decide, hplain _⟩

theorem isPlainPart_of_mem_plainChars {x : Binary64} :
    ∀ c ∈ x.plainChars, isPlainPart c = true := isPlainPart_of_mem_charsWith _ x

theorem oneLine_plain (x : Binary64) : OneLine x.plain := by
  refine .of_forall (p := isPlainPart) ?_ (by decide)
  rw [plain, String.toList_ofList]
  exact isPlainPart_of_mem_plainChars

theorem oneLine_fixed (x : Binary64) : OneLine x.fixed := by
  refine .of_forall (p := isPlainPart) ?_ (by decide)
  rw [fixed, String.toList_ofList]
  exact isPlainPart_of_mem_charsWith _ x

/-- The text of a number without a sign starts with a digit. -/
theorem head?_plain (m : Magnitude) :
    (finite false m).plain.toList.head?.any Char.isDigit = true := by
  have hn := (Decimal.shortest m).numeral_plain
  obtain ⟨c, cs, hcs⟩ := List.exists_cons_of_ne_nil hn.whole_ne_nil
  have hc : c.isDigit = true := hn.whole_digits c (hcs ▸ List.mem_cons_self)
  have hplain : (finite false m).plain.toList = (Decimal.shortest m).numeral.chars := by
    rw [Decimal.chars_numeral, plain, String.toList_ofList]
    rfl
  rw [hplain, Numeral.chars, hcs]
  exact hc

/-- **Different numbers have different texts**, as long as they have no signs: each text reads back
as the number. -/
theorem plain_inj {m m' : Magnitude} (h : (finite false m).plain = (finite false m').plain) :
    m = m' := by
  have hchars : (Decimal.shortest m).numeral.chars = (Decimal.shortest m').numeral.chars := by
    rw [Decimal.chars_numeral, Decimal.chars_numeral]
    exact String.ofList_injective h
  have hread : ∀ d : Decimal, Numeral.read? d.numeral.chars = some (d.numeral, []) := by
    intro d
    have hd := d.numeral_plain.read?_chars atBoundary_nil
    rwa [List.append_nil] at hd
  have hnumeral : (Decimal.shortest m).numeral = (Decimal.shortest m').numeral := by
    have hsome := hread (Decimal.shortest m)
    rw [hchars, hread] at hsome
    exact (congrArg Prod.fst (Option.some.inj hsome)).symm
  have hm := Decimal.nearest_decimal_numeral (Decimal.nearest_shortest m)
  rw [hnumeral, Decimal.nearest_decimal_numeral (Decimal.nearest_shortest m')] at hm
  exact (Option.some.inj hm).symm

/-- What stands for a number inside a token consists of the characters of number literals. -/
theorem isNumberPart_of_mem_explicitDecimal {d : Decimal} :
    ∀ c ∈ explicitDecimal d, isNumberPart c = true := by
  unfold explicitDecimal
  split
  · exact Decimal.isNumberPart_of_mem_scientific
  · split
    · exact List.forall_mem_append.mpr
        ⟨Decimal.isNumberPart_of_mem_plain, List.all_eq_true.mp (by decide)⟩
    · exact Decimal.isNumberPart_of_mem_plain

theorem oneLine_explicit (m : Magnitude) : OneLine (finite false m).explicit := by
  refine .of_forall (p := isNumberPart) ?_ (by decide)
  rw [explicit, String.toList_ofList]
  exact isNumberPart_of_mem_explicitDecimal

end Binary64

end LineCalc
