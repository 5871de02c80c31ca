/-!
# Text for a terminal

A terminal obeys some characters where it shows others. A text that quotes an input can hold such
characters, and is written with escapes in their place. The trace is written so (specification,
10.9).

* `isSteering` says which characters a terminal obeys, line ends and tabs apart, which only lay out
  a text.
* `disarm` is the written form of one character, `disarmed` that of a text.
* `not_isSteering_of_mem_disarm`: a terminal obeys nothing in a written form.
-/

namespace LineCalc

/-- Whether a character is in the second block of control characters. -/
def isUpperControl (c : Char) : Bool := 0x80 ≤ c.toNat && c.toNat ≤ 0x9f

/-- Whether a character is one of the lower controls that a terminal obeys: bell, backspace, form
feed, escape and delete. -/
def isLowerControl (c : Char) : Bool :=
  c == '\x07' || c == '\x08' || c == '\x0c' || c == '\x1b' || c == '\x7f'

/-- Whether a terminal obeys a character. -/
def isSteering (c : Char) : Bool := isLowerControl c || isUpperControl c

/-- The two hexadecimal digits of a number below 256. -/
def hexPair (n : Nat) : List Char := [Nat.digitChar (n / 16), Nat.digitChar (n % 16)]

/-- The written form of a character: the code of one that a terminal obeys, and the character itself
else. -/
def disarm (c : Char) : List Char :=
  if isLowerControl c then '\\' :: 'x' :: hexPair c.toNat
  else if isUpperControl c then '\\' :: 'u' :: '\x7b' :: hexPair c.toNat ++ ['\x7d']
  else [c]

/-- The written form of a text. -/
def disarmed (s : String) : String := String.ofList (s.toList.flatMap disarm)

theorem not_isSteering_digitChar {n : Nat} (h : n < 16) : isSteering (Nat.digitChar n) = false := by
  have hd : ∀ m < 16, isSteering (Nat.digitChar m) = false := by decide
  exact hd n h

theorem not_isSteering_of_mem_hexPair {n : Nat} (h : n < 256) :
    ∀ d ∈ hexPair n, isSteering d = false := by
  intro d hd
  simp only [hexPair, List.mem_cons, List.not_mem_nil, or_false] at hd
  rcases hd with rfl | rfl
  · exact not_isSteering_digitChar (by omega)
  · exact not_isSteering_digitChar (by omega)

theorem toNat_lt_of_isSteering {c : Char} (h : isSteering c = true) : c.toNat < 256 := by
  simp only [isSteering, isLowerControl, isUpperControl, Bool.or_eq_true, Bool.and_eq_true,
    beq_iff_eq, decide_eq_true_eq] at h
  rcases h with ((((rfl | rfl) | rfl) | rfl) | rfl) | h
  · decide
  · decide
  · decide
  · decide
  · decide
  · omega

/-- A terminal obeys nothing in the written form of a character. -/
theorem not_isSteering_of_mem_disarm {c d : Char} (h : d ∈ disarm c) : isSteering d = false := by
  unfold disarm at h
  split at h
  · rename_i hc
    have hs : isSteering c = true := by simp [isSteering, hc]
    have hp := not_isSteering_of_mem_hexPair (toNat_lt_of_isSteering hs)
    simp only [List.mem_cons] at h
    rcases h with rfl | rfl | h
    · rfl
    · rfl
    · exact hp d h
  · split at h
    · rename_i hc
      have hs : isSteering c = true := by simp [isSteering, hc]
      have hp := not_isSteering_of_mem_hexPair (toNat_lt_of_isSteering hs)
      simp only [List.mem_append, List.mem_cons, List.not_mem_nil, or_false] at h
      rcases h with (rfl | rfl | rfl | h) | rfl
      · rfl
      · rfl
      · rfl
      · exact hp d h
      · rfl
    · simp_all [isSteering]

/-- A text without such characters is its own written form. -/
theorem disarmed_of_not_isSteering {s : String} (h : ∀ c ∈ s.toList, isSteering c = false) :
    disarmed s = s := by
  have e : ∀ cs : List Char, (∀ c ∈ cs, isSteering c = false) → cs.flatMap disarm = cs := by
    intro cs hcs
    induction cs with
    | nil => rfl
    | cons c cs ih =>
      have hc := hcs c (by simp)
      simp only [isSteering, Bool.or_eq_false_iff] at hc
      simp [disarm, hc.1, hc.2, ih fun d hd => hcs d (by simp [hd])]
  simp [disarmed, e s.toList h]

end LineCalc
