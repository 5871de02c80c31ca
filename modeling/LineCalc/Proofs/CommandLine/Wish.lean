import LineCalc.CommandLine

/-!
# What arguments wish for

Arguments are letters and words, and each of them wishes for something: for more trace output, for a
script, for an end of the reading, or for some contents. The options are what is left when all
wishes have been granted in order.

* `Wish.ofArgs` are the wishes of arguments. It looks at nothing but the arguments.
* `Request.arguments_eq`: reading arguments is granting their wishes.
* `Wish.foldlM_grant_silent`: wishes for more trace output change the verbosity only.
* `Request.ofArgs_silent` is about the request that arguments come to.
-/

namespace LineCalc

/-- What a part of an argument wishes for. -/
inductive Wish where
  /-- More trace output. -/
  | verbose
  /-- A script. -/
  | file
  /-- An end of the reading of the arguments. -/
  | settle (request : Request)
  /-- A statement or the path of a script. -/
  | content (text : String)
  deriving DecidableEq

namespace Wish

/-- The wishes of the letters of short options. -/
def ofLetters : List Char → List Wish
  | [] => []
  | 'v' :: cs => verbose :: ofLetters cs
  | 'f' :: cs => file :: ofLetters cs
  | 'h' :: _ => [settle .help]
  | 'V' :: _ => [settle .version]
  | _ => [settle .misuse]

/-- The wish of a long option. -/
def ofName (name : String) : Wish :=
  if name = "verbose" then verbose
  else if name = "file" then file
  else if name = "help" then settle .help
  else if name = "version" then settle .version
  else settle .misuse

/-- The wishes of an argument that may be an option. -/
def ofArg (arg : String) : List Wish :=
  match arg.toList with
  | '-' :: '-' :: name => [ofName (String.ofList name)]
  | '-' :: c :: cs => ofLetters (c :: cs)
  | _ => [content arg]

/-- The wishes of arguments. Two hyphens alone end the options. -/
def ofArgs : List String → List Wish
  | [] => []
  | arg :: args => if arg = "--" then args.map content else ofArg arg ++ ofArgs args

/-- Grants a wish. -/
def grant (o : Options) : Wish → Request.Reading
  | verbose => Request.verbose o
  | file => Request.file o
  | settle request => .error request
  | content text => Request.content o text

end Wish

namespace Request

open Wish (grant ofLetters ofName ofArg)

theorem shortOptions_eq (o : Options) (cs : List Char) :
    shortOptions o cs = (ofLetters cs).foldlM grant o := by
  fun_induction shortOptions o cs with
  | case1 o => rfl
  | case2 o cs ih => simp only [ofLetters, List.foldlM_cons, grant, ih]
  | case3 o cs ih => simp only [ofLetters, List.foldlM_cons, grant, ih]
  | case4 o cs => rfl
  | case5 o cs => rfl
  | case6 cs o hnil hv hf hh hV =>
    have hmisuse : ofLetters cs = [.settle misuse] := by
      unfold ofLetters
      split <;> simp_all
    rw [hmisuse]
    rfl

theorem longOption_eq (o : Options) (name : String) :
    longOption o name = grant o (ofName name) := by
  unfold longOption ofName
  repeat' split
  all_goals rfl

theorem argument_eq (o : Options) (arg : String) : argument o arg = (ofArg arg).foldlM grant o := by
  unfold argument
  split
  · rename_i h
    simp [ofArg, h, longOption_eq]
  · rename_i h
    simp [ofArg, h, shortOptions_eq]
  · simp [ofArg, grant]

/-- **Reading arguments is granting their wishes.** -/
theorem arguments_eq (o : Options) (args : List String) :
    arguments o args = (Wish.ofArgs args).foldlM grant o := by
  induction args generalizing o with
  | nil => rfl
  | cons arg args ih =>
    unfold arguments Wish.ofArgs
    split
    · rw [List.foldlM_map]
      rfl
    · rw [List.foldlM_append, argument_eq]
      simp only [ih]

/-- Letters in a row are wishes of their own, and two hyphens make the rest contents. -/
example : Wish.ofArgs ["-vf", "--verbose", "--", "-v"] =
    [.verbose, .file, .verbose, .content "-v"] := by decide

end Request

/-! ## Wishes for more trace output -/

/-- The options without trace output. -/
def Options.silent (o : Options) : Options := { o with verbosity := 0 }

/-- The request without trace output. -/
def Request.silent : Request → Request
  | run o => run o.silent
  | r => r

namespace Wish

/-- The wishes for anything else than more trace output. -/
def others (wishes : List Wish) : List Wish := wishes.filter (· ≠ verbose)

theorem grant_silent {w : Wish} (h : w ≠ verbose) (o : Options) :
    grant o.silent w = (grant o w).map Options.silent := by
  cases w with
  | verbose => exact absurd rfl h
  | file =>
    by_cases hf : o.isFile = true <;> simp [grant, Request.file, Options.silent, Except.map, hf]
  | settle request => rfl
  | content text =>
    by_cases hc : o.contents?.isSome = true <;>
      simp [grant, Request.content, Options.silent, Except.map, hc]

/-- **Wishes for more trace output change the verbosity and nothing else.** -/
theorem foldlM_grant_silent (wishes : List Wish) (o : Options) :
    (wishes.foldlM grant o).map Options.silent = (others wishes).foldlM grant o.silent := by
  induction wishes generalizing o with
  | nil => rfl
  | cons w wishes ih =>
    unfold others at ih ⊢
    by_cases hw : w = verbose
    · subst hw
      rw [List.filter_cons_of_neg (by decide)]
      exact ih { o with verbosity := o.verbosity + 1 }
    · rw [List.filter_cons_of_pos (by simpa using hw), List.foldlM_cons, List.foldlM_cons,
        grant_silent hw]
      cases grant o w with
      | error r => rfl
      | ok o => exact ih o

end Wish

/-- Apart from the verbosity, arguments come to the request that their other wishes come to. -/
theorem Request.ofArgs_silent {args args' : List String}
    (h : Wish.others (Wish.ofArgs args) = Wish.others (Wish.ofArgs args')) :
    (ofArgs args).silent = (ofArgs args').silent := by
  have hsame : (arguments ⟨0, false, none⟩ args).map Options.silent =
      (arguments ⟨0, false, none⟩ args').map Options.silent := by
    rw [arguments_eq, arguments_eq, Wish.foldlM_grant_silent, Wish.foldlM_grant_silent, h]
  unfold ofArgs
  generalize arguments ⟨0, false, none⟩ args = x at hsame
  generalize arguments ⟨0, false, none⟩ args' = y at hsame
  cases x with
  | error r =>
    cases y with
    | error r' =>
      cases hsame
      rfl
    | ok o' => cases hsame
  | ok o =>
    cases y with
    | error r' => cases hsame
    | ok o' => exact congrArg run (Except.ok.inj hsame)

end LineCalc
