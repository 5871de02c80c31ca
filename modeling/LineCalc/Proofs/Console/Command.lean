import LineCalc.Console

/-!
# What commands do

A command writes something and draws numbers for the nodes it shows. The session is the same behind
it, and no line has failed.

* `Command.reply` is what a command writes, given the variables, the number of its line and the
  number for the next node. `Command.next` is the number for the next node behind it.
* `Console.obey_eq` and `Console.step_command` say everything that a command does to the console.
-/

namespace LineCalc

/-- What there is to show of a line that was read. -/
def LineReply.shownAs (form : Expr → String) (reply : LineReply) : String :=
  match reply.outcome with
  | .ok none => ""
  | .ok (some e) => form e
  | .error e => Console.errorLine (.parsing e)

namespace Command

/-- What a command writes. -/
def reply (store : Store) (line : Nat) (next : NodeId) : Command → String
  | help => overview
  | quit => ""
  | .store => store.listing
  | listing source => (readLine source line next).shownAs Expr.listing
  | graph source => (readLine source line next).shownAs Expr.graph

/-- The number for the next node behind a command. -/
def next (line : Nat) (next : NodeId) : Command → NodeId
  | listing source | graph source => (readLine source line next).nodes.next
  | _ => next

end Command

namespace Console

theorem runShow_eq (c : Console) (form : Expr → String) (source : String) :
    c.runShow form source =
      { c with
        next := (readLine source c.line c.next).nodes.next
        output := c.output ++ (readLine source c.line c.next).shownAs form } := by
  simp only [runShow, LineReply.shownAs]
  cases (readLine source c.line c.next).outcome with
  | error e => simp [report, write, String.join_cons]
  | ok statement? =>
    cases statement? with
    | none => simp
    | some e => rfl

/-- **Everything that a command does to the console.** -/
theorem obey_eq (c : Console) (command : Command) :
    c.obey command =
      { c with
        next := command.next c.line c.next
        output := c.output ++ command.reply c.session.store c.line c.next } := by
  cases command with
  | help => rfl
  | quit => simp [obey, Command.next, Command.reply]
  | store => rfl
  | listing source => exact runShow_eq c _ source
  | graph source => exact runShow_eq c _ source

variable {interactive : Bool} {l : String}

theorem command?_true (l : String) : command? true l = Command.ofLine? l := if_pos rfl

theorem step_command {command : Command} (h : command? interactive l = some command)
    (c : Console) :
    c.step interactive l =
      { session := c.session
        next := command.next (c.line + 1) c.next
        line := c.line + 1
        failed := c.failed
        output := c.output ++ command.reply c.session.store (c.line + 1) c.next } := by
  simp only [step, h, obey_eq]

/-- A line that is no command is a statement in a conversation too. -/
theorem step_of_not_command (h : command? interactive l = none) (c : Console) :
    c.step interactive l = c.step false l := by
  have hfalse : command? false l = none := rfl
  simp only [step, h, hfalse]

end Console

end LineCalc
