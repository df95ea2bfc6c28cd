import Scriptlet.Host.Filter
import Scriptlet.Command.Reader

namespace Scriptlet.Command

def complaint (rule : String) (flaw : Directive.Flaw) : String :=
  s!"ignoring `{rule}`: {flaw.message}\n"

/-- The program as it is started; `filter` is what its observer wants to be told. Nothing is done if
reading the filter broke off. -/
def launch (fuel : Nat) (filter : Filter) (arguments : List String) : Dialogue Nat :=
  let complaints := filter.rejected.map fun (rule, flaw) => complaint rule flaw
  match filter.torn with
  | some rule => do
    protest complaints
    Dialogue.request (.complain s!"`{rule}`: {Directive.Flaw.torn.message}\n")
    pure 101
  | none => run fuel complaints Options.read arguments

end Scriptlet.Command
