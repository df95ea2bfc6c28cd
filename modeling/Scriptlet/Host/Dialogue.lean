import Scriptlet.Host.Refusal
import Scriptlet.Host.Event

namespace Scriptlet

/-- What is asked of the surrounding system. -/
inductive Request
  /-- Standard output. -/
  | write (text : String)
  | flush
  /-- The diagnostic log. -/
  | record (line : String)
  | openLog (path : String)
  | readFile (path : String)
  | writeFile (path text : String)
  | appendFile (path text : String)
  | removeFile (path : String)
  /-- A directory with all that lead to it. -/
  | createDirectories (path : String)
  /-- The next line of standard input, or none at its end. -/
  | readLine
  /-- Standard error. -/
  | complain (text : String)
  /-- Whoever observes the run. -/
  | note (event : Event)

def Request.Answer : Request → Type
  | readFile _ => Except Refusal String
  | readLine => Except Refusal (Option String)
  | complain _ | note _ => Unit
  | _ => Except Refusal Unit

/-- A computation that talks to the surrounding system, as the tree of all talks it can have. It is
`unfinished` where the budget of steps that it was given ran out. -/
inductive Dialogue (α : Type) where
  | done (a : α)
  | unfinished
  | ask (q : Request) (next : q.Answer → Dialogue α)

/-- A system that answers requests, each answer depending on its state. -/
abbrev Host (ω : Type) := (q : Request) → ω → q.Answer × ω

namespace Dialogue

variable {α β ω : Type}

def bind : Dialogue α → (α → Dialogue β) → Dialogue β
  | done a, f => f a
  | unfinished, _ => unfinished
  | ask q next, f => ask q fun a => (next a).bind f

def request (q : Request) : Dialogue q.Answer :=
  ask q done

/-- Has the talk with a given system: the result, if the talk came to an end, and the state that
the system is left in. -/
def run (host : Host ω) : Dialogue α → ω → Option α × ω
  | done a, w => (some a, w)
  | unfinished, w => (none, w)
  | ask q next, w => (next (host q w).1).run host (host q w).2

/-- Has the talk with a system whose answers are effects. -/
def perform {m : Type → Type} [Monad m] (host : (q : Request) → m q.Answer) :
    Dialogue α → m (Option α)
  | done a => pure (some a)
  | unfinished => pure none
  | ask q next => do (next (← host q)).perform host

instance : Monad Dialogue where
  pure := done
  bind := bind

@[simp] theorem bind_done (d : Dialogue α) : d.bind done = d := by
  induction d with
  | done a => rfl
  | unfinished => rfl
  | ask q next ih => simp [bind, ih]

theorem bind_assoc {γ : Type} (d : Dialogue α) (f : α → Dialogue β) (g : β → Dialogue γ) :
    (d.bind f).bind g = d.bind fun a => (f a).bind g := by
  induction d with
  | done a => rfl
  | unfinished => rfl
  | ask q next ih => simp [bind, ih]

theorem run_bind (host : Host ω) (d : Dialogue α) (f : α → Dialogue β) (w : ω) :
    (d.bind f).run host w =
      match d.run host w with
      | (some a, w) => (f a).run host w
      | (none, w) => (none, w) := by
  induction d generalizing w with
  | done a => rfl
  | unfinished => rfl
  | ask q next ih => exact ih _ _

end Dialogue

end Scriptlet
