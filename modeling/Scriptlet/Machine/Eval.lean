import Scriptlet.Fault
import Scriptlet.Host.Dialogue

namespace Scriptlet

/-- A computation on a machine that talks to the surrounding system and may fail; what it did to
the machine before it failed stays done. -/
def Eval (α : Type) := Machine → Dialogue (Except RuntimeError α × Machine)

namespace Eval

variable {α β : Type}

def pure (a : α) : Eval α := fun m => .done (.ok a, m)

def bind (x : Eval α) (f : α → Eval β) : Eval β := fun m =>
  (x m).bind fun
    | (.ok a, m) => f a m
    | (.error e, m) => .done (.error e, m)

instance : Monad Eval where
  pure := pure
  bind := bind

def unfinished : Eval α := fun _ => .unfinished

/-- Meets a fault; its place is not known yet. -/
def fail (fault : Fault) : Eval α := fun m => .done (.error ⟨fault, none⟩, m)

def ofExcept : Except Fault α → Eval α
  | .ok a => pure a
  | .error fault => fail fault

def get : Eval Machine := fun m => .done (.ok m, m)

def modify (f : Machine → Machine) : Eval Unit := fun m => .done (.ok (), f m)

def talk (d : Dialogue α) : Eval α := fun m => d.bind fun a => .done (.ok a, m)

def ask (q : Request) : Eval q.Answer := talk (Dialogue.request q)

/-- Takes an answer of the surrounding system, a refusal of which is a fault. -/
def accept (fault : Refusal → Fault) : Except Refusal α → Eval α
  | .ok a => pure a
  | .error reason => fail (fault reason)

def note (event : Event) : Eval Unit := ask (.note event)

/-- Locates errors at `pos`, unless they are located already. -/
def locate (pos : Position) (x : Eval α) : Eval α := fun m =>
  (x m).bind fun (r, m) => .done (r.mapError (·.locate pos), m)

/-- Does `x` in an activation of its own, which ends with `x`, by an error too. -/
def within (name : String) (scope : Scope) (x : Eval α) : Eval α := fun m =>
  (x (m.enter scope)).bind fun (r, m) =>
    (note (.leave name) m).bind fun (_, m) => .done (r, m.leave)

def each (f : α → Eval β) : List α → Eval (List β)
  | [] => pure []
  | a :: rest => bind (f a) fun b => bind (each f rest) fun bs => pure (b :: bs)

/-- Executes statements in order until one of them returns. -/
def block (execute : Statement → Eval Flow) : List Statement → Eval Flow
  | [] => pure .normal
  | s :: rest => bind (execute s) fun
    | .normal => block execute rest
    | .giveBack v => pure (.giveBack v)

section
variable {γ ω : Type}

theorem bind_congr {x : Eval α} {f g : α → Eval β} (h : ∀ a, f a = g a) : x.bind f = x.bind g :=
  congrArg x.bind (funext h)

theorem each_cons (f : α → Eval β) (a : α) (rest : List α) :
    each f (a :: rest) = bind (f a) fun b => bind (each f rest) fun bs => pure (b :: bs) := rfl

theorem block_cons (execute : Statement → Eval Flow) (s : Statement) (rest : List Statement) :
    block execute (s :: rest) = bind (execute s) fun
      | .normal => block execute rest
      | .giveBack v => pure (.giveBack v) := rfl

theorem bind_pure (x : Eval α) : x.bind Eval.pure = x := by
  funext m
  refine Eq.trans ?_ (Dialogue.bind_done (x m))
  apply congrArg (x m).bind
  funext ⟨r, n⟩
  cases r <;> rfl

theorem bind_assoc (x : Eval α) (f : α → Eval β) (g : β → Eval γ) :
    (x.bind f).bind g = x.bind fun a => (f a).bind g := by
  funext m
  refine (Dialogue.bind_assoc (x m) _ _).trans ?_
  apply congrArg (x m).bind
  funext ⟨r, n⟩
  cases r <;> rfl

theorem locate_bind (pos : Position) (x : Eval α) (f : α → Eval β) :
    (x.bind f).locate pos = (x.locate pos).bind fun a => (f a).locate pos := by
  funext m
  refine (Dialogue.bind_assoc (x m) _ _).trans (Eq.trans ?_ (Dialogue.bind_assoc (x m) _ _).symm)
  apply congrArg (x m).bind
  funext ⟨r, n⟩
  cases r <;> rfl

theorem run_bind (x : Eval α) (f : α → Eval β) (m : Machine) (host : Host ω) (w : ω) :
    (x.bind f m).run host w =
      match (x m).run host w with
      | (some (.ok a, n), w) => (f a n).run host w
      | (some (.error e, n), w) => (some (.error e, n), w)
      | (none, w) => (none, w) := by
  refine (Dialogue.run_bind host (x m) _ w).trans ?_
  rcases (x m).run host w with ⟨_ | ⟨e | a, n⟩, w⟩ <;> rfl

end

end Eval

end Scriptlet
