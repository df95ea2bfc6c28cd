import Scriptlet.Proofs.Printing

namespace Scriptlet
set_option autoImplicit true

def Position.below (k : Nat) (p : Position) : Position :=
  ⟨p.line + k, p.column⟩

mutual

/-- The statement with another place for each place in it. -/
def Statement.moved (f : Position → Position) : Statement → Statement
  | .assign pos x e => .assign (f pos) x e
  | .print pos e => .print (f pos) e
  | .log pos e => .log (f pos) e
  | .ifThen pos c body => .ifThen (f pos) c (movedAll f body)
  | .ifElse pos c body otherwise => .ifElse (f pos) c (movedAll f body) (movedAll f otherwise)
  | .loop pos c body => .loop (f pos) c (movedAll f body)
  | .write pos mode path content => .write (f pos) mode path content
  | .read pos path x => .read (f pos) path x
  | .delete pos path => .delete (f pos) path
  | .function pos name xs body => .function (f pos) name xs (movedAll f body)
  | .call pos name es => .call (f pos) name es
  | .giveBack pos e => .giveBack (f pos) e

def movedAll (f : Position → Position) : List Statement → List Statement
  | [] => []
  | s :: ss => s.moved f :: movedAll f ss

end

mutual

def Statement.places : Statement → List Position
  | .ifThen pos _ body | .loop pos _ body | .function pos _ _ body => pos :: placesAll body
  | .ifElse pos _ body otherwise => pos :: (placesAll body ++ placesAll otherwise)
  | .assign pos .. | .print pos _ | .log pos _ | .write pos .. | .read pos .. | .delete pos _
  | .call pos .. | .giveBack pos _ => [pos]

def placesAll : List Statement → List Position
  | [] => []
  | s :: ss => s.places ++ placesAll ss

end

theorem Statement.position_mem_places (s : Statement) : s.position ∈ s.places := by
  cases s <;> exact List.mem_cons_self

theorem Statement.position_moved (s : Statement) (f : Position → Position) :
    (s.moved f).position = f s.position := by
  cases s <;> rfl

mutual

theorem Statement.moved_id (s : Statement) : s.moved id = s := by
  cases s with
  | ifThen pos c body => rw [Statement.moved, movedAll_id body, id]
  | ifElse pos c body otherwise =>
    rw [Statement.moved, movedAll_id body, movedAll_id otherwise, id]
  | loop pos c body => rw [Statement.moved, movedAll_id body, id]
  | function pos name xs body => rw [Statement.moved, movedAll_id body, id]
  | _ => rfl

theorem movedAll_id (ss : List Statement) : movedAll id ss = ss := by
  cases ss with
  | nil => rfl
  | cons s ss => rw [movedAll, s.moved_id, movedAll_id ss]

end

mutual

theorem Statement.moved_moved (f g : Position → Position) (s : Statement) :
    (s.moved f).moved g = s.moved (g ∘ f) := by
  cases s with
  | ifThen pos c body | loop pos c body | function pos name xs body =>
    rw [Statement.moved, Statement.moved, movedAll_movedAll f g body]
    rfl
  | ifElse pos c body otherwise =>
    rw [Statement.moved, Statement.moved, movedAll_movedAll f g body,
      movedAll_movedAll f g otherwise]
    rfl
  | _ => rfl

theorem movedAll_movedAll (f g : Position → Position) (ss : List Statement) :
    movedAll g (movedAll f ss) = movedAll (g ∘ f) ss := by
  cases ss with
  | nil => rfl
  | cons s ss => rw [movedAll, movedAll, s.moved_moved f g, movedAll_movedAll f g ss, movedAll]

end

mutual

/-- The same statement, but for places, which `R` relates. -/
inductive Statement.Matches (R : Position → Position → Prop) : Statement → Statement → Prop
  | assign (h : R pos pos') : Statement.Matches R (.assign pos x e) (.assign pos' x e)
  | print (h : R pos pos') : Statement.Matches R (.print pos e) (.print pos' e)
  | log (h : R pos pos') : Statement.Matches R (.log pos e) (.log pos' e)
  | ifThen (h : R pos pos') (hb : AllMatch R body body') :
      Statement.Matches R (.ifThen pos c body) (.ifThen pos' c body')
  | ifElse (h : R pos pos') (hb : AllMatch R body body') (ho : AllMatch R otherwise otherwise') :
      Statement.Matches R (.ifElse pos c body otherwise) (.ifElse pos' c body' otherwise')
  | loop (h : R pos pos') (hb : AllMatch R body body') :
      Statement.Matches R (.loop pos c body) (.loop pos' c body')
  | write (h : R pos pos') :
      Statement.Matches R (.write pos mode path content) (.write pos' mode path content)
  | read (h : R pos pos') : Statement.Matches R (.read pos path x) (.read pos' path x)
  | delete (h : R pos pos') : Statement.Matches R (.delete pos path) (.delete pos' path)
  | function (h : R pos pos') (hb : AllMatch R body body') :
      Statement.Matches R (.function pos name xs body) (.function pos' name xs body')
  | call (h : R pos pos') : Statement.Matches R (.call pos name es) (.call pos' name es)
  | giveBack (h : R pos pos') : Statement.Matches R (.giveBack pos e) (.giveBack pos' e)

inductive AllMatch (R : Position → Position → Prop) : List Statement → List Statement → Prop
  | nil : AllMatch R [] []
  | cons (h : Statement.Matches R s s') (hs : AllMatch R ss ss') : AllMatch R (s :: ss) (s' :: ss')

end

variable {R : Position → Position → Prop} {f : Position → Position}

mutual

theorem Statement.Matches.eq_moved {s s' : Statement} (h : s.Matches (fun a b => b = f a) s') :
    s' = s.moved f := by
  cases h with
  | ifThen h hb => rw [Statement.moved, h, hb.eq_movedAll]
  | ifElse h hb ho => rw [Statement.moved, h, hb.eq_movedAll, ho.eq_movedAll]
  | loop h hb => rw [Statement.moved, h, hb.eq_movedAll]
  | function h hb => rw [Statement.moved, h, hb.eq_movedAll]
  | _ h => rw [Statement.moved, h]

theorem AllMatch.eq_movedAll {ss ss' : List Statement}
    (h : AllMatch (fun a b => b = f a) ss ss') : ss' = movedAll f ss := by
  cases h with
  | nil => rfl
  | cons h hs => rw [movedAll, h.eq_moved, hs.eq_movedAll]

end

mutual

theorem Statement.Matches.unplaced {s s' : Statement} (h : s.Matches R s') :
    s'.unplaced = s.unplaced := by
  cases h with
  | ifThen h hb => rw [Statement.unplaced, Statement.unplaced, hb.unplacedAll]
  | ifElse h hb ho =>
    rw [Statement.unplaced, Statement.unplaced, hb.unplacedAll, ho.unplacedAll]
  | loop h hb => rw [Statement.unplaced, Statement.unplaced, hb.unplacedAll]
  | function h hb => rw [Statement.unplaced, Statement.unplaced, hb.unplacedAll]
  | _ h => rfl

theorem AllMatch.unplacedAll {ss ss' : List Statement} (h : AllMatch R ss ss') :
    Scriptlet.unplacedAll ss' = Scriptlet.unplacedAll ss := by
  cases h with
  | nil => rfl
  | cons h hs => rw [Scriptlet.unplacedAll, Scriptlet.unplacedAll, h.unplaced, hs.unplacedAll]

end

end Scriptlet
