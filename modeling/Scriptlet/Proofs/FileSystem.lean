import Scriptlet.Proofs.Change

namespace Scriptlet
set_option autoImplicit true

inductive Standing
  | directory
  | file (contents : ByteArray)

/-- What can be seen of a file system in each of its states: what stands at a place, and to which
place a path leads. -/
structure FileSystem (φ Place : Type) where
  entry? : φ → Place → Option Standing
  Leads : φ → String → Place → Prop

namespace FileSystem

variable {φ Place : Type} {fs : FileSystem φ Place}

/-- What stands at one place is replaced, and all else is as it was. -/
structure Sets (fs : FileSystem φ Place) (l : Place) (e : Option Standing) (d d' : φ) : Prop where
  here : fs.entry? d' l = e
  other : ∀ l', l' ≠ l → fs.entry? d' l' = fs.entry? d l'

/-- Directories were made where some of the paths lead to, and nothing else was changed. -/
def Furnished (fs : FileSystem φ Place) (paths : List String) (d d' : φ) : Prop :=
  ∀ l, fs.entry? d' l = fs.entry? d l ∨ fs.entry? d l = none ∧
    fs.entry? d' l = some .directory ∧ ∃ path ∈ paths, fs.Leads d' path l

/-- A change is made, once there is a directory for it: the file to which its path leads is written,
or made, or the file is taken away. -/
inductive Done (fs : FileSystem φ Place) : Change → φ → φ → Prop
  | written (hl : fs.Leads d path l)
      (hold : fs.entry? d l = some (.file old) ∨ fs.entry? d l = none ∧ old = .empty)
      (hnew : fs.Sets l (some (.file (mode.apply text old))) d d') :
      Done fs (.write mode path text) d d'
  | deleted (hl : fs.Leads d path l) (hold : fs.entry? d l = some (.file old))
      (hnew : fs.Sets l none d d') : Done fs (.delete path) d d'

/-- A change was refused. It may be made in part by then: a file that is written to can hold
anything, and one that is to be taken away can be gone. -/
inductive Partly (fs : FileSystem φ Place) : Change → φ → φ → Prop
  | nothing : Partly fs c d d
  | broken (hl : fs.Leads d path l) (hold : fs.entry? d l ≠ some .directory)
      (hnew : fs.Sets l (some (.file bytes)) d d') : Partly fs (.write mode path text) d d'
  | gone (h : fs.Done (.delete path) d d') : Partly fs (.delete path) d d'

/-- A change is made, the directories that it needs included. -/
def Effect (fs : FileSystem φ Place) (c : Change) (d d' : φ) : Prop :=
  ∃ d₁, fs.Furnished c.outers d d₁ ∧ fs.Done c d₁ d'

/-- A change was refused before its directories were made or behind that. -/
def Attempt (fs : FileSystem φ Place) (c : Change) (d d' : φ) : Prop :=
  ∃ d₁, fs.Furnished c.outers d d₁ ∧ fs.Partly c d₁ d'

/-- Changes are made one after the other, each in full. -/
inductive Made (fs : FileSystem φ Place) : φ → List Change → φ → Prop
  | nil : Made fs d [] d
  | cons (h : fs.Effect c d d') (hrest : Made fs d' changes d'') : Made fs d (c :: changes) d''

theorem Furnished.refl (fs : FileSystem φ Place) (paths : List String) (d : φ) :
    fs.Furnished paths d d :=
  fun _ => .inl rfl

theorem Made.append {d d' d'' : φ} (h : fs.Made d changes d') (h' : fs.Made d' changes' d'') :
    fs.Made d (changes ++ changes') d'' := by
  induction h with
  | nil => exact h'
  | cons heffect _ ih => exact .cons heffect (ih h')

end FileSystem

/-- How to see from the state of a system its file system, and the records that it keeps if it keeps
all that it is handed. -/
structure JournalView (ω φ : Type) where
  files : ω → φ
  kept? : ω → Option (List String)

/-- A file operation changes the file that its path names and no other; a write can make directories
on the way. If it is refused, the file may be changed all the same, unless it was to be deleted and
was not there. As long as records are kept, none of them is refused, and nothing but file operations
changes files. -/
structure Host.Confines (host : Host ω) (fs : FileSystem φ Place) (v : JournalView ω φ) :
    Prop where
  done : ∀ (c : Change) w, (c.answer host w).1 = .ok () →
    fs.Done c (v.files w) (v.files (c.answer host w).2)
  refused : ∀ (c : Change) w reason, (c.answer host w).1 = .error reason →
    fs.Partly c (v.files w) (v.files (c.answer host w).2)
  missing : ∀ path w, (host (.removeFile path) w).1 = .error .noEntry →
    v.files (host (.removeFile path) w).2 = v.files w
  furnish : ∀ directory w, fs.Furnished (Disk.chain directory) (v.files w)
    (v.files (host (.createDirectories directory) w).2)
  spare : ∀ q w records, q.Sparing → v.kept? w = some records → v.files (host q w).2 = v.files w
  keep : ∀ q w records, q.KeepsLog → v.kept? w = some records →
    v.kept? (host q w).2 = some (records ++ q.line?.toList)
  take : ∀ line w records, v.kept? w = some records → (host (.record line) w).1 = .ok ()

namespace Host.Confines

variable {ω φ Place : Type} {host : Host ω} {fs : FileSystem φ Place} {v : JournalView ω φ}
  {w u : ω}

theorem furnished (h : host.Confines fs v) (outer? : Option String) (w : ω) :
    fs.Furnished (Disk.outers outer?) (v.files w) (v.files (host.furnish outer? w).2) := by
  cases outer? with
  | none => exact .refl fs _ _
  | some directory => exact h.furnish directory w

theorem kept_furnish (h : host.Confines fs v) (outer? : Option String)
    (hkept : v.kept? w = some records) : v.kept? (host.furnish outer? w).2 = some records := by
  cases outer? with
  | none => exact hkept
  | some directory =>
    have hkept' := h.keep (.createDirectories directory) w records trivial hkept
    exact hkept'.trans (congrArg some (List.append_nil records))

theorem kept_answer (h : host.Confines fs v) (c : Change) (hkept : v.kept? w = some records) :
    v.kept? (c.answer host w).2 = some records := by
  have hnil : some (records ++ []) = some records := congrArg some (List.append_nil records)
  cases c with
  | write mode path text =>
    cases mode with
    | replace => exact (h.keep (.writeFile path text) w records trivial hkept).trans hnil
    | extend => exact (h.keep (.appendFile path text) w records trivial hkept).trans hnil
  | delete path => exact (h.keep (.removeFile path) w records trivial hkept).trans hnil

theorem files_of_excuses (h : host.Confines fs v) {c : Change} (hexcused : c.excuses reason = true)
    (hanswer : c.answer host w = (.error reason, u)) : v.files u = v.files w := by
  cases c with
  | write mode path text => cases hexcused
  | delete path =>
    obtain rfl : reason = .noEntry := of_decide_eq_true hexcused
    have hmissing := h.missing path w (congrArg Prod.fst hanswer)
    have hu : (host (.removeFile path) w).2 = u := congrArg Prod.snd hanswer
    rwa [hu] at hmissing

end Host.Confines

end Scriptlet
