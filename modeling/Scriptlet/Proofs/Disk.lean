import Scriptlet.World.Disk

namespace Scriptlet
set_option autoImplicit true

/-- What becomes of an entry when the file of a given identity is written to at its end. -/
def Entry.extended (id : Nat) (bytes : ByteArray) : Entry → Entry
  | .directory => .directory
  | .file id' old => .file id' (if id' = id then old ++ bytes else old)

def Entry.identity? : Entry → Option Nat
  | .directory => none
  | .file id _ => some id

namespace Disk

/-- A path leads to a location: it names an entry of a directory. -/
def Leads (d : Disk) (path : String) (l : Location) : Prop :=
  ∃ directory name slash, d.aim path = .ok (.named directory name slash) ∧ l = directory ++ [name]

/-- Directories were made where some of the paths lead to, and nothing else was changed. -/
inductive Furnished (paths : List String) : Disk → Disk → Prop
  | refl : Furnished paths d d
  | made (h : Furnished paths d d') (hp : path ∈ paths) (hl : d'.Leads path l)
      (hnone : d'.entry? l = none) : Furnished paths d (d'.put l .directory)

variable {d d' : Disk} {l : Location} {n : Nat}

theorem Leads.ne_nil (h : d.Leads path l) : l ≠ [] := by
  obtain ⟨directory, name, slash, -, rfl⟩ := h
  simp

theorem entry?_put (hl : l ≠ []) (e : Entry) (l' : Location) :
    Disk.entry? (d.put l e) l' = if l = l' then some e else d.entry? l' := by
  unfold entry? put
  rw [Table.find?_insert]
  by_cases hroot : l' = []
  · rw [if_pos hroot, if_pos hroot, if_neg (hroot ▸ hl)]
  · rw [if_neg hroot, if_neg hroot]

theorem mem_of_file (h : d.entry? l = some (.file n bytes)) :
    (l, .file n bytes) ∈ d.entries.entries := by
  unfold entry? Table.find? at h
  split at h
  · cases h
  generalize d.entries.entries = entries at h ⊢
  induction entries with
  | nil => cases h
  | cons entry rest ih =>
    obtain ⟨l', e⟩ := entry
    unfold Table.lookup at h
    split at h
    · rename_i hl
      cases h
      exact hl ▸ .head _
    · exact .tail _ (ih h)

def without (d : Disk) (l : Location) : Disk :=
  { d with entries := d.entries.erase l }

theorem entry?_without (hl : l ≠ []) (l' : Location) :
    Disk.entry? (d.without l) l' = if l = l' then none else d.entry? l' := by
  unfold entry? without
  rw [Table.find?_erase]
  by_cases hroot : l' = []
  · rw [if_pos hroot, if_pos hroot, if_neg (hroot ▸ hl)]
  · rw [if_neg hroot, if_neg hroot]

theorem entry?_extendFile (d : Disk) (id : Nat) (bytes : ByteArray) (l : Location) :
    Disk.entry? (d.extendFile id bytes) l = Option.map (Entry.extended id bytes) ( d.entry? l) := by
  unfold entry? extendFile Table.find?
  split
  · rfl
  dsimp only
  induction d.entries.entries with
  | nil => rfl
  | cons entry rest ih =>
    obtain ⟨l', e⟩ := entry
    cases e with
    | directory =>
      by_cases hl : l' = l
      · simp [Table.lookup, hl, Entry.extended]
      · simpa [Table.lookup, hl] using ih
    | file id' old =>
      by_cases hl : l' = l
      · by_cases hid : id' = id <;> simp [Table.lookup, hl, hid, Entry.extended]
      · by_cases hid : id' = id <;> simpa [Table.lookup, hl, hid] using ih

theorem locate_eq (h : locate directory name = .ok l) : l = directory ++ [name] := by
  unfold locate at h
  split at h
  · cases h
  · cases h
    rfl

theorem bind_ok {x : Except ε α} {f : α → Except ε β} (h : x >>= f = .ok b) :
    ∃ a, x = .ok a ∧ f a = .ok b := by
  cases x with
  | error e => cases h
  | ok a => exact ⟨a, rfl, h⟩

theorem bind_error {x : Except ε α} {f : α → Except ε β} (h : x >>= f = .error e) :
    x = .error e ∨ ∃ a, x = .ok a ∧ f a = .error e := by
  cases x with
  | error e' =>
    cases h
    exact .inl rfl
  | ok a => exact .inr ⟨a, rfl, h⟩

/-- All directories of one file system are directories of the other, and what is relative in one is
relative to the same place in the other. -/
structure KeepsDirectories (d d' : Disk) : Prop where
  here : d'.here = d.here
  directory : ∀ l, d.entry? l = some .directory → d'.entry? l = some .directory

theorem KeepsDirectories.enter (h : d.KeepsDirectories d') (he : d.enter l name = .ok l') :
    d'.enter l name = .ok l' := by
  unfold Disk.enter at he ⊢
  split at he
  · rwa [if_pos ‹_›]
  split at he
  · rwa [if_neg ‹_›, if_pos ‹_›]
  split at he
  · cases he
  rw [if_neg ‹_›, if_neg ‹_›, if_neg ‹_›]
  split at he
  · cases he
  · cases he
  · rename_i hdirectory
    rw [h.directory _ hdirectory]
    exact he

theorem KeepsDirectories.walk (h : d.KeepsDirectories d') (hw : d.walk l names = .ok l') :
    d'.walk l names = .ok l' := by
  induction names generalizing l with
  | nil => exact hw
  | cons name rest ih =>
    obtain ⟨inner, henter, hrest⟩ := bind_ok hw
    unfold Disk.walk
    rw [h.enter henter]
    exact ih hrest

/-- A path leads where it led, as long as the directories stay. -/
theorem KeepsDirectories.aim (h : d.KeepsDirectories d') (ha : d.aim path = .ok a) :
    d'.aim path = .ok a := by
  unfold Disk.aim at ha ⊢
  split at ha
  · cases ha
  split at ha
  · cases ha
  split at ha
  · cases ha
  rw [if_neg ‹_›, if_neg ‹_›, if_neg ‹_›]
  obtain ⟨l, hwalk, hlast⟩ := bind_ok ha
  dsimp only
  rw [h.here, h.walk hwalk]
  exact hlast

theorem Leads.keep (h : d.Leads path l) (hkeeps : d.KeepsDirectories d') : d'.Leads path l := by
  obtain ⟨directory, name, slash, haim, rfl⟩ := h
  exact ⟨directory, name, slash, hkeeps.aim haim, rfl⟩

theorem keepsDirectories_put (hl : l ≠ []) (h : d.entry? l ≠ some .directory) (e : Entry) :
    d.KeepsDirectories (d.put l e) where
  here := rfl
  directory l' hl' := by
    rw [entry?_put hl, if_neg]
    · exact hl'
    · rintro rfl
      exact h hl'

theorem writable_cases (h : d.writable path = .ok (l, found)) :
    d.Leads path l ∧ ((found = none ∧ d.entry? l = none) ∨
      ∃ id old, d.entry? l = some (.file id old) ∧ found = some (id, old)) := by
  obtain ⟨aim, haim, h⟩ := bind_ok h
  cases aim with
  | place l' => cases h
  | named directory name slash =>
    cases slash with
    | true => cases h
    | false =>
      obtain ⟨l', hlocate, h⟩ := bind_ok h
      have hleads : d.Leads path l' := ⟨directory, name, false, haim, locate_eq hlocate⟩
      split at h
      · rename_i hentry
        cases h
        exact ⟨hleads, .inl ⟨rfl, hentry⟩⟩
      · cases h
      · rename_i id old hentry
        cases h
        exact ⟨hleads, .inr ⟨id, old, hentry, rfl⟩⟩

theorem write_cases (h : d.write path change = .ok (n, d')) : ∃ l, d.Leads path l ∧
    ((∃ old, d.entry? l = some (.file n old) ∧ d' = d.put l (.file n (change old))) ∨
      d.entry? l = none ∧ n = d.nextId ∧
        d' = { d.put l (.file n (change .empty)) with nextId := n + 1 }) := by
  obtain ⟨⟨l, found⟩, hwritable, h⟩ := bind_ok h
  obtain ⟨hleads, ⟨rfl, hentry⟩ | ⟨id, old, hentry, rfl⟩⟩ := writable_cases hwritable
  · cases h
    exact ⟨l, hleads, .inr ⟨hentry, rfl, rfl⟩⟩
  · cases h
    exact ⟨l, hleads, .inl ⟨old, hentry, rfl⟩⟩

/-- What a write leaves: its file with the new contents, and all else as it was. -/
theorem write_entries (h : d.write path change = .ok (n, d')) : ∃ l old, d.Leads path l ∧
    ( d.entry? l = some (.file n old) ∨ d.entry? l = none ∧ old = .empty) ∧
    ∀ l', d'.entry? l' = if l = l' then some (.file n (change old)) else d.entry? l' := by
  obtain ⟨l, hleads, ⟨old, hentry, rfl⟩ | ⟨hentry, -, rfl⟩⟩ := write_cases h
  · exact ⟨l, old, hleads, .inl hentry, entry?_put hleads.ne_nil _⟩
  · exact ⟨l, .empty, hleads, .inr ⟨hentry, rfl⟩, entry?_put (d := d) hleads.ne_nil _⟩

theorem remove_cases (h : d.remove path = .ok d') : ∃ l id bytes, d.Leads path l ∧
    d.entry? l = some (.file id bytes) ∧ d' = d.without l := by
  obtain ⟨aim, haim, h⟩ := bind_ok h
  cases aim with
  | place l => cases h
  | named directory name slash =>
    obtain ⟨l, hlocate, h⟩ := bind_ok h
    have hleads : d.Leads path l := ⟨directory, name, slash, haim, locate_eq hlocate⟩
    split at h
    · cases h
    · cases h
    · rename_i id bytes hentry
      split at h
      · cases h
      · cases h
        exact ⟨l, id, bytes, hleads, hentry, rfl⟩

theorem makeDirectory_cases (h : d.makeDirectory path = .ok d') :
    ∃ l, d.Leads path l ∧ d.entry? l = none ∧ d' = d.put l .directory := by
  obtain ⟨aim, haim, h⟩ := bind_ok h
  cases aim with
  | place l => cases h
  | named directory name slash =>
    obtain ⟨l, hlocate, h⟩ := bind_ok h
    have hleads : d.Leads path l := ⟨directory, name, slash, haim, locate_eq hlocate⟩
    split at h
    · rename_i hentry
      cases h
      exact ⟨l, hleads, hentry, rfl⟩
    · cases h

namespace Furnished

variable {paths paths' : List String}

theorem trans {d'' : Disk} (h : Furnished paths d d') (h' : Furnished paths d' d'') :
    Furnished paths d d'' := by
  induction h' with
  | refl => exact h
  | made _ hp hl hnone ih => exact .made ih hp hl hnone

theorem mono (h : Furnished paths d d') (hsub : paths ⊆ paths') : Furnished paths' d d' := by
  induction h with
  | refl => exact .refl
  | made _ hp hl hnone ih => exact .made ih (hsub hp) hl hnone

theorem entry? (h : Furnished paths d d') (l : Location) :
    d'.entry? l = d.entry? l ∨ d.entry? l = none ∧ d'.entry? l = some .directory := by
  induction h with
  | refl => exact .inl rfl
  | @made d' path l' _ hp hl hnone ih =>
    rw [entry?_put hl.ne_nil]
    by_cases he : l' = l
    · obtain rfl := he
      rw [if_pos rfl]
      rcases ih with ih | ⟨-, ih⟩
      · exact .inr ⟨ih.symm.trans hnone, rfl⟩
      · exact .inl (absurd (ih.symm.trans hnone) (by simp))
    · rw [if_neg he]
      exact ih

theorem keepsDirectories (h : Furnished paths d d') : d.KeepsDirectories d' where
  here := by
    induction h with
    | refl => rfl
    | made _ _ _ _ ih => exact ih
  directory l hl := by
    rcases h.entry? l with he | ⟨-, he⟩
    · exact he.trans hl
    · exact he

theorem file_iff (h : Furnished paths d d') (l : Location) (id : Nat) (bytes : ByteArray) :
    d'.entry? l = some (.file id bytes) ↔ d.entry? l = some (.file id bytes) := by
  rcases h.entry? l with he | ⟨hnone, he⟩
  · rw [he]
  · rw [he, hnone]
    simp

end Furnished

theorem makeChain_furnished (d : Disk) (paths : List String) :
    Furnished paths d (d.makeChain paths).2 := by
  induction paths generalizing d with
  | nil => exact .refl
  | cons path outer ih =>
    have hmade {d d' : Disk} (h : d.makeDirectory path = .ok d') :
        Furnished (path :: outer) d d' := by
      obtain ⟨l, hleads, hnone, rfl⟩ := makeDirectory_cases h
      exact .made .refl (.head _) hleads hnone
    unfold makeChain
    split
    · rename_i d' h
      exact hmade h
    · have houter := (ih d).mono (List.subset_cons_self path outer)
      split
      · rename_i reason d' h
        rw [h] at houter
        exact houter
      · rename_i d' h
        rw [h] at houter
        split
        · rename_i d'' h
          exact houter.trans (hmade h)
        · exact houter
    · exact .refl

def furnish (d : Disk) : Option String → Except Refusal Unit × Disk
  | none => (.ok (), d)
  | some directory => d.makeDirectories directory

def outers (outer? : Option String) : List String :=
  (outer?.map chain).getD []

theorem furnish_furnished (d : Disk) (outer? : Option String) :
    d.Furnished (outers outer?) (d.furnish outer?).2 := by
  cases outer? with
  | none => exact .refl
  | some directory => exact d.makeChain_furnished _

end Disk

end Scriptlet
