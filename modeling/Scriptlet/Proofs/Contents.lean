import Scriptlet.Proofs.Change
import Scriptlet.Proofs.Disk

namespace Scriptlet
set_option autoImplicit true

namespace Disk

variable {d d' : Disk} {l l' : Location} {path : String} {bytes : ByteArray} {n : Nat}

theorem aim_extendFile (d : Disk) (id : Nat) (bytes : ByteArray) (path : String) :
    Disk.aim (d.extendFile id bytes) path = d.aim path := by
  have henter (l : Location) (name : String) :
      Disk.enter (d.extendFile id bytes) l name = d.enter l name := by
    unfold Disk.enter
    rw [entry?_extendFile]
    rcases d.entry? (l ++ [name]) with _ | ⟨_ | ⟨n, old⟩⟩ <;> rfl
  have hwalk (l : Location) (names : List String) :
      Disk.walk (d.extendFile id bytes) l names = d.walk l names := by
    induction names generalizing l with
    | nil => rfl
    | cons name rest ih =>
      unfold Disk.walk
      rw [henter]
      exact congrArg (d.enter l name).bind (funext ih)
  unfold Disk.aim
  simp only [hwalk]
  rfl

/-- A path leads to a location where it may name a file. -/
def Names (d : Disk) (path : String) (l : Location) : Prop :=
  ∃ directory name, d.aim path = .ok (.named directory name false) ∧ locate directory name = .ok l

theorem Names.leads (h : d.Names path l) : d.Leads path l := by
  obtain ⟨directory, name, haim, hlocate⟩ := h
  exact ⟨directory, name, false, haim, locate_eq hlocate⟩

theorem Leads.unique (h : d.Leads path l) (h' : d.Leads path l') : l' = l := by
  obtain ⟨directory, name, slash, haim, rfl⟩ := h
  obtain ⟨directory', name', slash', haim', rfl⟩ := h'
  cases haim.symm.trans haim'
  rfl

theorem Names.keep (h : d.Names path l) (hkeeps : d.KeepsDirectories d') : d'.Names path l := by
  obtain ⟨directory, name, haim, hlocate⟩ := h
  exact ⟨directory, name, hkeeps.aim haim, hlocate⟩

theorem read_eq_ok_iff :
    d.read path = .ok bytes ↔ ∃ l n, d.Names path l ∧ d.entry? l = some (.file n bytes) := by
  constructor
  · intro h
    obtain ⟨aim, haim, h⟩ := bind_ok h
    cases aim with
    | place l => cases h
    | named directory name slash =>
      obtain ⟨l, hlocate, h⟩ := bind_ok h
      split at h
      · cases h
      · cases h
      · rename_i n contents hentry
        split at h
        · cases h
        · rename_i hslash
          cases h
          rw [Bool.not_eq_true] at hslash
          exact ⟨l, n, ⟨directory, name, hslash ▸ haim, hlocate⟩, hentry⟩
  · rintro ⟨l, n, ⟨directory, name, haim, hlocate⟩, hentry⟩
    unfold Disk.read
    rw [haim]
    dsimp only [bind, Except.bind]
    rw [hlocate]
    dsimp only
    rw [hentry]
    rfl

theorem keepsDirectories_without (h : d.entry? l = some (.file n bytes)) (hl : l ≠ []) :
    d.KeepsDirectories (d.without l) where
  here := rfl
  directory l' hl' := by
    rw [entry?_without hl, if_neg]
    · exact hl'
    · rintro rfl
      cases h.symm.trans hl'

theorem Furnished.read (h : d.Furnished paths d') (hr : d.read path = .ok bytes) :
    d'.read path = .ok bytes := by
  obtain ⟨l, n, hnames, hentry⟩ := read_eq_ok_iff.1 hr
  exact read_eq_ok_iff.2 ⟨l, n, hnames.keep h.keepsDirectories, (h.file_iff l n bytes).2 hentry⟩

theorem names_of_write (h : d.write path change = .ok (n, d')) : ∃ l, d.Names path l := by
  obtain ⟨⟨l, found⟩, hwritable, -⟩ := bind_ok h
  obtain ⟨aim, haim, hwritable⟩ := bind_ok hwritable
  cases aim with
  | place l' => cases hwritable
  | named directory name slash =>
    cases slash with
    | true => cases hwritable
    | false =>
      obtain ⟨l', hlocate, -⟩ := bind_ok hwritable
      exact ⟨l', directory, name, haim, hlocate⟩

theorem keepsDirectories_of_write (h : d.write path change = .ok (n, d')) :
    d.KeepsDirectories d' := by
  obtain ⟨l, hleads, ⟨old, hentry, rfl⟩ | ⟨hentry, -, rfl⟩⟩ := write_cases h
  · exact keepsDirectories_put hleads.ne_nil (by rw [hentry]; nofun) _
  · have hput := keepsDirectories_put hleads.ne_nil (by rw [hentry]; nofun)
      (.file n (change .empty))
    exact ⟨rfl, hput.directory⟩

/-- What a write made of the contents of its file, or of nothing, is what is read behind it. -/
theorem read_of_write (h : d.write path change = .ok (n, d')) :
    ∃ old, (∀ bytes, d.read path = .ok bytes → old = bytes) ∧
      d'.read path = .ok (change old) := by
  obtain ⟨l, hnames⟩ := names_of_write h
  obtain ⟨l', old, hleads, hold, hnew⟩ := write_entries h
  obtain rfl := hnames.leads.unique hleads
  refine ⟨old, ?_, ?_⟩
  · intro bytes hbytes
    obtain ⟨l, n', hnames', hentry⟩ := read_eq_ok_iff.1 hbytes
    obtain rfl := hnames'.leads.unique hleads
    rcases hold with hold | ⟨hnone, -⟩
    · cases hold.symm.trans hentry
      rfl
    · cases hnone.symm.trans hentry
  · refine read_eq_ok_iff.2 ⟨l', n, hnames.keep (keepsDirectories_of_write h), ?_⟩
    rw [hnew, if_pos rfl]

/-- A path leads nowhere: a directory on the way is missing, or its last name stands for nothing. -/
def Absent (d : Disk) (path : String) : Prop :=
  d.aim path = .error .noEntry ∨ ∃ directory name slash l,
    d.aim path = .ok (.named directory name slash) ∧ locate directory name = .ok l ∧
      d.entry? l = none

theorem locate_ne_noEntry (directory : Location) (name : String) :
    locate directory name ≠ .error .noEntry := by
  unfold locate
  split <;> nofun

theorem read_eq_noEntry_iff : d.read path = .error .noEntry ↔ d.Absent path := by
  constructor
  · intro h
    rcases bind_error h with haim | ⟨aim, haim, h⟩
    · exact .inl haim
    cases aim with
    | place l => cases h
    | named directory name slash =>
      rcases bind_error h with hlocate | ⟨l, hlocate, h⟩
      · exact absurd hlocate (locate_ne_noEntry directory name)
      split at h
      · exact .inr ⟨directory, name, slash, l, haim, hlocate, ‹_›⟩
      · cases h
      · split at h <;> cases h
  · rintro (haim | ⟨directory, name, slash, l, haim, hlocate, hnone⟩)
    · unfold Disk.read
      rw [haim]
      rfl
    · unfold Disk.read
      rw [haim]
      dsimp only [bind, Except.bind]
      rw [hlocate]
      dsimp only
      rw [hnone]

def found (d : Disk) (path : String) : Except Refusal (Location × ByteArray) := do
  match ← d.aim path with
  | .place _ => .error .isDirectory
  | .named l name slash =>
    let l ← locate l name
    match d.entry? l with
    | none => .error .noEntry
    | some .directory => .error .isDirectory
    | some (.file _ bytes) => if slash then .error .notDirectory else .ok (l, bytes)

theorem found_bind (d : Disk) (path : String) (f : Location → ByteArray → α) :
    (do
      match ← d.aim path with
      | .place _ => .error .isDirectory
      | .named l name slash =>
        let l ← locate l name
        match d.entry? l with
        | none => .error .noEntry
        | some .directory => .error .isDirectory
        | some (.file _ bytes) => if slash then .error .notDirectory else .ok (f l bytes)) =
      (d.found path).map fun x => f x.1 x.2 := by
  unfold found
  rcases d.aim path with reason | ⟨directory, name, slash⟩ | l
  · rfl
  · dsimp only [bind, Except.bind]
    rcases locate directory name with reason | l
    · rfl
    dsimp only
    rcases d.entry? l with _ | ⟨_ | ⟨n, bytes⟩⟩
    · rfl
    · rfl
    · cases slash <;> rfl
  · rfl

theorem read_eq_found (d : Disk) (path : String) :
    d.read path = (d.found path).map Prod.snd :=
  d.found_bind path fun _ bytes => bytes

theorem remove_eq_found (d : Disk) (path : String) :
    d.remove path = (d.found path).map fun x => d.without x.1 :=
  d.found_bind path fun l _ => d.without l

theorem read_error_iff_remove : d.read path = .error e ↔ d.remove path = .error e := by
  rw [read_eq_found, remove_eq_found]
  cases d.found path <;> simp [Except.map]

theorem absent_of_removed (h : d.remove path = .ok d') : d'.Absent path := by
  obtain ⟨l, n, bytes, hleads, hentry, rfl⟩ := remove_cases h
  obtain ⟨aim, haim, h⟩ := bind_ok h
  cases aim with
  | place l' => cases h
  | named directory name slash =>
    obtain ⟨l', hlocate, -⟩ := bind_ok h
    obtain rfl := hleads.unique ⟨directory, name, slash, haim, locate_eq hlocate⟩
    have hkeeps := keepsDirectories_without hentry hleads.ne_nil
    refine .inr ⟨directory, name, slash, l', hkeeps.aim haim, hlocate, ?_⟩
    rw [entry?_without hleads.ne_nil, if_pos rfl]

/-- To write to the end of one file leaves alone what is read from another one. -/
theorem read_extendFile {id : Nat} (hr : d.read path = .ok bytes)
    (hother : ∀ l n old, d.Leads path l → d.entry? l = some (.file n old) → n ≠ id)
    (more : ByteArray) : Disk.read (d.extendFile id more) path = .ok bytes := by
  obtain ⟨l, n, hnames, hentry⟩ := read_eq_ok_iff.1 hr
  have hne := hother l n bytes hnames.leads hentry
  obtain ⟨directory, name, haim, hlocate⟩ := hnames
  refine read_eq_ok_iff.2 ⟨l, n, ⟨directory, name, ?_, hlocate⟩, ?_⟩
  · rw [aim_extendFile]
    exact haim
  · rw [entry?_extendFile, hentry]
    simp [Entry.extended, hne]

theorem Absent.extendFile (h : d.Absent path) (id : Nat) (more : ByteArray) :
    Absent (d.extendFile id more) path := by
  unfold Absent
  rw [aim_extendFile]
  rcases h with haim | ⟨directory, name, slash, l, haim, hlocate, hnone⟩
  · exact .inl haim
  · refine .inr ⟨directory, name, slash, l, haim, hlocate, ?_⟩
    rw [entry?_extendFile, hnone]
    rfl

end Disk

/-- How to see from the state of a system what the file of one path holds, that there is no such
file, and that records are not kept in it. -/
structure FileView (ω : Type) where
  holds : ω → ByteArray → Prop
  missing : ω → Prop
  elsewhere : ω → Prop

/-- What is written to a file stands in it, behind the old contents or in place of them, until it is
written to again, and is read from it, unless reading is refused for another reason than that the
file is missing or no text. A file that is taken away, or was not there, is missing until a file is
written. Records change only the file in which they are kept. -/
structure Host.KeepsFile (host : Host ω) (path : String) (f : FileView ω) : Prop where
  write : ∀ text w, (host (.writeFile path text) w).1 = .ok () →
    f.holds (host (.writeFile path text) w).2 text.toUTF8
  append : ∀ text w old, f.holds w old → (host (.appendFile path text) w).1 = .ok () →
    f.holds (host (.appendFile path text) w).2 (old ++ text.toUTF8)
  remove : ∀ w, (host (.removeFile path) w).1 = .ok () ∨
    (host (.removeFile path) w).1 = .error .noEntry → f.missing (host (.removeFile path) w).2
  furnish : ∀ directory w bytes, f.holds w bytes →
    f.holds (host (.createDirectories directory) w).2 bytes
  spare : ∀ q w bytes, q.Sparing → (∀ line, q = .record line → f.elsewhere w) →
    f.holds w bytes → f.holds (host q w).2 bytes
  spareMissing : ∀ q w, q.Sparing → f.missing w → f.missing (host q w).2
  read : ∀ w bytes, f.holds w bytes → (host (.readFile path) w).1 = World.decode bytes ∨
    ∃ reason, (host (.readFile path) w).1 = .error reason ∧ reason ≠ .noEntry ∧
      reason ≠ .invalidText
  readMissing : ∀ w, f.missing w → (host (.readFile path) w).1 = .error .noEntry

theorem World.decode_toUTF8 (text : String) : decode text.toUTF8 = .ok text := by
  have hvalid : String.fromUTF8? text.toUTF8 = some text := dif_pos text.isValidUTF8
  rw [decode, hvalid]

namespace World

/-- The file that a path leads to in a world. -/
def fileView (path : String) : FileView World where
  holds w bytes := w.disk.read path = .ok bytes
  missing w := w.disk.read path = .error .noEntry
  elsewhere w := ∀ l n old, w.disk.Leads path l → w.disk.entry? l = some (.file n old) →
    w.log ≠ .file n

theorem onDisk_ok {w : World} (h : (w.onDisk change).1 = .ok ()) :
    ∃ d, change = .ok d ∧ (w.onDisk change).2.disk = d := by
  cases change with
  | error reason => cases h
  | ok d => exact ⟨d, rfl, rfl⟩

theorem map_snd_ok {x : Except ε (α × β)} (h : x.map Prod.snd = .ok b) : ∃ a, x = .ok (a, b) := by
  cases x with
  | error e => cases h
  | ok y =>
    cases h
    exact ⟨y.1, rfl⟩

theorem host_sparing {q : Request} (hq : q.Sparing) (w : World) : (host q w).2.disk = w.disk ∨
    ∃ line id, q = .record line ∧ w.log = .file id ∧
      (host q w).2.disk = w.disk.extendFile id (w.clock.now ++ " " ++ line ++ "\n").toUTF8 := by
  by_cases haside : q.Aside
  · obtain ⟨input, output, errors, events, he⟩ := host_aside haside w
    rw [he]
    exact .inl rfl
  · cases q with
    | record line =>
      unfold host record
      dsimp only
      cases hlog : w.log with
      | discard => exact .inl rfl
      | memory records room =>
        left
        rcases room with _ | _ | room <;> rfl
      | file id => exact .inr ⟨line, id, rfl, rfl, rfl⟩
    | openLog path | writeFile path text | appendFile path text | removeFile path
    | createDirectories path => cases hq
    | _ => exact absurd trivial haside

/-- A world keeps its files, whatever path leads to them. -/
theorem keepsFile (path : String) : World.host.KeepsFile path (fileView path) where
  write text w h := by
    obtain ⟨d, hwrite, hdisk⟩ := onDisk_ok h
    obtain ⟨n, hwrite⟩ := map_snd_ok hwrite
    obtain ⟨old, -, hread⟩ := Disk.read_of_write hwrite
    change Disk.read (w.onDisk _).2.disk path = _
    rw [hdisk]
    exact hread
  append text w old hold h := by
    obtain ⟨d, hwrite, hdisk⟩ := onDisk_ok h
    obtain ⟨n, hwrite⟩ := map_snd_ok hwrite
    obtain ⟨old', hsame, hread⟩ := Disk.read_of_write hwrite
    obtain rfl := hsame old hold
    change Disk.read (w.onDisk _).2.disk path = _
    rw [hdisk]
    exact hread
  remove w h := by
    change (w.onDisk (w.disk.remove path)).1 = .ok () ∨
      (w.onDisk (w.disk.remove path)).1 = .error .noEntry at h
    change Disk.read (w.onDisk (w.disk.remove path)).2.disk path = _
    cases hremove : w.disk.remove path with
    | ok d => exact Disk.read_eq_noEntry_iff.2 (Disk.absent_of_removed hremove)
    | error reason =>
      rw [hremove] at h
      rcases h with h | h
      · cases h
      · cases h
        exact Disk.read_error_iff_remove.2 hremove
  furnish directory w bytes h := (w.disk.makeChain_furnished _).read h
  spare q w bytes hq helsewhere h := by
    change Disk.read (World.host q w).2.disk path = _
    rcases host_sparing hq w with hdisk | ⟨line, id, rfl, hlog, hdisk⟩
    · rw [hdisk]
      exact h
    · rw [hdisk]
      apply Disk.read_extendFile h
      rintro l n old hleads hentry rfl
      exact helsewhere line rfl l n old hleads hentry hlog
  spareMissing q w hq h := by
    change Disk.read (World.host q w).2.disk path = _
    rcases host_sparing hq w with hdisk | ⟨line, id, rfl, hlog, hdisk⟩
    · rw [hdisk]
      exact h
    · rw [hdisk]
      exact Disk.read_eq_noEntry_iff.2 ((Disk.read_eq_noEntry_iff.1 h).extendFile id _)
  read w bytes h := by
    left
    change (w.disk.read path).bind decode = decode bytes
    have hread : w.disk.read path = .ok bytes := h
    rw [hread]
    rfl
  readMissing w h := by
    change (w.disk.read path).bind decode = .error .noEntry
    have hread : w.disk.read path = .error .noEntry := h
    rw [hread]
    rfl

end World

end Scriptlet
