import Scriptlet.Proofs.Disk
import Scriptlet.Proofs.FileSystem

namespace Scriptlet
set_option autoImplicit true

def Entry.standing : Entry → Standing
  | .directory => .directory
  | .file _ contents => .file contents

namespace Disk

variable {d d' : Disk} {l : Location}

/-- A disk as a file system, in which files have no identity. -/
def fileSystem : FileSystem Disk Location where
  entry? d l := (d.entry? l).map Entry.standing
  Leads := Leads

theorem standing_of_file (h : d.entry? l = some (.file n bytes)) :
    fileSystem.entry? d l = some (.file bytes) := by
  change (d.entry? l).map Entry.standing = _
  rw [h]
  rfl

theorem standing_of_none (h : d.entry? l = none) : fileSystem.entry? d l = none := by
  change (d.entry? l).map Entry.standing = _
  rw [h]
  rfl

theorem sets_of_entries {e : Option Entry}
    (h : ∀ l', d'.entry? l' = if l = l' then e else d.entry? l') :
    fileSystem.Sets l (e.map Entry.standing) d d' where
  here := congrArg (Option.map Entry.standing) ((h l).trans (if_pos rfl))
  other l' hl' := congrArg (Option.map Entry.standing) ((h l').trans (if_neg hl'.symm))

/-- Directories that are made step by step are made in one. -/
theorem Furnished.seen (h : d.Furnished paths d') : fileSystem.Furnished paths d d' := by
  intro l
  induction h with
  | refl => exact .inl rfl
  | @made d' path l' h hp hl hnone ih =>
    have hentry := entry?_put (d := d') hl.ne_nil .directory
    have hkeeps := keepsDirectories_put (d := d') hl.ne_nil (by rw [hnone]; nofun) .directory
    have hsets := sets_of_entries hentry
    by_cases he : l = l'
    · subst he
      rcases h.entry? l with hsame | ⟨-, hmade⟩
      · exact .inr ⟨standing_of_none (hsame.symm.trans hnone), hsets.here, path, hp,
          hl.keep hkeeps⟩
      · cases hnone.symm.trans hmade
    · rw [hsets.other l he]
      rcases ih with hsame | ⟨hnew, hmade, path', hp', hl'⟩
      · exact .inl hsame
      · exact .inr ⟨hnew, hmade, path', hp', Leads.keep hl' hkeeps⟩

theorem done_of_write (h : d.write path (mode.apply text) = .ok (n, d')) :
    fileSystem.Done (.write mode path text) d d' := by
  obtain ⟨l, old, hl, hold, hnew⟩ := write_entries h
  refine .written hl ?_ (sets_of_entries hnew)
  rcases hold with hold | ⟨hnone, hempty⟩
  · exact .inl (standing_of_file hold)
  · exact .inr ⟨standing_of_none hnone, hempty⟩

theorem done_of_remove (h : d.remove path = .ok d') : fileSystem.Done (.delete path) d d' := by
  obtain ⟨l, n, old, hl, hold, rfl⟩ := remove_cases h
  exact .deleted hl (standing_of_file hold) (sets_of_entries (entry?_without hl.ne_nil))

theorem partly_of_write (h : d.write path change = .ok (n, d')) :
    fileSystem.Partly (.write mode path text) d d' := by
  obtain ⟨l, old, hl, hold, hnew⟩ := write_entries h
  refine .broken hl ?_ (sets_of_entries hnew)
  rcases hold with hold | ⟨hnone, -⟩
  · rw [standing_of_file hold]
    nofun
  · rw [standing_of_none hnone]
    nofun

end Disk

namespace World

variable {w : World}

/-- The disk of a world, and the records in its log if that is in memory and has room for all. -/
def journal : JournalView World Disk where
  files := World.disk
  kept? w :=
    match w.log with
    | .memory records none => some records.toList
    | _ => none

theorem log_of_kept (h : journal.kept? w = some records) :
    w.log = .memory records.toArray none := by
  unfold journal at h
  dsimp only at h
  split at h
  · rename_i records' hlog
    cases h
    rw [hlog, Array.toArray_toList]
  · cases h

theorem kept_of_log (h : w.log = .memory records none) :
    journal.kept? w = some records.toList := by
  unfold journal
  dsimp only
  rw [h]

theorem record_memory (hlog : w.log = .memory records none) (line : String) :
    w.record line = (.ok (), { w with log := .memory (records.push line) none }) := by
  unfold record
  rw [hlog]
  rfl

theorem onDisk_log (w : World) (change : Except Refusal Disk) :
    (w.onDisk change).2.log = w.log := by
  cases change <;> rfl

theorem onDisk_error (h : (w.onDisk change).1 = .error reason) : (w.onDisk change).2 = w := by
  cases change with
  | error reason' => rfl
  | ok d => cases h

theorem host_log {q : Request} (hq : q.KeepsLog) (hline : q.line? = none) (w : World) :
    (host q w).2.log = w.log := by
  by_cases haside : q.Aside
  · obtain ⟨input, output, errors, events, he⟩ := host_aside haside w
    rw [he]
  · cases q with
    | record line => cases hline
    | openLog path => cases hq
    | writeFile path text | appendFile path text | removeFile path => exact onDisk_log w _
    | createDirectories path => rfl
    | _ => exact absurd trivial haside

/-- A world makes a change as its disk does, or leaves all as it is. -/
theorem answer_cases (c : Change) (w : World) :
    (∃ d, c.answer host w = (.ok (), { w with disk := d }) ∧ Disk.fileSystem.Done c w.disk d) ∨
      ∃ reason, c.answer host w = (.error reason, w) := by
  cases c with
  | write mode path text =>
    have hanswer : (Change.write mode path text).answer host w =
        w.onDisk ((w.disk.write path (mode.apply text)).map Prod.snd) := by
      cases mode <;> rfl
    rw [hanswer]
    cases hwrite : w.disk.write path (mode.apply text) with
    | ok written => exact .inl ⟨written.2, rfl, Disk.done_of_write hwrite⟩
    | error reason => exact .inr ⟨reason, rfl⟩
  | delete path =>
    have hanswer : (Change.delete path).answer host w = w.onDisk (w.disk.remove path) := rfl
    rw [hanswer]
    cases hremove : w.disk.remove path with
    | ok d => exact .inl ⟨d, rfl, Disk.done_of_remove hremove⟩
    | error reason => exact .inr ⟨reason, rfl⟩

theorem confines : World.host.Confines Disk.fileSystem journal where
  done c w h := by
    rcases answer_cases c w with ⟨d, ha, hdone⟩ | ⟨reason, ha⟩
    · rw [ha]
      exact hdone
    · rw [ha] at h
      cases h
  refused c w reason h := by
    rcases answer_cases c w with ⟨d, ha, -⟩ | ⟨reason', ha⟩
    · rw [ha] at h
      cases h
    · rw [ha]
      exact .nothing
  missing path w h := congrArg World.disk (onDisk_error h)
  furnish directory w := (w.disk.makeChain_furnished (Disk.chain directory)).seen
  spare q w records hq hkept := by
    have hlog := log_of_kept hkept
    by_cases haside : q.Aside
    · obtain ⟨input, output, errors, events, he⟩ := host_aside haside w
      rw [he]
      rfl
    · cases q with
      | record line =>
        change (w.record line).2.disk = w.disk
        rw [record_memory hlog]
      | openLog path | writeFile path text | appendFile path text | removeFile path
      | createDirectories path => cases hq
      | _ => exact absurd trivial haside
  keep q w records hq hkept := by
    have hlog := log_of_kept hkept
    cases hline : q.line? with
    | none =>
      rw [kept_of_log ((host_log hq hline w).trans hlog), Option.toList, List.append_nil]
    | some line =>
      cases q with
      | record line' =>
        cases hline
        change journal.kept? (w.record line).2 = _
        rw [record_memory hlog, kept_of_log rfl, Array.toList_push]
        rfl
      | _ => cases hline
  take line w records hkept := by
    change (w.record line).1 = _
    rw [record_memory (log_of_kept hkept)]

def full : Refusal :=
  .other "No space left on device (os error 28)"

/-- A text that is too long is written as far as there is room, and the write is refused then. -/
def breakOff (w : World) : Except Refusal (Nat × Disk) → Except Refusal Unit × World
  | .ok (_, disk) => (.error full, { w with disk })
  | .error reason => (.error reason, w)

/-- A system in which a write finds room for so many bytes. -/
def cramped (room : Nat) : Host World
  | .writeFile path text, w =>
    if text.utf8ByteSize ≤ room then host (.writeFile path text) w
    else w.breakOff (w.disk.write path fun _ => text.toUTF8.extract 0 room)
  | .appendFile path text, w =>
    if text.utf8ByteSize ≤ room then host (.appendFile path text) w
    else w.breakOff (w.disk.write path (· ++ text.toUTF8.extract 0 room))
  | q, w => host q w

theorem cramped_cases (room : Nat) (c : Change) (w : World) :
    c.answer (cramped room) w = c.answer host w ∨
      ∃ reason d, c.answer (cramped room) w = (.error reason, { w with disk := d }) ∧
        Disk.fileSystem.Partly c w.disk d := by
  have hbroken (mode : WriteMode) (path text : String) (change : ByteArray → ByteArray) :
      ∃ reason d, w.breakOff (w.disk.write path change) = (.error reason, { w with disk := d }) ∧
        Disk.fileSystem.Partly (.write mode path text) w.disk d := by
    cases hwrite : w.disk.write path change with
    | ok written => exact ⟨full, written.2, rfl, Disk.partly_of_write hwrite⟩
    | error reason => exact ⟨reason, w.disk, rfl, .nothing⟩
  cases c with
  | write mode path text =>
    by_cases hroom : text.utf8ByteSize ≤ room
    · left
      cases mode <;> exact if_pos hroom
    · right
      cases mode with
      | replace =>
        have hanswer : (Change.write .replace path text).answer (cramped room) w = _ :=
          if_neg hroom
        rw [hanswer]
        exact hbroken .replace path text _
      | extend =>
        have hanswer : (Change.write .extend path text).answer (cramped room) w = _ :=
          if_neg hroom
        rw [hanswer]
        exact hbroken .extend path text _
  | delete path => exact .inl rfl

theorem cramped_confines (room : Nat) : (cramped room).Confines Disk.fileSystem journal where
  done c w h := by
    rcases cramped_cases room c w with ha | ⟨reason, d, ha, -⟩
    · rw [ha] at h ⊢
      exact confines.done c w h
    · rw [ha] at h
      cases h
  refused c w reason h := by
    rcases cramped_cases room c w with ha | ⟨reason', d, ha, hpartly⟩
    · rw [ha] at h ⊢
      exact confines.refused c w reason h
    · rw [ha]
      exact hpartly
  missing path w h := confines.missing path w h
  furnish directory w := confines.furnish directory w
  spare q w records hq hkept := by
    cases q with
    | writeFile path text | appendFile path text => cases hq
    | _ => exact confines.spare _ w records hq hkept
  keep q w records hq hkept := by
    have hchange (c : Change) (h : journal.kept? (c.answer host w).2 = some (records ++ [])) :
        journal.kept? (c.answer (cramped room) w).2 = some (records ++ []) := by
      rcases cramped_cases room c w with ha | ⟨reason, d, ha, -⟩
      · rw [ha]
        exact h
      · rw [ha, List.append_nil]
        exact hkept
    cases q with
    | writeFile path text =>
      exact hchange (.write .replace path text) (confines.keep _ w records hq hkept)
    | appendFile path text =>
      exact hchange (.write .extend path text) (confines.keep _ w records hq hkept)
    | _ => exact confines.keep _ w records hq hkept
  take line w records hkept := confines.take line w records hkept

end World

end Scriptlet
