import RemoteModels.Files
import RemoteModels.Proofs.Faults

/-!
# Reading what was written

A file can be read back once it is written, and a file that can be read can be written again
without a new directory.  Both come down to the steps of the path: a text stands at the end of some
steps exactly when all the steps before the last one lead through directories.

* `Files.walk_within` — writing at the end of some steps puts the text there.
* `Files.read_write` — a file that was written reads as its text.
* `Files.exists_write_of_read` — a file that can be read can be written.
-/

set_option autoImplicit false

namespace RemoteModels

/-- Writing the value that is there changes nothing. -/
theorem Members.put_get? {α : Type} {m : Members α} {name : String} {value : α}
    (h : m.get? name = some value) : m.put name value = m := by
  induction m with
  | nil => cases h
  | cons kv rest ih =>
    obtain ⟨k, v⟩ := kv
    rw [get?] at h
    rw [put]
    by_cases hk : k = name
    · rw [if_pos hk] at h ⊢
      rw [Option.some.inj h]
    · rw [if_neg hk] at h ⊢
      rw [ih h]

namespace Files

variable {fs fs' : Files} {path name text : String} {dirs : List String}

/-! ## Steps

A walk reads one entry for each step, so everything about walks is said for a walk that begins with
one more step. -/

/-- A step goes to the entry of its name. -/
theorem walk_cons {s : String} {rest : List String} {n : FileNode}
    (h : Members.get? fs s = some n) : walk (s :: rest) (.directory fs) = walk rest n := by
  rw [walk, h]

/-- A step goes to the entry that has just been written, whatever was there before. -/
theorem walk_put (s : String) (rest : List String) (n : FileNode) :
    walk (s :: rest) (.directory (Members.put fs s n)) = walk rest n :=
  walk_cons (by rw [Members.get?_put, if_pos rfl])

/-- A walk that goes on has found an entry for its first step. -/
theorem exists_of_walk_cons {s : String} {rest : List String} {n : FileNode}
    (h : walk (s :: rest) (.directory fs) = .ok n) :
    ∃ m, Members.get? fs s = some m ∧ walk rest m = .ok n := by
  rw [walk] at h
  cases hs : Members.get? fs s with
  | none =>
    rw [hs] at h
    cases h
  | some m =>
    rw [hs] at h
    exact ⟨m, rfl, h⟩

/-- A file that lies deeper lies in a directory. -/
theorem eq_directory_of_walk {n m : FileNode} (h : walk (dirs ++ [name]) n = .ok m) :
    ∃ inner, n = .directory inner := by
  cases n with
  | directory inner => exact ⟨inner, rfl⟩
  | file t => cases dirs <;> cases h

/-! ## Writing at the end of some steps

Writing goes down to the last directory, changes one entry there and rebuilds the directories on its
way up.  The lemmas follow the same recursion, on the steps in front of the last one, so that each
has one case for the entry and one for a directory more. -/

/-- Writing at the end of some steps puts the text there. -/
theorem walk_within (h : within (writeHere name text) dirs fs = .ok fs') :
    walk (dirs ++ [name]) (.directory fs') = .ok (.file text) := by
  induction dirs generalizing fs fs' with
  | nil =>
    rw [within, writeHere] at h
    split at h
    · cases h
    · cases h
      exact walk_put name [] (.file text)
  | cons s rest ih =>
    rw [within] at h
    split at h
    · cases h
    · cases h
    · obtain ⟨inner', hinner, h⟩ := of_bind_eq_ok h
      cases h
      rw [List.cons_append, walk_put]
      exact ih hinner

/-- A text at the end of some steps can be written over. -/
theorem exists_within_of_walk {old : String}
    (h : walk (dirs ++ [name]) (.directory fs) = .ok (.file old)) (text : String) :
    ∃ fs', within (writeHere name text) dirs fs = .ok fs' := by
  induction dirs generalizing fs with
  | nil =>
    obtain ⟨n, hn, h⟩ := exists_of_walk_cons h
    cases h
    exact ⟨Members.put fs name (.file text), by rw [within, writeHere, hn]⟩
  | cons s rest ih =>
    obtain ⟨n, hn, h⟩ := exists_of_walk_cons h
    obtain ⟨inner, rfl⟩ := eq_directory_of_walk h
    obtain ⟨inner', hinner⟩ := ih h
    refine ⟨Members.put fs s (.directory inner'), ?_⟩
    rw [within, hn]
    simp only [hinner]
    rfl

/-- There is no directory to be made above a text that is there. -/
theorem makeDirectories_of_walk {old : String}
    (h : walk (dirs ++ [name]) (.directory fs) = .ok (.file old)) :
    makeDirectories dirs fs = .ok fs := by
  induction dirs generalizing fs with
  | nil => rfl
  | cons s rest ih =>
    obtain ⟨n, hn, h⟩ := exists_of_walk_cons h
    obtain ⟨inner, rfl⟩ := eq_directory_of_walk h
    rw [makeDirectories, hn]
    simp only [ih h]
    exact congrArg Except.ok (Members.put_get? hn)

/-! ## Files of a path

A path is more than its steps: an empty one leads nowhere, and one that ends in a slash asks for a
directory.  `read_eq_ok_iff` puts all of it into one statement, and from there on only the steps
matter. -/

/-- A path reads as the text at the end of its steps, unless it asks for a directory. -/
theorem read_eq_ok_iff :
    fs.read path = .ok text ↔ path ≠ "" ∧ (PathName.ofString path).wantsDirectory = false ∧
      walk (PathName.ofString path).steps (.directory fs) = .ok (.file text) := by
  rw [read, lookup]
  by_cases hp : path = ""
  · simp [hp]
  · rw [if_neg hp]
    dsimp only
    cases walk (PathName.ofString path).steps (.directory fs) with
    | error e => simp
    | ok n =>
      cases n with
      | directory entries => simp
      | file t => cases (PathName.ofString path).wantsDirectory <;> simp [hp]

/-- A file that can be read is there. -/
theorem has_of_read (h : fs.read path = .ok text) : fs.has path = true := by
  rw [has]
  rw [read] at h
  split at h
  · next hl => rw [hl, Except.toBool]
  · cases h
  · cases h

/-- A file that can be read is the last of some steps. -/
theorem exists_steps_of_read (h : fs.read path = .ok text) :
    ∃ dirs name, (PathName.ofString path).steps = dirs ++ [name] := by
  obtain ⟨-, -, hwalk⟩ := read_eq_ok_iff.1 h
  rcases List.eq_nil_or_concat (PathName.ofString path).steps with hnil | ⟨dirs, name, hsteps⟩
  · rw [hnil] at hwalk
    cases hwalk
  · exact ⟨dirs, name, hsteps.trans (List.concat_eq_append ..)⟩

/-- **A file that was written reads as its text.** -/
theorem read_write (h : fs.write path text = .ok fs') : fs'.read path = .ok text := by
  rw [write] at h
  split at h
  · cases h
  · next name hname =>
    split at h
    · split at h <;> cases h
    · next hdir =>
      obtain ⟨dirs, hsteps⟩ := List.getLast?_eq_some_iff.1 hname
      rw [hsteps, List.dropLast_concat] at h
      refine read_eq_ok_iff.2 ⟨?_, Bool.eq_false_iff.2 hdir, hsteps ▸ walk_within h⟩
      rintro rfl
      cases hname

/-- **A file that can be read can be written**, and the directories above it are there. -/
theorem exists_write_of_read {old : String} (h : fs.read path = .ok old) :
    fs.makeParents path = .ok fs ∧ ∀ text, ∃ fs', fs.write path text = .ok fs' := by
  obtain ⟨dirs, name, hsteps⟩ := exists_steps_of_read h
  obtain ⟨-, hdir, hwalk⟩ := read_eq_ok_iff.1 h
  rw [hsteps] at hwalk
  refine ⟨?_, fun text => ?_⟩
  · rw [makeParents, PathName.parent, hsteps, List.dropLast_concat]
    exact makeDirectories_of_walk hwalk
  · obtain ⟨fs', hfs'⟩ := exists_within_of_walk hwalk text
    refine ⟨fs', ?_⟩
    simp only [write, hsteps, List.getLast?_concat, hdir, List.dropLast_concat]
    exact hfs'

end Files
end RemoteModels
