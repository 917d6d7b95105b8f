import RemoteModels.Proofs.Directory.Files
import RemoteModels.Proofs.Faults
import RemoteModels.Proofs.Specification.Layers

/-!
# Loading a directory

What comes out of a directory is told by its specification files, as a set: by what each of them
says, or what is wrong with it, and by how their names compare byte by byte.

The files are sorted by name before they are read, and two files of one directory never have the
same name.  So the order of reading is a strict order on the files, and the first and last file with
a declaration are determined by the set of files.  The outcome is stated with these notions only: it
never mentions a list of files, nor the place of a file in one.

* `Directory.IsFile` — a specification file of a directory.
* `Directory.DeclaredFirst`, `Directory.DeclaredLast` — the first and the last file with a name.
* `Directory.Outcome` — what comes out of these files.
* `Directory.chosen_eq_of_isFile` — the same files are read in the same order.
* `Directory.load_eq` — loading reads the files and writes each over those before it.
* `Directory.load_outcome` — and that gives the outcome, whatever the order of the listing.
-/

set_option autoImplicit false

namespace RemoteModels
namespace Directory

/-! ## What is expected

A name that several files declare has its place from the first of them and its declaration from the
last.  Both are the foremost file of some kind, in opposite directions of the order of names, and so
there is one notion with the direction as a parameter. -/

/-- A specification file of a directory: not a directory, and with one of the endings. -/
def IsFile (nodes : List (String × Node)) (file : String × List UInt8) : Prop :=
  (file.1, .file file.2) ∈ nodes ∧ ∃ format, FormatOf file.1 format

/-- The file says what the part is, the part has the name, and no file that is ahead has it. -/
structure Foremost (ahead : String → String → Prop) (nodes : List (String × Node)) (name : String)
    (file : String × List UInt8) (part : Specification) : Prop where
  isFile : IsFile nodes file
  reads : Reads file part
  declares : name ∈ part.entries.names
  not_ahead : ∀ other part', IsFile nodes other → Reads other part' → ahead other.1 file.1 →
    name ∉ part'.entries.names

/-- The first file that has a name, with what it says. -/
def DeclaredFirst (nodes : List (String × Node)) (name : String) (file : String × List UInt8)
    (part : Specification) : Prop :=
  Foremost Text.Bytewise nodes name file part

/-- The last file that has a name, with what it says. -/
def DeclaredLast (nodes : List (String × Node)) (name : String) (file : String × List UInt8)
    (part : Specification) : Prop :=
  Foremost (fun a b => Text.Bytewise b a) nodes name file part

/-- What comes out of a directory. -/
structure Outcome (nodes : List (String × Node)) (result : Except Fault Specification) : Prop where
  /-- There is a specification exactly if every file says something. -/
  succeeds : (∃ s, result = .ok s) ↔ ∀ file, IsFile nodes file → ∃ part, Reads file part
  /-- The names are those of the files, -/
  name_iff : ∀ s, result = .ok s → ∀ name,
    name ∈ s.entries.names ↔ ∃ file part, DeclaredFirst nodes name file part
  /-- each with the declaration in the last file that has it, -/
  get?_iff : ∀ s, result = .ok s → ∀ name body,
    s.entries.get? name = some body
      ↔ ∃ file part, DeclaredLast nodes name file part ∧ part.entries.get? name = some body
  /-- in the order of the first files that have them, and of the places there. -/
  order_iff : ∀ s, result = .ok s → ∀ n m file part other part',
    DeclaredFirst nodes n file part → DeclaredFirst nodes m other part' →
      ([n, m].Sublist s.entries.names ↔ Text.Bytewise file.1 other.1 ∨
        file = other ∧ [n, m].Sublist part.entries.names)
  /-- The fault is that of the first file in which something is wrong, whatever follows it. -/
  fault_iff : ∀ e, result = .error e ↔ ∃ file, IsFile nodes file ∧ Offends file e ∧
    ∀ other, IsFile nodes other → Text.Bytewise other.1 file.1 → ∃ part, Reads other part

/-! ## The files in order

The listing is filtered and sorted.  What comes out is sorted strictly, and a sorted list is known
by its elements; whatever else the listing holds, and in what order, is gone from here on. -/

variable {nodes : List (String × Node)}

theorem mem_files {file : String × List UInt8} :
    file ∈ files nodes ↔ (file.1, .file file.2) ∈ nodes := by
  rw [files, List.mem_filterMap]
  constructor
  · rintro ⟨⟨name, bytes | _⟩, hnode, heq⟩
    · cases heq
      exact hnode
    · cases heq
  · intro hnode
    exact ⟨_, hnode, rfl⟩

/-- The names of the files are among those of the listing, in its order. -/
theorem names_files_sublist (nodes : List (String × Node)) :
    ((files nodes).map Prod.fst).Sublist (Members.names nodes) := by
  induction nodes with
  | nil => exact .slnil
  | cons node rest ih =>
    obtain ⟨name, bytes | _⟩ := node
    · exact ih.cons_cons name
    · exact ih.cons name

/-- The files that are read are the specification files. -/
theorem mem_chosen {file : String × List UInt8} : file ∈ chosen nodes ↔ IsFile nodes file := by
  rw [chosen, List.mem_mergeSort, List.mem_filter, mem_files, isSpecification_iff, IsFile]

theorem names_chosen_nodup (h : (Members.names nodes).Nodup) :
    (((files nodes).filter (isSpecification ·.1)).map Prod.fst).Nodup :=
  h.sublist ((List.filter_sublist.map Prod.fst).trans (names_files_sublist nodes))

/-- They are read in the order of their names. -/
theorem pairwise_chosen (h : (Members.names nodes).Nodup) :
    (chosen nodes).Pairwise fun a b => a.1 < b.1 :=
  Text.pairwise_lt_mergeSort (names_chosen_nodup h)

/-- **The same files are read in the same order**, in whatever order they are listed and whatever is
listed with them. -/
theorem chosen_eq_of_isFile {nodes' : List (String × Node)} (h : (Members.names nodes).Nodup)
    (h' : (Members.names nodes').Nodup) (hsame : ∀ file, IsFile nodes file ↔ IsFile nodes' file) :
    chosen nodes = chosen nodes' := by
  have hperm : ((files nodes).filter (isSpecification ·.1)).Perm (chosen nodes') := by
    refine (List.perm_ext_iff_of_nodup (names_chosen_nodup h).of_map
      ((pairwise_chosen h').imp fun hlt heq => String.ne_of_lt hlt (congrArg Prod.fst heq))).2 ?_
    intro file
    rw [mem_chosen, ← hsame file, ← mem_chosen, chosen, List.mem_mergeSort]
  exact Text.mergeSort_eq_of_perm hperm (pairwise_chosen h')

section Split

variable {before after : List (String × List UInt8)} {file other : String × List UInt8}
  (h : (before ++ file :: after).Pairwise fun a b => a.1 < b.1)

include h

/-- The files read before a file are those whose names come before its name, -/
theorem mem_before_iff :
    other ∈ before ↔ other ∈ before ++ file :: after ∧ Text.Bytewise other.1 file.1 := by
  rw [Text.bytewise_iff_lt]
  obtain ⟨-, hafter, hbefore⟩ := List.pairwise_append.1 h
  constructor
  · intro hother
    exact ⟨List.mem_append_left _ hother, hbefore other hother file List.mem_cons_self⟩
  · rintro ⟨hother, hlt⟩
    rcases List.mem_append.1 hother with hother | hother
    · exact hother
    rcases List.mem_cons.1 hother with rfl | hother
    · exact absurd hlt (String.lt_irrefl _)
    · exact absurd (List.rel_of_pairwise_cons hafter hother) (String.lt_asymm hlt)

/-- and those read after it are those whose names come after. -/
theorem mem_after_iff :
    other ∈ after ↔ other ∈ before ++ file :: after ∧ Text.Bytewise file.1 other.1 := by
  rw [Text.bytewise_iff_lt]
  obtain ⟨-, hafter, hbefore⟩ := List.pairwise_append.1 h
  constructor
  · intro hother
    exact ⟨List.mem_append_right _ (List.mem_cons_of_mem _ hother),
      List.rel_of_pairwise_cons hafter hother⟩
  · rintro ⟨hother, hlt⟩
    rcases List.mem_append.1 hother with hother | hother
    · exact absurd (hbefore other hother file List.mem_cons_self) (String.lt_asymm hlt)
    rcases List.mem_cons.1 hother with rfl | hother
    · exact absurd hlt (String.lt_irrefl _)
    · exact hother

end Split

/-- Of two specification files one comes before the other. -/
theorem bytewise_or_eq_or_bytewise (hn : (Members.names nodes).Nodup)
    {file other : String × List UInt8} (hfile : IsFile nodes file) (hother : IsFile nodes other) :
    Text.Bytewise file.1 other.1 ∨ file = other ∨ Text.Bytewise other.1 file.1 := by
  have hsorted := pairwise_chosen hn
  have hmem := mem_chosen.2 hother
  obtain ⟨before, after, hsplit⟩ := List.append_of_mem (mem_chosen.2 hfile)
  rw [hsplit] at hsorted hmem
  rcases List.mem_append.1 hmem with hbefore | hrest
  · exact .inr (.inr ((mem_before_iff hsorted).1 hbefore).2)
  rcases List.mem_cons.1 hrest with rfl | hafter
  · exact .inr (.inl rfl)
  · exact .inl ((mem_after_iff hsorted).1 hafter).2

/-! ## Reading them

The loader reads and merges in one loop.  Since merging cannot fail, the loop can be taken apart
into reading all files and then merging what they say, and the first half is a loop whose faults are
those of `FirstFault`. -/

/-- Reading all files, and then writing each over those before it. -/
theorem mergeFiles_eq (s : Specification) (fs : List (String × List UInt8)) :
    (mergeFiles s fs).1
      = (fs.mapM fun file => readFile file.1 file.2).map fun parts =>
          s.merge (Specification.mergeAll parts) := by
  induction fs generalizing s with
  | nil => rfl
  | cons file rest ih =>
    rw [mergeFiles, List.mapM_cons]
    cases hfile : readFile file.1 file.2 with
    | error e => rfl
    | ok part =>
      show (mergeFiles (s.merge part) rest).1 = _
      rw [ih]
      cases rest.mapM fun file => readFile file.1 file.2 with
      | error e => rfl
      | ok parts =>
        show Except.ok ((s.merge part).merge (Specification.mergeAll parts))
          = .ok (s.merge (Specification.mergeAll (part :: parts)))
        rw [Specification.mergeAll_cons, Specification.merge_assoc]

/-- **Loading reads the files and writes each over those before it.** -/
theorem load_eq (nodes : List (String × Node)) :
    (load (.entries nodes)).1
      = ((chosen nodes).mapM fun file => readFile file.1 file.2).map Specification.mergeAll := by
  show (mergeFiles .empty (chosen nodes)).1 = _
  rw [mergeFiles_eq]
  exact congrArg (Except.map · _) (funext fun parts => Specification.empty_merge _)

/-- Loading succeeds exactly if every specification file says something. -/
theorem exists_load_eq_ok_iff :
    (∃ s, (load (.entries nodes)).1 = .ok s)
      ↔ ∀ file, IsFile nodes file → ∃ part, Reads file part := by
  have hparts : (∃ s, (load (.entries nodes)).1 = .ok s)
      ↔ ∃ parts, ((chosen nodes).mapM fun file => readFile file.1 file.2) = .ok parts := by
    simp only [load_eq, map_eq_ok_iff]
    constructor
    · rintro ⟨s, parts, h, -⟩
      exact ⟨parts, h⟩
    · rintro ⟨parts, h⟩
      exact ⟨_, parts, h, rfl⟩
  rw [hparts, exists_mapM_eq_ok_iff]
  refine forall_congr' fun file => ?_
  rw [mem_chosen]
  refine forall_congr' fun hfile => exists_congr fun part => ?_
  obtain ⟨-, format, hformat⟩ := hfile
  exact readFile_eq_ok_iff hformat

/-- **The fault is that of the first file in which something is wrong.** -/
theorem load_eq_error_iff (hn : (Members.names nodes).Nodup) {e : Fault} :
    (load (.entries nodes)).1 = .error e ↔ ∃ file, IsFile nodes file ∧ Offends file e ∧
      ∀ other, IsFile nodes other → Text.Bytewise other.1 file.1 → ∃ part, Reads other part := by
  have hsorted := pairwise_chosen hn
  rw [load_eq, map_eq_error_iff, mapM_eq_error_iff fun _ _ => Iff.rfl]
  constructor
  · rintro ⟨before, file, after, hsplit, hbefore, he⟩
    rw [hsplit] at hsorted
    have hfile : IsFile nodes file := by
      rw [← mem_chosen, hsplit]
      exact List.mem_append_right _ List.mem_cons_self
    obtain ⟨format, hformat⟩ := hfile.2
    refine ⟨file, hfile, (readFile_eq_error_iff hformat).1 he, fun other hother hlt => ?_⟩
    -- Files are sorted, so those with a smaller name are the ones that were read before.
    have hmem : other ∈ before := by
      rw [mem_before_iff hsorted, ← hsplit, mem_chosen]
      exact ⟨hother, hlt⟩
    obtain ⟨format', hformat'⟩ := hother.2
    refine (reads_or_offends hformat').resolve_right ?_
    rintro ⟨e', he'⟩
    exact hbefore other hmem e' (readFile_of_offends he')
  · rintro ⟨file, hfile, he, hearlier⟩
    obtain ⟨before, after, hsplit⟩ := List.append_of_mem (mem_chosen.2 hfile)
    rw [hsplit] at hsorted
    refine ⟨before, file, after, hsplit, fun other hother e' he' => ?_, readFile_of_offends he⟩
    rw [mem_before_iff hsorted, ← hsplit, mem_chosen] at hother
    obtain ⟨part, hpart⟩ := hearlier other hother.1 hother.2
    cases (readFile_of_reads hpart).symm.trans he'

/-! ## What the files say together

From here on every file says something, and what it says is a function of the file (`contents`).
The layers of a specification do the rest: a name belongs to the first and to the last layer that
has it, and layers are files in order. -/

/-- What a file says, if it says something. -/
def contents (file : String × List UInt8) : Specification :=
  (readFile file.1 file.2).toOption.getD .empty

/-- What a file says is its contents. -/
theorem contents_of_reads {file : String × List UInt8} {part : Specification}
    (h : Reads file part) : contents file = part := by
  rw [contents, readFile_of_reads h]
  rfl

/-- What the files say together. -/
def merged (nodes : List (String × Node)) : Specification :=
  Specification.mergeAll ((chosen nodes).map contents)

/-- A name is there if some file has it. -/
theorem mem_names_merged {name : String} :
    name ∈ (merged nodes).entries.names
      ↔ ∃ file ∈ chosen nodes, name ∈ (contents file).entries.names := by
  rw [merged, Specification.mem_names_mergeAll]
  simp

section Readable

variable (hreads : ∀ file, IsFile nodes file → ∃ part, Reads file part)

include hreads

theorem reads_contents {file : String × List UInt8} (hfile : IsFile nodes file) :
    Reads file (contents file) := by
  obtain ⟨part, hpart⟩ := hreads file hfile
  rwa [contents_of_reads hpart]

/-- Loading gives what the files say together. -/
theorem load_eq_merged : (load (.entries nodes)).1 = .ok (merged nodes) := by
  have hall : ((chosen nodes).mapM fun file => readFile file.1 file.2)
      = .ok ((chosen nodes).map contents) := by
    rw [mapM_eq_ok_iff, List.forall₂_map_right_iff, List.forall₂_same]
    intro file hfile
    exact readFile_of_reads (reads_contents hreads (mem_chosen.1 hfile))
  rw [load_eq, hall]
  rfl

/-! ## Which file decides

By the order of names there is a first and a last file that declares a model.  The first decides
about its place and the last about its declaration. -/

/-- Whether a file is the foremost with a name is told by the files ahead of it. -/
theorem foremost_contents_iff {ahead : String → String → Prop} {name : String}
    {file : String × List UInt8} {others : List (String × List UInt8)} (hfile : IsFile nodes file)
    (hothers : ∀ other, other ∈ others ↔ other ∈ chosen nodes ∧ ahead other.1 file.1) :
    Foremost ahead nodes name file (contents file)
      ↔ name ∈ (contents file).entries.names ∧
        ∀ part ∈ others.map contents, name ∉ part.entries.names := by
  rw [List.forall_mem_map]
  constructor
  · intro h
    refine ⟨h.declares, fun other hother => ?_⟩
    rw [hothers, mem_chosen] at hother
    exact h.not_ahead other _ hother.1 (reads_contents hreads hother.1) hother.2
  · rintro ⟨hname, hnone⟩
    refine ⟨hfile, reads_contents hreads hfile, hname, fun other part hother hpart hahead => ?_⟩
    rw [← contents_of_reads hpart]
    exact hnone other ((hothers other).2 ⟨mem_chosen.2 hother, hahead⟩)

variable (hn : (Members.names nodes).Nodup)

include hn

/-- A file is the first with a name if none of those before it has the name, -/
theorem declaredFirst_iff {before after : List (String × List UInt8)}
    {file : String × List UInt8} (hsplit : chosen nodes = before ++ file :: after) {name : String} :
    DeclaredFirst nodes name file (contents file)
      ↔ name ∈ (contents file).entries.names ∧
        ∀ part ∈ before.map contents, name ∉ part.entries.names := by
  have hsorted := pairwise_chosen hn
  have hfile : file ∈ chosen nodes := by simp [hsplit]
  refine foremost_contents_iff hreads (mem_chosen.1 hfile) fun other => ?_
  rw [hsplit] at hsorted ⊢
  exact mem_before_iff hsorted

/-- and the last if none of those after it has. -/
theorem declaredLast_iff {before after : List (String × List UInt8)}
    {file : String × List UInt8} (hsplit : chosen nodes = before ++ file :: after) {name : String} :
    DeclaredLast nodes name file (contents file)
      ↔ name ∈ (contents file).entries.names ∧
        ∀ part ∈ after.map contents, name ∉ part.entries.names := by
  have hsorted := pairwise_chosen hn
  have hfile : file ∈ chosen nodes := by simp [hsplit]
  refine foremost_contents_iff hreads (mem_chosen.1 hfile) fun other => ?_
  rw [hsplit] at hsorted ⊢
  exact mem_after_iff hsorted

/-- A name that is there is declared first by some file. -/
theorem mem_names_merged_iff {name : String} :
    name ∈ (merged nodes).entries.names ↔ ∃ file part, DeclaredFirst nodes name file part := by
  rw [mem_names_merged]
  constructor
  · intro h
    obtain ⟨before, file, after, hsplit, hname, hbefore⟩ := exists_first h
    refine ⟨file, _, (declaredFirst_iff hreads hn hsplit).2 ⟨hname, ?_⟩⟩
    exact List.forall_mem_map.2 hbefore
  · rintro ⟨file, part, h⟩
    rw [← contents_of_reads h.reads] at h
    exact ⟨file, mem_chosen.2 h.isFile, h.declares⟩

/-- The last file with a name decides on its declaration. -/
theorem get?_merged_of_declaredLast {name : String} {file : String × List UInt8}
    {part : Specification} (h : DeclaredLast nodes name file part) :
    (merged nodes).entries.get? name = part.entries.get? name := by
  obtain rfl := contents_of_reads h.reads
  obtain ⟨before, after, hsplit⟩ := List.append_of_mem (mem_chosen.2 h.isFile)
  obtain ⟨hname, hafter⟩ := (declaredLast_iff hreads hn hsplit).1 h
  rw [merged, hsplit, List.map_append, List.map_cons]
  exact Specification.get?_mergeAll hname hafter

/-- **A name has the declaration in the last file that has it.** -/
theorem get?_merged_iff {name : String} {body : Json.Object} :
    (merged nodes).entries.get? name = some body
      ↔ ∃ file part, DeclaredLast nodes name file part ∧ part.entries.get? name = some body := by
  constructor
  · intro hbody
    have hname : name ∈ (merged nodes).entries.names :=
      Members.isSome_get?_iff.1 (Option.isSome_of_eq_some hbody)
    obtain ⟨before, file, after, hsplit, hfile, hafter⟩ := exists_last (mem_names_merged.1 hname)
    have hlast := (declaredLast_iff hreads hn hsplit).2 ⟨hfile, List.forall_mem_map.2 hafter⟩
    refine ⟨file, _, hlast, ?_⟩
    rw [← get?_merged_of_declaredLast hreads hn hlast, hbody]
  · rintro ⟨file, part, hlast, hbody⟩
    rw [get?_merged_of_declaredLast hreads hn hlast, hbody]

/-! ## Their order

Two names are compared by the files that placed them.  If these are different files, the names stand
as the files do; in one file they stand as the file has them. -/

variable {n m : String} {file other : String × List UInt8} {part part' : Specification}

/-- Names that different files placed. -/
theorem sublist_names_of_bytewise (hfile : DeclaredFirst nodes n file part)
    (hother : DeclaredFirst nodes m other part') (hlt : Text.Bytewise file.1 other.1) :
    [n, m].Sublist (merged nodes).entries.names := by
  obtain rfl := contents_of_reads hfile.reads
  obtain rfl := contents_of_reads hother.reads
  obtain ⟨before, after, hsplit⟩ := List.append_of_mem (mem_chosen.2 hother.isFile)
  obtain ⟨hm, hbefore⟩ := (declaredFirst_iff hreads hn hsplit).1 hother
  have hmem : file ∈ before := by
    rw [mem_before_iff (hsplit ▸ pairwise_chosen hn), ← hsplit, mem_chosen]
    exact ⟨hfile.isFile, hlt⟩
  rw [merged, hsplit, List.map_append]
  refine Specification.sublist_names_of_layers ?_ ?_ hbefore
  · exact ⟨_, List.mem_map_of_mem hmem, hfile.declares⟩
  · exact ⟨_, List.mem_map_of_mem List.mem_cons_self, hm⟩

/-- Names that one file placed. -/
theorem sublist_names_of_same (hfile : DeclaredFirst nodes n file part)
    (hsame : DeclaredFirst nodes m file part) (h : [n, m].Sublist part.entries.names) :
    [n, m].Sublist (merged nodes).entries.names := by
  obtain rfl := contents_of_reads hfile.reads
  obtain ⟨before, after, hsplit⟩ := List.append_of_mem (mem_chosen.2 hfile.isFile)
  rw [merged, hsplit, List.map_append, List.map_cons]
  exact Specification.sublist_names_of_layer h ((declaredFirst_iff hreads hn hsplit).1 hfile).2
    ((declaredFirst_iff hreads hn hsplit).1 hsame).2

/-- **Names are in the order of the first files that have them, and of their places there.** -/
theorem sublist_names_merged_iff (hfile : DeclaredFirst nodes n file part)
    (hother : DeclaredFirst nodes m other part') :
    [n, m].Sublist (merged nodes).entries.names
      ↔ Text.Bytewise file.1 other.1 ∨ file = other ∧ [n, m].Sublist part.entries.names := by
  constructor
  · intro h
    have hdistinct := (merged nodes).distinct
    have hne : n ≠ m := by
      rintro rfl
      exact List.nodup_iff_sublist.1 hdistinct n h
    rcases bytewise_or_eq_or_bytewise hn hfile.isFile hother.isFile with hlt | rfl | hgt
    · exact .inl hlt
    · obtain rfl : part = part' := by
        rw [← contents_of_reads hfile.reads, contents_of_reads hother.reads]
      refine .inr ⟨rfl, (sublist_or_swap hfile.declares hother.declares hne).resolve_right ?_⟩
      intro hswap
      exact not_sublist_swap hdistinct h (sublist_names_of_same hreads hn hother hfile hswap)
    · exact absurd (sublist_names_of_bytewise hreads hn hother hfile hgt)
        (not_sublist_swap hdistinct h)
  · rintro (hlt | ⟨rfl, h⟩)
    · exact sublist_names_of_bytewise hreads hn hfile hother hlt
    · obtain rfl : part = part' := by
        rw [← contents_of_reads hfile.reads, contents_of_reads hother.reads]
      exact sublist_names_of_same hreads hn hfile hother h

end Readable

/-! ## The outcome

The parts are put together.  No specification file is needed for success: a directory without any
gives an empty specification. -/

/-- **What comes out of loading is the outcome of the files.** -/
theorem outcome_load (hn : (Members.names nodes).Nodup) :
    Outcome nodes (load (.entries nodes)).1 := by
  -- what is loaded, if anything is, is what the files say together
  have hok : ∀ s, (load (.entries nodes)).1 = .ok s →
      (∀ file, IsFile nodes file → ∃ part, Reads file part) ∧ s = merged nodes := by
    intro s hs
    have hreads := exists_load_eq_ok_iff.1 ⟨s, hs⟩
    exact ⟨hreads, Except.ok.inj (hs.symm.trans (load_eq_merged hreads))⟩
  refine ⟨exists_load_eq_ok_iff, fun s hs name => ?_, fun s hs name body => ?_,
    fun s hs n m file part other part' hfile hother => ?_, fun e => load_eq_error_iff hn⟩
  · obtain ⟨hreads, rfl⟩ := hok s hs
    exact mem_names_merged_iff hreads hn
  · obtain ⟨hreads, rfl⟩ := hok s hs
    exact get?_merged_iff hreads hn
  · obtain ⟨hreads, rfl⟩ := hok s hs
    exact sublist_names_merged_iff hreads hn hfile hother

/-- The same specification files give the same result, whatever else is listed. -/
theorem load_eq_of_isFile {nodes' : List (String × Node)} (hn : (Members.names nodes).Nodup)
    (hn' : (Members.names nodes').Nodup) (hsame : ∀ file, IsFile nodes file ↔ IsFile nodes' file) :
    (load (.entries nodes')).1 = (load (.entries nodes)).1 := by
  rw [load_eq, load_eq, chosen_eq_of_isFile hn hn' hsame]

/-- **What comes out of a directory is told by its specification files as a set.**  Two listings
with the same specification files, such as two orders of one listing, give the same specification
or the same fault, and this is the outcome that these files have.  Only what is reported about other
files is in the order of the listing. -/
theorem load_outcome (nodes : List (String × Node)) (hn : (Members.names nodes).Nodup) :
    Outcome nodes (load (.entries nodes)).1 ∧
      (∀ nodes', (Members.names nodes').Nodup →
        (∀ file, IsFile nodes file ↔ IsFile nodes' file) →
          (load (.entries nodes')).1 = (load (.entries nodes)).1) ∧
      ∀ nodes', nodes.Perm nodes' → (load (.entries nodes')).1 = (load (.entries nodes)).1 := by
  refine ⟨outcome_load hn, fun nodes' hn' => load_eq_of_isFile hn hn', fun nodes' hperm => ?_⟩
  have hn' : (Members.names nodes').Nodup := (hperm.map Prod.fst).nodup_iff.1 hn
  exact load_eq_of_isFile hn hn' fun file => and_congr_left' hperm.mem_iff

end Directory

namespace MixedListing

/-- The file that places the widget. -/
def early : String × List UInt8 := ("a.yaml", Text.bytes "Widget:\n  label: string\n")

/-- The file that declares it. -/
def late : String × List UInt8 :=
  ("b.json", Text.bytes "\x7b\"Gadget\":\x7b\x7d,\"Widget\":\x7b\"shelf\":\"int\"\x7d\x7d")

/-- The late file is listed in front, and between the two is what does not count: a file that is not
even text, and a directory. -/
def listing : List (String × Directory.Node) :=
  [(late.1, .file late.2), ("README.md", .file [0xFF]), ("old.yaml", .directory),
    (early.1, .file early.2)]

/-- Of the four entries two are read, and not in the order in which they are listed. -/
theorem chosen_listing : Directory.chosen listing = [early, late] := by
  have hfiles : (Directory.files listing).filter (Directory.isSpecification ·.1)
      = [late, early] := by
    have hlate : Directory.isSpecification late.1 = true := by decide +kernel
    have hreadme : Directory.isSpecification "README.md" = false := by decide +kernel
    have hearly : Directory.isSpecification early.1 = true := by decide +kernel
    simp [Directory.files, listing, hlate, hreadme, hearly]
  rw [Directory.chosen, hfiles]
  have hlt : early.1 < late.1 := by decide
  exact Text.mergeSort_eq_of_perm (.swap early late []) (List.pairwise_pair.2 hlt)

/-- Whether the widget is in front, with a shelf, and the gadget behind it. -/
def shelved (s : Specification) : Bool :=
  s.entries.names == ["Widget", "Gadget"] &&
    (s.entries.get? "Widget").map Members.names == some ["shelf"]

/-- In the opposite order the listing gives the same. -/
theorem load_outcome_mixedListing : (Members.names listing).Nodup ∧
    Directory.Outcome listing (Directory.load (.entries listing)).1 ∧
    ∃ s, shelved s = true ∧ (Directory.load (.entries listing)).1 = .ok s ∧
      (Directory.load (.entries listing.reverse)).1 = .ok s := by
  have hn : (Members.names listing).Nodup := by decide
  obtain ⟨s, hs, hshelved⟩ := (Option.any_eq_true _ _).1
    (show (Directory.mergeFiles .empty [early, late]).1.toOption.any shelved by decide +kernel)
  have hload : (Directory.load (.entries listing)).1 = .ok s := by
    show (Directory.mergeFiles .empty (Directory.chosen listing)).1 = .ok s
    rw [chosen_listing]
    exact eq_ok_of_toOption hs
  obtain ⟨houtcome, -, hperm⟩ := Directory.load_outcome listing hn
  refine ⟨hn, houtcome, s, hshelved, hload, ?_⟩
  rw [hperm listing.reverse listing.reverse_perm.symm, hload]

end MixedListing
end RemoteModels
