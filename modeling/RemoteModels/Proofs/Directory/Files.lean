import RemoteModels.Directory
import RemoteModels.Proofs.Places
import RemoteModels.Proofs.Specification.Names
import RemoteModels.Proofs.Text.Sorting
import RemoteModels.Proofs.Text.Utf8

/-!
# The specification files of a directory

Which files count is told from the ending of the name behind its last dot, and in which format they
are read from the ending of the path in any case of letters.  The two agree: a file counts if its
name is something, a dot and one of three words, and it is read as JSON if that word is `json`.

* `Directory.HasEnding`, `Directory.FormatOf` — the ending of a name, and the format that belongs
  to it.
* `Directory.isSpecification_iff`, `Directory.ofPath_of_formatOf` — files count if they have a
  format, and are read in it.
* `Directory.Reads`, `Directory.Offends` — what a file says, or what is wrong with it.
* `Directory.readFile_eq_ok_iff`, `Directory.readFile_eq_error_iff` — reading finds out which.
-/

set_option autoImplicit false

namespace RemoteModels
namespace Directory

/-! ## Endings

A name is divided at its last dot.  A name that begins with its only dot has no ending, so a hidden
file does not count; and the ending has to be spelled in small letters to count. -/

/-- A name that is something, a dot and the ending. -/
def HasEnding (name ending : String) : Prop := ∃ stem, stem ≠ "" ∧ name = stem ++ "." ++ ending

/-- The format in which a specification file of this name is written. -/
inductive FormatOf (name : String) : Format → Prop
  | yaml (h : HasEnding name "yaml" ∨ HasEnding name "yml") : FormatOf name .yaml
  | json (h : HasEnding name "json") : FormatOf name .json

/-- The characters of a name that has an ending. -/
theorem hasEnding_iff {name ending : String} :
    HasEnding name ending
      ↔ ∃ stem : List Char, stem ≠ [] ∧ name.toList = stem ++ '.' :: ending.toList := by
  constructor
  · rintro ⟨stem, hstem, rfl⟩
    refine ⟨stem.toList, fun h => hstem ?_, by simp⟩
    rwa [← String.toList_inj]
  · rintro ⟨stem, hstem, hname⟩
    refine ⟨String.ofList stem, fun h => hstem ?_, ?_⟩
    · rw [← String.toList_inj, String.toList_ofList] at h
      exact h
    · rw [← String.toList_inj, hname]
      simp

/-- The extension is what stands behind the last dot, unless nothing is in front of it. -/
theorem extension?_append {name : String} {stem ending : List Char}
    (hname : name.toList = stem ++ '.' :: ending) (hending : '.' ∉ ending) :
    extension? name = if stem = [] then none else some (String.ofList ending) := by
  have hreverse : name.toList.reverse = ending.reverse ++ '.' :: stem.reverse := by
    rw [hname]
    simp
  have hback : '.' ∉ ending.reverse := fun h => hending (List.mem_reverse.1 h)
  have htake : (ending.reverse ++ '.' :: stem.reverse).takeWhile (· ≠ '.') = ending.reverse :=
    firstSegment_append hback stem.reverse
  simp only [extension?, hreverse, dropWhile_append_dot hback, htake]
  simp

/-- A name without a dot has no ending. -/
theorem extension?_of_not_mem {name : String} (h : '.' ∉ name.toList) : extension? name = none := by
  have hback : '.' ∉ name.toList.reverse := fun hdot => h (List.mem_reverse.1 hdot)
  rw [extension?, List.dropWhile_eq_nil_iff.2 (ne_dot_of_not_mem hback)]

/-- The extension of a name is its ending, for endings without a dot of their own. -/
theorem extension?_eq_some_iff {name ending : String} (hending : '.' ∉ ending.toList) :
    extension? name = some ending ↔ HasEnding name ending := by
  rw [hasEnding_iff]
  constructor
  · intro h
    by_cases hdot : '.' ∈ name.toList
    · obtain ⟨stem, _, word, hname, rfl, hword⟩ := exists_last ⟨'.', hdot, rfl⟩
      rw [extension?_append hname fun hmem => hword '.' hmem rfl] at h
      split at h
      · cases h
      next hstem =>
        cases h
        exact ⟨stem, hstem, by rw [hname, String.toList_ofList]⟩
    · rw [extension?_of_not_mem hdot] at h
      cases h
  · rintro ⟨stem, hstem, hname⟩
    rw [extension?_append hname hending, if_neg hstem, String.ofList_toList]

/-- **A file counts if there is a format that belongs to its ending.** -/
theorem isSpecification_iff {name : String} :
    isSpecification name = true ↔ ∃ format, FormatOf name format := by
  have hyaml := @extension?_eq_some_iff name "yaml" (by decide)
  have hyml := @extension?_eq_some_iff name "yml" (by decide)
  have hjson := @extension?_eq_some_iff name "json" (by decide)
  have hthree : isSpecification name = true ↔ extension? name = some "yaml"
      ∨ extension? name = some "yml" ∨ extension? name = some "json" := by
    rw [isSpecification]
    cases extension? name <;> simp
  rw [hthree, hyaml, hyml, hjson]
  constructor
  · rintro (h | h | h)
    · exact ⟨.yaml, .yaml (.inl h)⟩
    · exact ⟨.yaml, .yaml (.inr h)⟩
    · exact ⟨.json, .json h⟩
  · rintro ⟨format, ⟨h | h⟩ | ⟨h⟩⟩
    · exact .inl h
    · exact .inr (.inl h)
    · exact .inr (.inr h)

/-! ## Formats

The format is taken from the path in any case of letters.  For the files that count this is decided
by the last letter alone: of the three endings only `json` ends in an `n`. -/

/-- A name keeps its ending in small letters. -/
theorem lower_of_hasEnding {name ending : String} (h : HasEnding name ending) :
    ∃ stem, Format.lower name = stem ++ '.' :: ending.toList.map Char.toLower := by
  obtain ⟨stem, -, hname⟩ := hasEnding_iff.1 h
  exact ⟨stem.map Char.toLower, by rw [Format.lower, hname, List.map_append]; rfl⟩

/-- A path of another last letter is not a path to JSON. -/
theorem ofPath_eq_yaml_of_getLast? {path : String} {c : Char}
    (hlast : (Format.lower path).getLast? = some c) (hc : c ≠ 'n') :
    Format.ofPath path = .yaml := by
  refine if_neg fun hsuffix => hc ?_
  obtain ⟨stem, hstem⟩ := List.isSuffixOf_iff_suffix.1 hsuffix
  rw [← hstem, List.getLast?_append] at hlast
  exact (Option.some.inj hlast).symm

/-- **A file that counts is read in the format that belongs to its ending.** -/
theorem ofPath_of_formatOf {name : String} {format : Format} (h : FormatOf name format) :
    Format.ofPath name = format := by
  cases h with
  | yaml h =>
    refine ofPath_eq_yaml_of_getLast? (c := 'l') ?_ (by decide)
    rcases h with h | h <;> obtain ⟨stem, hstem⟩ := lower_of_hasEnding h <;>
      rw [hstem, List.getLast?_append] <;> rfl
  | json h =>
    obtain ⟨stem, hstem⟩ := lower_of_hasEnding h
    exact if_pos (List.isSuffixOf_iff_suffix.2 ⟨stem, hstem.symm⟩)

/-! ## Reading one file

Reading a file can fail in two ways, at its bytes and at its text.  The two relations say which
files say something and which do not, and are told apart without reading: every file that counts is
in exactly one of them. -/

/-- A file in UTF-8 whose text is a specification in the format of the file's ending. -/
inductive Reads : String × List UInt8 → Specification → Prop
  | intro {name text : String} {format : Format} {s : Specification}
      (hformat : FormatOf name format) (hparse : Specification.parse format text = .ok s) :
      Reads (name, Text.bytes text) s

/-- A file that is not in UTF-8, or whose text is not a specification in the format of the file's
ending, with the fault. -/
inductive Offends : String × List UInt8 → Fault → Prop
  /-- The bytes are no text. -/
  | encoding {name : String} {bytes : List UInt8} (h : ∀ text, bytes ≠ Text.bytes text) :
      Offends (name, bytes) (.unreadableFile name .invalidData)
  /-- The text is no specification in the format of the file. -/
  | parse {name text : String} {format : Format} {e : SpecificationError}
      (hformat : FormatOf name format) (hparse : Specification.parse format text = .error e) :
      Offends (name, Text.bytes text) (.parse e)

/-- A file in UTF-8 is read as its text, in the format of its ending. -/
theorem readFile_bytes {name : String} {format : Format} (h : FormatOf name format)
    (text : String) :
    readFile name (Text.bytes text) = (Specification.parse format text).mapError .parse := by
  simp only [readFile, Text.strict_eq_some_iff.2 rfl, ofPath_of_formatOf h]
  cases Specification.parse format text <;> rfl

theorem readFile_of_reads {file : String × List UInt8} {s : Specification} (h : Reads file s) :
    readFile file.1 file.2 = .ok s := by
  obtain ⟨hformat, hparse⟩ := h
  rw [readFile_bytes hformat, hparse]
  rfl

theorem readFile_of_offends {file : String × List UInt8} {e : Fault} (h : Offends file e) :
    readFile file.1 file.2 = .error e := by
  cases h with
  | encoding h => rw [readFile, Text.strict_eq_none_iff.2 h]
  | parse hformat hparse =>
    rw [readFile_bytes hformat, hparse]
    rfl

variable {file : String × List UInt8} {format : Format}

/-- A file that counts says something, or something is wrong with it. -/
theorem reads_or_offends (hformat : FormatOf file.1 format) :
    (∃ s, Reads file s) ∨ ∃ e, Offends file e := by
  obtain ⟨name, bytes⟩ := file
  by_cases hencoded : ∃ text, bytes = Text.bytes text
  · obtain ⟨text, rfl⟩ := hencoded
    cases hparse : Specification.parse format text with
    | ok s => exact .inl ⟨s, .intro hformat hparse⟩
    | error e => exact .inr ⟨_, .parse hformat hparse⟩
  · exact .inr ⟨_, .encoding (not_exists.1 hencoded)⟩

/-- **Reading succeeds with what the file says.** -/
theorem readFile_eq_ok_iff (hformat : FormatOf file.1 format) {s : Specification} :
    readFile file.1 file.2 = .ok s ↔ Reads file s := by
  refine ⟨fun h => ?_, readFile_of_reads⟩
  rcases reads_or_offends hformat with ⟨t, ht⟩ | ⟨e, he⟩
  · cases (readFile_of_reads ht).symm.trans h
    exact ht
  · cases (readFile_of_offends he).symm.trans h

/-- **Reading fails with what is wrong with the file.** -/
theorem readFile_eq_error_iff (hformat : FormatOf file.1 format) {e : Fault} :
    readFile file.1 file.2 = .error e ↔ Offends file e := by
  refine ⟨fun h => ?_, readFile_of_offends⟩
  rcases reads_or_offends hformat with ⟨t, ht⟩ | ⟨e', he⟩
  · cases (readFile_of_reads ht).symm.trans h
  · cases (readFile_of_offends he).symm.trans h
    exact he

end Directory
end RemoteModels
