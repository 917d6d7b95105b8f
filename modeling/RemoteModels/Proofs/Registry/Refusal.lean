import RemoteModels.Loader
import RemoteModels.Proofs.Registry.Lookup
import RemoteModels.Proofs.Specification.Documents
import RemoteModels.Proofs.Specification.Names

/-!
# Which specifications have a registry

A document becomes a specification by its shape alone; its names are looked at only when a registry
is built.  All descriptors are made before the first gateway is put in.  So it is the first entry
with a bad name that decides, and nothing has been reported about other entries by then, even if
one of them would have taken the place of another.

* `Registry.ofSpecification_eq_error_iff` — the first bad name is the fault.
* `Loader.build_of_refused` — loading such a specification reports no replacements.
* `Registry.Refusal`, `Specification.accepted_exactly` — what is accepted, from the document to the
  registry.
-/

set_option autoImplicit false

namespace RemoteModels

open Json (Value Object)

/-! ## Descriptors

A list of entries is read up to its first fault, which is the fault of the whole. -/

namespace Descriptor

/-- A declaration is refused for its name only. -/
theorem ofDeclaration_eq_error_iff {fullName : String} {body : Object} {e : SpecificationError} :
    ofDeclaration fullName body = .error e ↔ NameFault fullName e := by
  rw [← localName_eq_error_iff, ofDeclaration]
  cases RemoteModels.localName fullName with
  | error e' =>
    show Except.error e' = .error e ↔ _
    rw [Except.error.injEq, Except.error.injEq]
  | ok name => exact iff_of_false (fun h => by cases h) (fun h => by cases h)

end Descriptor

namespace Registry

variable {s : Specification} {e : SpecificationError}

/-- The descriptors fail with the first bad name. -/
theorem descriptors_eq_error_iff :
    s.descriptors = .error e ↔ FirstFault (fun entry => NameFault entry.1) s.entries e := by
  rw [Specification.descriptors, Descriptor.ofEntries_eq_mapM]
  exact mapM_eq_error_iff fun _ _ => Descriptor.ofDeclaration_eq_error_iff

/-- **The first entry with a bad name is the fault.** -/
theorem ofSpecification_eq_error_iff :
    ofSpecification s = .error e ↔ FirstFault (fun entry => NameFault entry.1) s.entries e := by
  rw [← descriptors_eq_error_iff, ofSpecification]
  cases s.descriptors with
  | error e' =>
    show Except.error e' = .error e ↔ _
    rw [Except.error.injEq, Except.error.injEq]
  | ok ds => exact iff_of_false (fun h => by cases h) (fun h => by cases h)

/-- When there is a bad name, without saying which. -/
theorem exists_ofSpecification_eq_error_iff :
    (∃ e, ofSpecification s = .error e)
      ↔ ∃ entry ∈ s.entries, entry.1 = "" ∨ chosenSegment (segments entry.1) = [] := by
  simp only [← exists_nameFault_iff]
  constructor
  · rintro ⟨e, h⟩
    obtain ⟨before, entry, after, hsplit, -, hfault⟩ := ofSpecification_eq_error_iff.1 h
    exact ⟨entry, by simp [hsplit], e, hfault⟩
  · rintro ⟨entry, hentry, e, hfault⟩
    -- A registry would have a local name for every entry.
    have hname := localName_eq_error_iff.2 hfault
    cases hs : ofSpecification s with
    | error e' => exact ⟨e', rfl⟩
    | ok built =>
      obtain ⟨name, hok⟩ := exists_ofSpecification_iff.1 ⟨_, _, hs⟩ entry hentry
      rw [hname] at hok
      cases hok

end Registry

/-! ## Loading

What is reported while a document is read is for debugging.  Warnings come from the registry alone,
and where there is no registry there is none. -/

namespace Loader

variable {l : Loader} {answer : TextAnswer}

theorem level_of_mem_read {entry : LogEntry} (h : entry ∈ (l.read answer).2) :
    entry.level = .debug := by
  cases answer with
  | error e => cases h
  | ok response =>
    rw [List.mem_singleton.1 h]

/-- **A specification with a bad name is refused before a replacement has been reported.** -/
theorem build_of_refused {s : Specification} {logs : List LogEntry} {e : SpecificationError}
    (hread : l.read answer = (.ok s, logs)) (hs : Registry.ofSpecification s = .error e) :
    l.build answer = (.error (.parse e), logs) ∧
      ∀ new old, Registry.replacement new old ∉ logs := by
  refine ⟨by rw [build, hread]; simp only [hs], fun new old hmem => ?_⟩
  have hlogs : (l.read answer).2 = logs := congrArg Prod.snd hread
  have hlevel : Level.warn = .debug := level_of_mem_read (hlogs ▸ hmem)
  cases hlevel

end Loader

/-! ## From the document to the registry

Three things can go wrong on the way: the shape of the document, the merging of documents, and the
names.  The last is treated here and put together with the others. -/

/-- When and why a specification has no registry. -/
structure Registry.Refusal (s : Specification) : Prop where
  /-- It has none exactly if a full name is empty, or its second or only segment is. -/
  fails : (∃ e, ofSpecification s = .error e)
    ↔ ∃ entry ∈ s.entries, entry.1 = "" ∨ chosenSegment (segments entry.1) = []
  /-- The fault is that of the first such entry. -/
  fault : ∀ e, ofSpecification s = .error e ↔
    FirstFault (fun entry => NameFault entry.1) s.entries e
  /-- Whoever loads it is told of this fault, and of no entry that takes the place of another. -/
  quiet : ∀ (l : Loader) (answer : TextAnswer) (logs : List LogEntry) (e : SpecificationError),
    l.read answer = (.ok s, logs) → ofSpecification s = .error e →
      l.build answer = (.error (.parse e), logs) ∧ ∀ new old, replacement new old ∉ logs
  /-- If its names have descriptors, each entry has one, in the same order. -/
  descriptors : ∀ ds, s.descriptors = .ok ds →
    ds.map (·.fullName) = s.entries.names ∧ ds.length = s.size

/-- **What is accepted, from the document to the registry.**  Values are accepted for their shape;
reading and merging lose no entry; and names are refused when the registry is built. -/
theorem Specification.accepted_exactly :
    (∀ v, Acceptance v) ∧ (∀ recipe : Recipe, recipe.Complete) ∧ ∀ s, Registry.Refusal s := by
  refine ⟨acceptance, Recipe.complete, fun s => ⟨?_, ?_, ?_, ?_⟩⟩
  · exact Registry.exists_ofSpecification_eq_error_iff
  · exact fun _ => Registry.ofSpecification_eq_error_iff
  · exact fun _ _ _ _ => Loader.build_of_refused
  · intro ds hds
    exact ⟨Descriptor.fullNames_ofEntries hds, Descriptor.length_ofEntries hds⟩

/-! ## A bad name behind a replacement

One pass that put each entry in as it came would have warned about the second entry before it failed
at the third. -/

namespace BadNameLast

/-- The second entry would take the place of the first, but the third has no local name. -/
def answer : TextAnswer :=
  .ok ⟨some "application/json",
    "\x7b\"shop.Widget\":\x7b\x7d,\"store.Widget\":null,\"crate.\":\x7b\x7d\x7d"⟩

/-- Whether three entries were read, of which the last one is refused for its name. -/
def refusesThird (s : Specification) : Bool :=
  match Registry.ofSpecification s with
  | .error e => s.size == 3 && e == .emptySegment "crate."
  | .ok _ => false

/-- The bad name is all that is reported. -/
theorem accepted_exactly_badNameLast :
    ∃ s logs, Loader.default.read answer = (.ok s, logs) ∧ s.size = 3 ∧
      (∃ entry ∈ s.entries, entry.1 = "" ∨ chosenSegment (segments entry.1) = []) ∧
      Loader.default.build answer = (.error (.parse (.emptySegment "crate.")), logs) ∧
      ∀ new old, Registry.replacement new old ∉ logs := by
  obtain ⟨s, hs, hrefuses⟩ := (Option.any_eq_true _ _).1
    (show (Loader.default.read answer).1.toOption.any refusesThird by decide +kernel)
  have hread : Loader.default.read answer = (.ok s, (Loader.default.read answer).2) :=
    Prod.ext (eq_ok_of_toOption hs) rfl
  cases hbuild : Registry.ofSpecification s with
  | ok built =>
    rw [refusesThird, hbuild] at hrefuses
    cases hrefuses
  | error e =>
    rw [refusesThird, hbuild] at hrefuses
    obtain ⟨hsize, rfl⟩ : s.size = 3 ∧ e = .emptySegment "crate." := by simpa using hrefuses
    obtain ⟨-, -, hrefusal⟩ := Specification.accepted_exactly
    exact ⟨s, _, hread, hsize, (hrefusal s).fails.1 ⟨_, hbuild⟩,
      (hrefusal s).quiet _ _ _ _ hread hbuild⟩

end BadNameLast
end RemoteModels
