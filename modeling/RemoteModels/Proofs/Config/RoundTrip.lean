import RemoteModels.Proofs.Config.Contexts
import RemoteModels.Proofs.Json.RoundTrip
import RemoteModels.Proofs.Specification.Merge
import RemoteModels.Proofs.Toml.Lines

/-!
# Configurations read back

A configuration is written line by line: the context in use, and for each context a header and its
properties.  What is empty is left out, and comes back empty because nothing is found under its key.

The text is described twice, as characters and as the lines they read as, in one list of pairs
(`Config.lines`).  The first components make up the text, by definition of the writer; the second
make up the document, by the reader of documents; and that each pair is one text and its line is the
theory of lines.  Nothing here looks at a character.

* `Context.properties` — the properties of a context that are written.
* `Config.lines` — the lines of a configuration, `Config.toList_text` its text from them.
* `Config.foldlM_contextLines` — the lines of one context add one table to the document.
* `Config.parse_text` — a configuration reads back from its text.
-/

set_option autoImplicit false

namespace RemoteModels

open Toml

/-! ## The lines of a configuration

The writer puts its text together from strings.  The lemmas of this section turn it into the
concatenation of lines, each with what it says. -/

namespace Context

/-- A property that is set. -/
def property (key value : String) : List (String × String) :=
  if value = "" then [] else [(key, value)]

/-- The keys and values that are written for a context. -/
def properties (x : Context) : List (String × String) :=
  ("name", x.name) ::
    (property "server" x.server ++ property "token" x.token ++ property "spec-path" x.specPath)

/-- The keys of a context are distinct, because they are among four in a fixed order. -/
theorem properties_sublist (x : Context) :
    (x.properties.map Prod.fst).Sublist ["name", "server", "token", "spec-path"] := by
  have hproperty : ∀ key value, ((property key value).map Prod.fst).Sublist [key] := by
    intro key value
    by_cases h : value = "" <;> simp [property, h]
  simp only [properties, List.map_cons, List.map_append]
  exact (((hproperty _ _).append (hproperty _ _)).append (hproperty _ _)).cons_cons "name"

end Context

namespace Config

/-- A string under a key: the text, and what it says. -/
def pairLine (p : String × String) : List Char × Line :=
  (pairChars p.1.toList (textChars p.2.toList), .pair [p.1] (.string p.2))

/-- A header, and a line for each property. -/
def contextLines (x : Context) : List (List Char × Line) :=
  (headerChars "contexts".toList, .arrayHeader ["contexts"]) :: x.properties.map pairLine

/-- What is written for the contexts.  Where there are none, this is said. -/
def contextsLines (xs : List Context) : List (List Char × Line) :=
  if xs.isEmpty then [(pairChars "contexts".toList ['[', ']'], .pair ["contexts"] (.array []))]
  else xs.flatMap contextLines

/-- All lines of a configuration, with what they say. -/
def lines (c : Config) : List (List Char × Line) :=
  pairLine ("current-context", c.current) :: contextsLines c.contexts

theorem toList_pairText (key value : String) :
    (pairText key value).toList = (pairLine (key, value)).1 := by
  simp [pairText, pairLine, pairChars, textOf]

theorem toList_propertyText (key value : String) :
    (propertyText key value).toList
      = ((Context.property key value).map pairLine).flatMap Prod.fst := by
  by_cases h : value = "" <;> simp [propertyText, Context.property, h, toList_pairText]

theorem toList_contextText (x : Context) :
    (contextText x).toList = (contextLines x).flatMap Prod.fst := by
  have hheader : "\n[[contexts]]\n".toList = headerChars "contexts".toList := by decide
  -- Written out here, because the equation of `contextText` takes seconds to derive.
  show ("\n[[contexts]]\n" ++ pairText "name" x.name ++ propertyText "server" x.server ++
    propertyText "token" x.token ++ propertyText "spec-path" x.specPath).toList = _
  simp only [contextLines, Context.properties, String.toList_append, toList_pairText,
    toList_propertyText, hheader, List.flatMap_cons, List.map_cons, List.map_append,
    List.flatMap_append, List.append_assoc]

/-- The text of a configuration is that of its lines. -/
theorem toList_text (c : Config) : c.text.toList = c.lines.flatMap Prod.fst := by
  rw [text, lines, contextsLines, String.toList_append, toList_pairText, List.flatMap_cons]
  by_cases h : c.contexts.isEmpty = true
  · rw [if_pos h, if_pos h]
    rfl
  · rw [if_neg h, if_neg h, String.toList_join, List.flatMap_map, List.flatMap_assoc]
    simp only [toList_contextText]

theorem isLine_pairLine {p : String × String} (h : IsBareKey p.1.toList) :
    IsLine (pairLine p).1 (pairLine p).2 := by
  have hline := isLine_pair h (isValueText_textChars p.2.toList)
  rwa [String.ofList_toList, String.ofList_toList] at hline

theorem isBareKey_contexts : IsBareKey "contexts".toList := ⟨by decide, by decide⟩

/-- Each line of a context reads as what it says. -/
theorem isLine_contextLines (x : Context) : ∀ l ∈ contextLines x, IsLine l.1 l.2 := by
  refine List.forall_mem_cons.2 ⟨isLine_arrayHeader isBareKey_contexts, fun l hl => ?_⟩
  obtain ⟨p, hp, rfl⟩ := List.mem_map.1 hl
  have hkey := x.properties_sublist.subset (List.mem_map_of_mem hp)
  simp only [List.mem_cons, List.not_mem_nil, or_false] at hkey
  refine isLine_pairLine ?_
  rcases hkey with hkey | hkey | hkey | hkey <;> rw [hkey] <;> exact ⟨by decide, by decide⟩

/-- So does each line of a configuration. -/
theorem isLine_lines (c : Config) : ∀ l ∈ c.lines, IsLine l.1 l.2 := by
  have hcurrent : IsBareKey "current-context".toList := ⟨by decide, by decide⟩
  refine List.forall_mem_cons.2 ⟨isLine_pairLine hcurrent, ?_⟩
  rw [contextsLines]
  split
  · refine List.forall_mem_singleton.2 ?_
    exact isLine_pair isBareKey_contexts isValueText_brackets
  · intro l hl
    obtain ⟨x, -, hx⟩ := List.mem_flatMap.1 hl
    exact isLine_contextLines x l hx

/-! ## The document

A document is built line by line: a pair goes into the table that is open, and a header closes that
table and opens the next.  The table that is open is not yet part of the document, so the invariant
is about the document as it would be if it were closed now. -/

/-- A string under a key, in a table that is being built. -/
def leaf (p : String × String) : String × Node := (p.1, .leaf (.string p.2))

/-- The table of a context. -/
def contextTable (x : Context) : Table := { items := x.properties.map leaf }

/-- The document when some contexts have been read. -/
def table (current : String) (xs : List Context) : Table :=
  { items := leaf ("current-context", current) ::
      if xs.isEmpty then [] else [("contexts", .tables (xs.map contextTable))] }

/-- A value under a new key goes behind what is there. -/
theorem insertDotted_singleton {m : Members Node} {key : String} (hkey : key ∉ m.names)
    (v : Value) :
    insertDotted { items := m } [key] v = some { items := m ++ [(key, .leaf v)] } := by
  have hnone : Table.get? { items := m } key = none := Members.get?_of_not_mem hkey
  show setNew [] key v { items := m } = _
  rw [setNew, hnone, Table.put, Members.put_of_not_mem hkey]
  rfl

/-- Pairs with distinct keys go into the open table one behind the other. -/
theorem foldlM_pairLine {m : Members Node} {ps : List (String × String)} {root : Table}
    {path : List String} {inArray : Bool} (h : (m.names ++ ps.map Prod.fst).Nodup) :
    ((ps.map pairLine).map Prod.snd).foldlM Building.add ⟨root, { items := m }, path, inArray⟩
      = some ⟨root, { items := m ++ ps.map leaf }, path, inArray⟩ := by
  induction ps generalizing m with
  | nil => simp
  | cons p ps ih =>
    have hnew : p.1 ∉ m.names := by
      intro hmem
      exact (List.nodup_append.1 h).2.2 p.1 hmem p.1 List.mem_cons_self rfl
    have hadd : Building.add ⟨root, { items := m }, path, inArray⟩ (pairLine p).2
        = some ⟨root, { items := m ++ [leaf p] }, path, inArray⟩ := by
      rw [pairLine, Building.add, insertDotted_singleton hnew]
      rfl
    have hrest : ((m ++ [leaf p]).names ++ ps.map Prod.fst).Nodup := by
      simpa [Members.names, leaf] using h
    rw [List.map_cons, List.map_cons, List.foldlM_cons, hadd]
    show List.foldlM _ _ _ = _
    rw [ih hrest, List.map_cons, List.append_assoc]
    rfl

/-- A header closes the table of the context before it. -/
theorem openArray_table {b : Building} {current : String} {done : List Context}
    (hb : b.close = some (table current done)) :
    b.openArray ["contexts"] = some ⟨table current done, {}, ["contexts"], true⟩ := by
  rw [Building.openArray, hb]
  cases done <;> rfl

/-- A table behind the last header is one more of the array. -/
theorem close_contextTable (current : String) (done : List Context) (x : Context) :
    Building.close ⟨table current done, contextTable x, ["contexts"], true⟩
      = some (table current (done ++ [x])) := by
  cases done with
  | nil => rfl
  | cons y ys =>
    have hmap : (y :: ys ++ [x]).map contextTable
        = (y :: ys).map contextTable ++ [contextTable x] := List.map_append
    rw [table, table, hmap]
    rfl

/-- **The lines of a context add its table to the document.** -/
theorem foldlM_contextLines {b : Building} {current : String} {done : List Context}
    (hb : b.close = some (table current done)) (x : Context) :
    ∃ b', ((contextLines x).map Prod.snd).foldlM Building.add b = some b' ∧
      b'.close = some (table current (done ++ [x])) := by
  refine ⟨_, ?_, close_contextTable current done x⟩
  have hnodup : (x.properties.map Prod.fst).Nodup := x.properties_sublist.nodup (by decide)
  rw [contextLines, List.map_cons, List.foldlM_cons, Building.add, openArray_table hb]
  exact foldlM_pairLine (m := []) hnodup

/-- The lines of all contexts add their tables in order. -/
theorem foldlM_contexts {b : Building} {current : String} {done : List Context}
    (hb : b.close = some (table current done)) (xs : List Context) :
    ∃ b', ((xs.flatMap contextLines).map Prod.snd).foldlM Building.add b = some b' ∧
      b'.close = some (table current (done ++ xs)) := by
  induction xs generalizing b done with
  | nil => exact ⟨b, rfl, by rw [hb, List.append_nil]⟩
  | cons x xs ih =>
    obtain ⟨b₁, hx, hb₁⟩ := foldlM_contextLines hb x
    obtain ⟨b₂, hxs, hb₂⟩ := ih hb₁
    refine ⟨b₂, ?_, ?_⟩
    · rw [List.flatMap_cons, List.map_append, List.foldlM_append, hx]
      exact hxs
    · rw [hb₂, List.append_assoc]
      rfl

/-! ## Reading

What is left out of the text is what is empty, and reading gives the empty string for what is not
found, so the two conventions meet. -/

/-- A string under a key. -/
def stringMember (p : String × String) : String × Value := (p.1, .string p.2)

/-- Strings in a table are read as strings. -/
theorem itemValues_leaf (ps : List (String × String)) :
    itemValues (ps.map leaf) = ps.map stringMember := by
  induction ps with
  | nil => rfl
  | cons p ps ih =>
    rw [List.map_cons, List.map_cons, ← ih]
    rfl

/-- A property is found under its key, unless it was left out. -/
theorem get?_property (key value name : String) :
    Members.get? ((Context.property key value).map stringMember) name
      = if key = name ∧ value ≠ "" then some (.string value) else none := by
  by_cases h : value = "" <;> simp [Context.property, stringMember, Members.get?, h]

/-- What is not found is empty. -/
theorem stringOr_property (value : String) :
    stringOr "" (if value = "" then none else some (.string value)) = some value := by
  by_cases h : value = "" <;> simp [stringOr, h]

/-- **A context reads back from its table.** -/
theorem contextOf_properties (x : Context) :
    contextOf (.table (x.properties.map stringMember)) = some x := by
  simp [contextOf, Context.properties, Members.get?_append, get?_property, stringMember,
    Members.get?, stringOr_property]

/-- The contexts read back from their tables, in order. -/
theorem mapM_tableValues (xs : List Context) :
    (tableValues (xs.map contextTable)).mapM contextOf = some xs := by
  induction xs with
  | nil => rfl
  | cons x xs ih =>
    have hx : tableValues ((x :: xs).map contextTable)
        = .table (x.properties.map stringMember) :: tableValues (xs.map contextTable) := by
      rw [← itemValues_leaf]
      rfl
    rw [hx, List.mapM_cons, contextOf_properties, ih]
    rfl

/-- The lines of a configuration make up a document with its context in use and its contexts. -/
theorem exists_building (c : Config) :
    ∃ b root, (c.lines.map Prod.snd).foldlM Building.add {} = some b ∧ b.close = some root ∧
      Members.get? (itemValues root.items) "current-context" = some (.string c.current) ∧
      contextsOf (Members.get? (itemValues root.items) "contexts") = some c.contexts := by
  obtain ⟨current, xs⟩ := c
  cases xs with
  | nil => exact ⟨_, _, rfl, rfl, rfl, rfl⟩
  | cons x xs =>
    -- The first line leaves the document open at its own entries.
    have hfirst : Building.close ⟨{}, { items := [leaf ("current-context", current)] }, [], false⟩
        = some (table current []) := rfl
    obtain ⟨b, hlines, hclose⟩ := foldlM_contexts hfirst (x :: xs)
    exact ⟨b, table current (x :: xs), hlines, hclose, rfl, mapM_tableValues (x :: xs)⟩

/-- **A configuration reads back from its text.** -/
theorem parse_text (c : Config) : Config.parse c.text = some c := by
  have hlines : readLines (c.text.toList.length + 1) c.text.toList
      = some (c.lines.map Prod.snd) := by
    rw [toList_text]
    exact readLines_flatMap c.isLine_lines (Nat.lt_succ_self _)
  obtain ⟨b, root, hadd, hclose, hcurrent, hcontexts⟩ := c.exists_building
  have hmark : ∀ more, c.text.toList ≠ '\ufeff' :: more := by
    intro more heq
    have hfirst : (c.lines.flatMap Prod.fst).head? = some 'c' := by
      simp [lines, pairLine, pairChars]
    rw [← toList_text, heq] at hfirst
    exact absurd (Option.some.inj hfirst) (by decide)
  have hparse : Toml.parse c.text = some (itemValues root.items) := by
    rw [Toml.parse]
    split
    · next heq => exact absurd heq (hmark _)
    · simp only [hlines, hadd, hclose, Option.bind_eq_bind, Option.bind_some]
      rfl
  rw [parse, hparse]
  simp [hcurrent, hcontexts, stringOr]

end Config

/-! ## Through a file

A configuration that was saved is loaded again, since the file holds its text and the text reads
back. -/

namespace Program

/-- **What is saved is loaded again.**  The text of every configuration reads as the configuration,
and it is what stands in the file after saving. -/
theorem loadConfig_saveConfig (c : Config) :
    Config.parse c.text = some c ∧
      ∀ files path files', saveConfig files path c = (files', .ok ()) →
        files'.read path = .ok c.text ∧ loadConfig files' path = .ok c := by
  refine ⟨c.parse_text, fun files path files' hsave => ?_⟩
  have hread := read_saveConfig hsave
  exact ⟨hread, loadConfig_of_read hread c.parse_text⟩

/-- Strings in every style, with and without escapes, and properties that are not set. -/
def allStringStyles : Config :=
  { current := "it's"
    contexts :=
      [{ name := "a \"b\"", server := "it's \"here\"", token := "\\'\"\"\"",
         specPath := "a\nb\t\"\"\"\"" },
       { name := "\x7f", token := " " }] }

theorem loadConfig_saveConfig_allStringStyles :
    ∃ files', saveConfig [] "a/m.toml" allStringStyles = (files', .ok ()) ∧
      files'.read "a/m.toml" = .ok allStringStyles.text ∧
      loadConfig files' "a/m.toml" = .ok allStringStyles := by
  have hsave : saveConfig [] "a/m.toml" allStringStyles
      = ((saveConfig [] "a/m.toml" allStringStyles).1, .ok ()) :=
    Prod.ext rfl (eq_ok_of_toOption (by decide +kernel))
  exact ⟨_, hsave, (loadConfig_saveConfig allStringStyles).2 _ _ _ hsave⟩

end Program
end RemoteModels
