import Mathlib.Data.List.Nodup
import RemoteModels.Command.Program
import RemoteModels.Proofs.Faults
import RemoteModels.Proofs.Files

/-!
# The contexts of a configuration

A user keeps contexts in a file with four commands, each of which loads the configuration, changes
it and saves it.  The changes look contexts up in different ways: one takes the first of a name, one
all of them, one only asks whether there is any.  What they do is the same thing said of one context
among others (`Config.Changed`) as long as the names are distinct, and they keep them so
(`Config.Changed.orderly`).

The argument has two layers that do not know of each other.  Below, a configuration is a value, and
a command is a relation between two of them; above, a configuration is a text in a file, and what is
needed is that a text which was saved is loaded again.  The run over many commands is an induction
in which the invariant is about the file: it holds an orderly configuration, and another one can be
written in its place.

* `Config.Orderly` — names that are distinct and not empty, and a context in use that is there.
* `Config.Changed` — what a command does to a configuration.
* `Config.change_eq_ok_iff` — the changes do this, and succeed where it can be done.
* `Program.Reached` — the files after commands that change the configuration, one after the other.
* `Program.contexts_orderly` — what is stored after any of them, and what the next one does to it.
-/

set_option autoImplicit false

namespace RemoteModels

/-- The change that a command makes, if it is one that makes any. -/
def Command.change? : Command → Option (Config → Except ConfigError Config)
  | .createContext name p => some (·.create name p)
  | .setContext name p => some (·.set name p)
  | .deleteContext name => some (·.delete name)
  | .useContext name => some (·.use name)
  | _ => none

/-! ## Orderly configurations

A configuration is a list of contexts and a name, and nothing in its type keeps the names apart or
the name in use among them.  The invariant says what a user expects; the empty configuration has
it. -/

namespace Config

/-- The names of the contexts, in the order in which they were made. -/
def names (c : Config) : List String := c.contexts.map (·.name)

/-- What every configuration is like that was made by commands. -/
structure Orderly (c : Config) : Prop where
  names_ne : ∀ name ∈ c.names, name ≠ ""
  nodup : c.names.Nodup
  /-- No context is in use, or exactly one has the name that is. -/
  current : c.current = "" ∨ c.names.count c.current = 1

theorem orderly_empty : Orderly {} := ⟨nofun, .nil, .inl rfl⟩

/-- A name that is in a list without repetition is there once. -/
theorem orderly_of_mem {c : Config} (hne : ∀ name ∈ c.names, name ≠ "") (hnodup : c.names.Nodup)
    (hcurrent : c.current = "" ∨ c.current ∈ c.names) : c.Orderly :=
  ⟨hne, hnodup, hcurrent.imp_right (List.count_eq_one_of_mem hnodup)⟩

theorem Orderly.current_mem {c : Config} (h : c.Orderly) : c.current = "" ∨ c.current ∈ c.names :=
  h.current.imp_right fun hone => List.count_pos_iff.1 (hone ▸ Nat.one_pos)

theorem contains_iff {c : Config} {name : String} : c.contains name ↔ name ∈ c.names := by
  simp [contains, names]

/-! ## What a command does

Each clause of the relation shows the whole configuration before and after.  A context that is
changed or removed is shown between those in front of it and those behind it, so that it is plain
that all others stay, and in which order. -/

/-- What a command does to a configuration, where it can be done. -/
inductive Changed : Command → Config → Config → Prop
  /-- A new context goes to the end, and is taken into use if none is. -/
  | create {c : Config} {name : String} {p : ContextProps} (hname : name ≠ "")
      (hnew : name ∉ c.names) :
      Changed (.createContext name p) c
        { current := if c.current = "" then name else c.current
          contexts := c.contexts ++
            [⟨name, p.server.getD "", p.token.getD "", p.specPath.getD ""⟩] }
  /-- Properties that are given are changed, and the others stay. -/
  | set {current : String} {before after : List Context} {x : Context} {p : ContextProps} :
      Changed (.setContext x.name p) ⟨current, before ++ x :: after⟩
        ⟨current, before ++ ⟨x.name, p.server.getD x.server, p.token.getD x.token,
          p.specPath.getD x.specPath⟩ :: after⟩
  /-- A context in use that is deleted leaves none in use. -/
  | delete {current : String} {before after : List Context} {x : Context} :
      Changed (.deleteContext x.name) ⟨current, before ++ x :: after⟩
        ⟨if current = x.name then "" else current, before ++ after⟩
  /-- Any context that is there can be taken into use. -/
  | use {c : Config} {name : String} (hname : name ∈ c.names) :
      Changed (.useContext name) c ⟨name, c.contexts⟩

theorem names_append (current : String) (before after : List Context) (x : Context) :
    names ⟨current, before ++ x :: after⟩
      = before.map (·.name) ++ x.name :: after.map (·.name) := by
  rw [names, List.map_append, List.map_cons]

/-- A name is that of the one context, or of one of the others. -/
theorem mem_names_append {name current : String} {before after : List Context} {x : Context} :
    name ∈ names ⟨current, before ++ x :: after⟩
      ↔ name = x.name ∨ name ∈ (before ++ after).map (·.name) := by
  rw [names_append, List.mem_append, List.mem_cons, or_left_comm, ← List.mem_append,
    ← List.map_append]

/-- Among distinct names, the others are distinct too, and different from the one. -/
theorem nodup_others {current : String} {before after : List Context} {x : Context}
    (h : (names ⟨current, before ++ x :: after⟩).Nodup) :
    x.name ∉ (before ++ after).map (·.name) ∧ ((before ++ after).map (·.name)).Nodup := by
  rw [names_append, List.nodup_middle, List.nodup_cons, ← List.map_append] at h
  exact h

/-- **Orderly configurations stay so.** -/
theorem Changed.orderly {cmd : Command} {c c' : Config} (h : Changed cmd c c') (hc : c.Orderly) :
    c'.Orderly := by
  cases h with
  | @create _ name p hname hnew =>
    have hnames : ∀ current x, names ⟨current, c.contexts ++ [x]⟩ = c.names ++ [x.name] :=
      fun _ _ => List.map_append
    refine orderly_of_mem ?_ ?_ ?_
    · rw [hnames, List.forall_mem_append, List.forall_mem_singleton]
      exact ⟨hc.names_ne, hname⟩
    · rw [hnames, List.nodup_append_comm, List.singleton_append, List.nodup_cons]
      exact ⟨hnew, hc.nodup⟩
    · rw [hnames]
      split
      · exact .inr List.mem_concat_self
      · exact hc.current_mem.imp_right (List.mem_append_left _)
  | @set current before after x p =>
    obtain ⟨hne, hnodup, hcurrent⟩ := hc
    rw [names_append] at hne hnodup hcurrent
    exact ⟨by rwa [names_append], by rwa [names_append], by rwa [names_append]⟩
  | @delete current before after x =>
    -- The context in use was deleted, or is one of the others.
    refine orderly_of_mem (fun name hname => ?_) (nodup_others hc.nodup).2 ?_
    · exact hc.names_ne name (mem_names_append.2 (.inr hname))
    · split
      · exact .inl rfl
      · next hne =>
        exact hc.current_mem.imp_right fun h => (mem_names_append.1 h).resolve_left hne
  | use hname => exact orderly_of_mem hc.names_ne hc.nodup (.inr hname)

/-! ## What the changes do

The four changes are stated as one equivalence each: the change succeeds with a result exactly if
the relation holds between the configuration and the result.  Two of them need distinct names,
because one works on the first context of a name and the other on all of them. -/

/-- The first context of a name is changed, and the others stay as they are. -/
theorem modifyFirst_append {name : String} {f : Context → Context} {before after : List Context}
    {x : Context} (hx : x.name = name) (h : name ∉ before.map (·.name)) :
    modifyFirst name f (before ++ x :: after) = before ++ f x :: after := by
  induction before with
  | nil => rw [List.nil_append, modifyFirst, if_pos hx, List.nil_append]
  | cons y rest ih =>
    rw [List.map_cons, List.mem_cons, not_or] at h
    rw [List.cons_append, modifyFirst, if_neg (Ne.symm h.1), ih h.2, List.cons_append]

/-- The one context of a name is removed, and the others stay as they are. -/
theorem filter_others {name : String} {before after : List Context} {x : Context}
    (hx : x.name = name) (h : name ∉ (before ++ after).map (·.name)) :
    (before ++ x :: after).filter (·.name ≠ name) = before ++ after := by
  have hothers : ∀ y ∈ before ++ after, decide (y.name ≠ name) = true :=
    fun y hy => decide_eq_true fun hname => h (hname ▸ List.mem_map_of_mem hy)
  have hself : ¬ decide (x.name ≠ name) = true := by simp [hx]
  rw [List.filter_append, List.filter_cons, if_neg hself, ← List.filter_append,
    List.filter_eq_self.2 hothers]

/-- A context with a name stands among others. -/
theorem exists_of_contains {c : Config} {name : String} (h : c.contains name) :
    ∃ current before x after, c = ⟨current, before ++ x :: after⟩ ∧ x.name = name := by
  obtain ⟨x, hx, hname⟩ := List.mem_map.1 (contains_iff.1 h)
  obtain ⟨before, after, hcontexts⟩ := List.append_of_mem hx
  exact ⟨c.current, before, x, after, by rw [← hcontexts], hname⟩

theorem contains_append (current : String) (before after : List Context) (x : Context) :
    contains ⟨current, before ++ x :: after⟩ x.name :=
  contains_iff.2 (mem_names_append.2 (.inl rfl))

/-! ## Each change in turn

Where a context is changed or removed, the list falls into what is before the context, the context
and what is behind it, and the two outer parts are left alone.  A new context goes to the end. -/

/-- Creating a context. -/
theorem create_eq_ok_iff {c c' : Config} {name : String} {p : ContextProps} :
    c.create name p = .ok c' ↔ Changed (.createContext name p) c c' := by
  rw [create]
  constructor
  · intro h
    split at h
    · cases h
    · next hname =>
      split at h
      · cases h
      · next hnew =>
        cases h
        exact .create hname fun hmem => hnew (contains_iff.2 hmem)
  · intro h
    cases h with
    | create hname hnew =>
      rw [if_neg hname, if_neg fun h => hnew (contains_iff.1 h)]
      rfl

/-- Changing a context. -/
theorem set_eq_ok_iff {c c' : Config} (hc : c.Orderly) {name : String} {p : ContextProps} :
    c.set name p = .ok c' ↔ Changed (.setContext name p) c c' := by
  have hset : ∀ {current before after} {x : Context}, c = ⟨current, before ++ x :: after⟩ →
      c.set x.name p = .ok ⟨current, before ++ p.apply x :: after⟩ := by
    rintro current before after x rfl
    have hx := (nodup_others hc.nodup).1
    rw [List.map_append, List.mem_append, not_or] at hx
    rw [set, if_pos (contains_append ..), modifyFirst_append rfl hx.1]
  constructor
  · intro h
    by_cases hname : c.contains name
    · obtain ⟨current, before, x, after, rfl, rfl⟩ := exists_of_contains hname
      rw [hset rfl] at h
      cases h
      exact .set
    · rw [set, if_neg hname] at h
      cases h
  · intro h
    cases h with
    | set => exact hset rfl

/-- Deleting a context. -/
theorem delete_eq_ok_iff {c c' : Config} (hc : c.Orderly) {name : String} :
    c.delete name = .ok c' ↔ Changed (.deleteContext name) c c' := by
  have hdelete : ∀ {current before after} {x : Context}, c = ⟨current, before ++ x :: after⟩ →
      c.delete x.name = .ok ⟨if current = x.name then "" else current, before ++ after⟩ := by
    rintro current before after x rfl
    rw [delete, if_pos (contains_append ..), filter_others rfl (nodup_others hc.nodup).1]
  constructor
  · intro h
    by_cases hname : c.contains name
    · obtain ⟨current, before, x, after, rfl, rfl⟩ := exists_of_contains hname
      rw [hdelete rfl] at h
      cases h
      exact .delete
    · rw [delete, if_neg hname] at h
      cases h
  · intro h
    cases h with
    | delete => exact hdelete rfl

/-- Taking a context into use. -/
theorem use_eq_ok_iff {c c' : Config} {name : String} :
    c.use name = .ok c' ↔ Changed (.useContext name) c c' := by
  rw [use]
  constructor
  · intro h
    split at h
    · next hname =>
      cases h
      exact .use (contains_iff.1 hname)
    · cases h
  · intro h
    cases h with
    | use hname => rw [if_pos (contains_iff.2 hname)]

/-- **The changes do what they should**, and succeed where it can be done. -/
theorem change_eq_ok_iff {cmd : Command} {change : Config → Except ConfigError Config}
    {c c' : Config} (hc : c.Orderly) (h : cmd.change? = some change) :
    change c = .ok c' ↔ Changed cmd c c' := by
  cases cmd with
  | createContext name p =>
    cases h
    exact create_eq_ok_iff
  | setContext name p =>
    cases h
    exact set_eq_ok_iff hc
  | deleteContext name =>
    cases h
    exact delete_eq_ok_iff hc
  | useContext name =>
    cases h
    exact use_eq_ok_iff
  | listContexts | models | list | get | create | update | delete | version => cases h

end Config

/-! ## Configurations in files

Saving makes the directories above the file and writes it, and both can fail.  That they do not fail
from the second time on is a matter of files alone: a file that can be read can be written. -/

namespace Program

variable {files files' : Files} {path text : String} {c c' : Config}

/-- Whatever configuration is saved, writing its file succeeds. -/
def Writable (files : Files) (path : String) : Prop :=
  ∀ c, ∃ files', saveConfig files path c = (files', .ok ())

/-- Where there is no file, the configuration is empty. -/
theorem loadConfig_of_absent (h : files.has path = false) : loadConfig files path = .ok {} := by
  rw [loadConfig, h]
  rfl

theorem loadConfig_of_read (h : files.read path = .ok text) (hc : Config.parse text = some c) :
    loadConfig files path = .ok c := by
  rw [loadConfig, if_pos (Files.has_of_read h), h]
  simp only [hc]

/-- What has been saved is what the file says. -/
theorem read_saveConfig (h : saveConfig files path c = (files', .ok ())) :
    files'.read path = .ok c.text := by
  rw [saveConfig] at h
  split at h
  · cases h
  · split at h
    · cases h
    · next written hwrite =>
      cases h
      exact Files.read_write hwrite

/-- A configuration that could be saved once can be saved again. -/
theorem writable_of_read (h : files.read path = .ok text) : Writable files path := by
  intro c
  obtain ⟨hparents, hwrite⟩ := Files.exists_write_of_read h
  obtain ⟨files', hfiles'⟩ := hwrite c.text
  refine ⟨files', ?_⟩
  rw [saveConfig, hparents]
  simp only [hfiles']

/-! ## One command

A command line that changes the configuration does so in one way, whichever of the four commands it
is: it loads, changes and saves, and stops at the first of these that fails. -/

/-- A command line that changes the configuration at a path. -/
inductive Edits (path : String) (s : Surroundings) : List String → Command → Prop
  | intro {args : List String} {i : Invocation} (hread : Invocation.read args = .ok i)
      (hpath : configPath i s.environment = path) (hchange : i.command.change?.isSome) :
      Edits path s args i.command

/-- Whatever a command makes of a configuration, its text reads back as the same. -/
def ReadsBack (c : Config) (cmd : Command) : Prop :=
  ∀ change ∈ cmd.change?, ∀ c' ∈ (change c).toOption, Config.parse c'.text = some c'

instance (c : Config) (cmd : Command) : Decidable (ReadsBack c cmd) :=
  inferInstanceAs (Decidable (∀ change ∈ cmd.change?, ∀ c' ∈ (change c).toOption, _))

variable {s : Surroundings} {args : List String} {cmd : Command}
  {change : Config → Except ConfigError Config}

/-- All four commands load, change and save.  One of them looks at its name before it loads, which
makes no difference to a configuration that can be loaded. -/
theorem perform_change (h : cmd.change? = some change) (hload : loadConfig s.files path = .ok c)
    (json : Bool) : ∃ line, perform s path json cmd = runChange s path change line := by
  cases cmd with
  | createContext name p =>
    cases h
    rw [perform]
    by_cases hname : name = ""
    · refine ⟨"", ?_⟩
      rw [if_pos hname, runChange, changeConfig, hload]
      simp only [Config.create, if_pos hname]
      rfl
    · exact ⟨_, if_neg hname⟩
  | setContext name p =>
    cases h
    exact ⟨_, rfl⟩
  | deleteContext name =>
    cases h
    exact ⟨_, rfl⟩
  | useContext name =>
    cases h
    exact ⟨_, rfl⟩
  | listContexts | models | list | get | create | update | delete | version => cases h

/-- **One command** either does what it says, is saved and succeeds, or finds that it cannot be
done, and fails without touching a file. -/
theorem Edits.run_cases (h : Edits path s args cmd) (hload : loadConfig s.files path = .ok c)
    (hc : c.Orderly) (hw : Writable s.files path) :
    (∃ change c' files', cmd.change? = some change ∧ change c = .ok c' ∧
      saveConfig s.files path c' = (files', .ok ()) ∧
      (run args s).code = 0 ∧ (run args s).files = files') ∨
    ((∀ c', ¬ Config.Changed cmd c c') ∧ (run args s).code = 1 ∧ (run args s).files = s.files) := by
  cases h with
  | @intro i hread hpath hchange =>
    obtain ⟨change, hchange⟩ := Option.isSome_iff_exists.1 hchange
    obtain ⟨line, hline⟩ := perform_change hchange hload i.json
    have hrun : run args s = runChange s path change line := by
      rw [← hline, ← hpath, run, hread]
    rw [hrun, runChange, changeConfig, hload]
    dsimp only
    cases hc' : change c with
    | error e =>
      refine .inr ⟨fun c' h => ?_, rfl, rfl⟩
      rw [(Config.change_eq_ok_iff hc hchange).2 h] at hc'
      cases hc'
    | ok c' =>
      obtain ⟨files', hsave⟩ := hw c'
      dsimp only
      rw [hsave]
      exact .inl ⟨change, c', files', hchange, hc', hsave, rfl, rfl⟩

/-! ## One command after the other

The commands may come from different command lines and in different surroundings, as long as they
name the same file.  Between them nothing else writes. -/

/-- The files hold an orderly configuration, and another one can be saved. -/
structure Stored (path : String) (files : Files) (c : Config) : Prop where
  load : loadConfig files path = .ok c
  orderly : c.Orderly
  writable : Writable files path

/-- What a command makes of a stored configuration is stored. -/
theorem Stored.save (h : Stored path files c) (hchanged : Config.Changed cmd c c')
    (hback : Config.parse c'.text = some c')
    (hsave : saveConfig files path c' = (files', .ok ())) : Stored path files' c' :=
  ⟨loadConfig_of_read (read_saveConfig hsave) hback, hchanged.orderly h.orderly,
    writable_of_read (read_saveConfig hsave)⟩

/-- The files after commands that change the configuration, from files without one.  The first file
can be written, and each configuration that is saved reads back as itself. -/
inductive Reached (path : String) : Files → Prop
  | start {files : Files} (habsent : files.has path = false) (hw : Writable files path) :
      Reached path files
  | step {s : Surroundings} {args : List String} {cmd : Command} (h : Reached path s.files)
      (hedits : Edits path s args cmd)
      (hback : ∀ c, loadConfig s.files path = .ok c → ReadsBack c cmd) :
      Reached path (run args s).files

/-- **The invariant holds after any commands.** -/
theorem Reached.stored (h : Reached path files) : ∃ c, Stored path files c := by
  induction h with
  | start habsent hw => exact ⟨{}, loadConfig_of_absent habsent, Config.orderly_empty, hw⟩
  | step _ hedits hback ih =>
    obtain ⟨c, hc⟩ := ih
    rcases hedits.run_cases hc.load hc.orderly hc.writable with
      ⟨change, c', files', hchange, hc', hsave, -, hfiles⟩ | ⟨-, -, hfiles⟩
    · rw [hfiles]
      exact ⟨c', hc.save ((Config.change_eq_ok_iff hc.orderly hchange).1 hc')
        (hback c hc.load change hchange c' (hc' ▸ rfl)) hsave⟩
    · rw [hfiles]
      exact ⟨c, hc⟩

/-- **Contexts stay orderly.**  After any commands that change the configuration, from files without
one: the names of the contexts are distinct and not empty, and the context in use is none or one of
them.  Whatever command comes next, it succeeds exactly when it can be done, and then its change is
what is stored; if it fails, all files are as they were. -/
theorem contexts_orderly (h : Reached path files) :
    ∃ c, loadConfig files path = .ok c ∧ c.Orderly ∧
      ∀ s args cmd, s.files = files → Edits path s args cmd → ReadsBack c cmd →
        ((run args s).code = 0 ↔ ∃ c', Config.Changed cmd c c') ∧
        ((run args s).code ≠ 0 → (run args s).files = files) ∧
        ∀ c', Config.Changed cmd c c' → loadConfig (run args s).files path = .ok c' := by
  obtain ⟨c, hc⟩ := h.stored
  refine ⟨c, hc.load, hc.orderly, ?_⟩
  rintro s args cmd rfl hedits hback
  rcases hedits.run_cases hc.load hc.orderly hc.writable with
    ⟨change, c', files', hchange, hc', hsave, hcode, hfiles⟩ | ⟨hno, hcode, hfiles⟩
  · have hchanged := (Config.change_eq_ok_iff hc.orderly hchange).1 hc'
    refine ⟨iff_of_true hcode ⟨c', hchanged⟩, fun hne => absurd hcode hne, fun c'' h => ?_⟩
    have hunique : c' = c'' :=
      Except.ok.inj (hc'.symm.trans ((Config.change_eq_ok_iff hc.orderly hchange).2 h))
    rw [hfiles, ← hunique]
    exact (hc.save hchanged (hback change hchange c' (hc' ▸ rfl)) hsave).load
  · refine ⟨iff_of_false ?_ fun ⟨c', h⟩ => hno c' h, fun _ => hfiles, fun c' h => absurd h (hno c')⟩
    rw [hcode]
    exact Nat.one_ne_zero

/-! ## A run

The commands are run on files here, from the command line to the text that is stored, so every step
of the statement above is met at once. -/

/-- What a run finds after another one. -/
def after (s : Surroundings) (args : List String) : Surroundings :=
  { s with files := (run args s).files }

/-- A command line that names the file itself does not ask the environment. -/
theorem Edits.of_read (h : (Invocation.read args).toOption = some ⟨some path, false, cmd⟩)
    (hchange : cmd.change?.isSome) : Edits path s args cmd :=
  .intro (eq_ok_of_toOption h) rfl hchange

/-- One more command, for files that are given. -/
theorem Reached.after (h : Reached path s.files) (c : Config) (cmd : Command)
    (hload : (loadConfig s.files path).toOption = some c)
    (hread : (Invocation.read args).toOption = some ⟨some path, false, cmd⟩)
    (hchange : cmd.change?.isSome) (hback : ReadsBack c cmd) :
    Reached path (after s args).files := by
  refine h.step (.of_read hread hchange) fun c' hc' => ?_
  rw [eq_ok_of_toOption hload] at hc'
  cases hc'
  exact hback

/-- Two contexts are made and the second one is taken into use: once it is deleted, none is. -/
theorem contexts_orderly_two :
    let create (name : String) := ["--config", "m.toml", "context", "create", name]
    let s := after (after (after {} (create "a")) (create "b"))
      ["--config", "m.toml", "use", "context", "b"]
    let delete := ["--config", "m.toml", "context", "delete", "b"]
    Reached "m.toml" s.files ∧ (run delete s).code = 0 ∧
      loadConfig (run delete s).files "m.toml" = .ok ⟨"", [{ name := "a" }]⟩ := by
  intro create s delete
  have hempty : Reached "m.toml" [] := .start rfl fun c => ⟨[("m.toml", .file c.text)], rfl⟩
  have hfirst : Reached "m.toml" (after {} (create "a")).files :=
    hempty.after {} (.createContext "a" {}) rfl (by decide +kernel) rfl (by decide +kernel)
  have hsecond : Reached "m.toml" (after (after {} (create "a")) (create "b")).files :=
    hfirst.after ⟨"a", [{ name := "a" }]⟩ (.createContext "b" {}) (by decide +kernel)
      (by decide +kernel) rfl (by decide +kernel)
  have hreached : Reached "m.toml" s.files :=
    hsecond.after ⟨"a", [{ name := "a" }, { name := "b" }]⟩ (.useContext "b") (by decide +kernel)
      (by decide +kernel) rfl (by decide +kernel)
  obtain ⟨c, hload, -, hnext⟩ := contexts_orderly hreached
  have hc : c = ⟨"b", [{ name := "a" }, { name := "b" }]⟩ :=
    Except.ok.inj (hload.symm.trans (eq_ok_of_toOption (by decide +kernel)))
  subst hc
  have hchanged : Config.Changed (.deleteContext "b") ⟨"b", [{ name := "a" }, { name := "b" }]⟩
      ⟨"", [{ name := "a" }]⟩ :=
    @Config.Changed.delete "b" [{ name := "a" }] [] { name := "b" }
  obtain ⟨hcode, -, hstored⟩ := hnext s delete (.deleteContext "b") rfl
    (.of_read (by decide +kernel) rfl) (by decide +kernel)
  exact ⟨hreached, hcode.2 ⟨_, hchanged⟩, hstored _ hchanged⟩

end Program
end RemoteModels
