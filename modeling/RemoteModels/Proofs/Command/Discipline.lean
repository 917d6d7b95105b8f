import RemoteModels.Proofs.Command.Plan
import RemoteModels.Proofs.Specification.Attainable

/-!
# The requests of a whole run

A run reads its command line and its configuration, may have to be given a text or a confirmation,
and only then talks to a server.  What is said of the commands in `Plan.Follows` is carried over to
whole runs here, with what has to be there before the first request.

A run may stop for three reasons before its first request, and each leaves nothing behind: the
command line is not read, there is no context in use, or the command lacks a text or a confirmation.
All of it is settled before the dialogue begins, so a run is either silent or the run of a dialogue
that follows its plan, and the two are dealt with separately.

* `Program.InUse`, `Program.Ready` — the context in use, and a command that lacks nothing.
* `Program.Declined` — a deletion that is not confirmed.
* `Program.Discipline` — what a run sends, when, and how it ends.
* `Program.requests_disciplined` — all runs that talk to a server keep to it.
-/

set_option autoImplicit false

namespace RemoteModels

/-- The context in use is one that is there and has a server. -/
theorem Config.require_eq_ok_iff {c : Config} {x : Context} :
    c.require = .ok x ↔ c.find? c.current = some x ∧ x.server ≠ "" := by
  rw [require]
  cases hx : c.find? c.current with
  | none => simp
  | some y =>
    by_cases hy : y.server = ""
    · simp only [hy, if_true, reduceCtorEq, Option.some.injEq, false_iff, not_and]
      rintro rfl h
      exact h hy
    · simp only [hy, if_false, Except.ok.injEq, Option.some.injEq]
      constructor
      · rintro rfl
        exact ⟨rfl, hy⟩
      · exact And.left

namespace Program

open Plan (Ordered Next Completed Follows Begins Known Offers)

/-- The context of a configuration that a run uses. -/
def InUse (files : Files) (path : String) (x : Context) : Prop :=
  ∃ c, loadConfig files path = .ok c ∧ c.find? c.current = some x ∧ x.server ≠ ""

/-- There is one context in use at most. -/
theorem InUse.unique {files : Files} {path : String} {x y : Context} (hx : InUse files path x)
    (hy : InUse files path y) : x = y := by
  obtain ⟨c, hc, hfind, -⟩ := hx
  obtain ⟨c', hc', hfind', -⟩ := hy
  rw [hc] at hc'
  cases hc'
  exact Option.some.inj (hfind.symm.trans hfind')

/-- The command has been given all it needs: a text for a new record, and a yes to a deletion. -/
inductive Ready (s : Surroundings) : Command → Prop
  | models : Ready s .models
  | list {model parentId : String} : Ready s (.list model parentId)
  | get {model id : String} : Ready s (.get model id)
  | create {model parentId body : String} {json file : Option String}
      (h : bodyOf s.files json file = .ok body) : Ready s (.create model parentId json file)
  | update {model id body : String} : Ready s (.update model id body)
  /-- A deletion that was asked for with its confirmation. -/
  | forced {model id : String} : Ready s (.delete model id true)
  /-- A deletion that was confirmed when the question was put. -/
  | confirmed {model id : String} (h : confirms s.input) : Ready s (.delete model id false)

/-- The command is a deletion, and the answer to its question is no. -/
inductive Declined (s : Surroundings) : Command → Prop
  | delete {model id : String} (h : confirms s.input = false) : Declined s (.delete model id false)

/-- A deletion that is declined is not ready, so it sends nothing. -/
theorem Declined.not_ready {s : Surroundings} {cmd : Command} (h : Declined s cmd) :
    ¬ Ready s cmd := by
  cases h with
  | delete hno =>
    intro hready
    cases hready with
    | confirmed hyes =>
      rw [hno] at hyes
      cases hyes

/-- How a run of a command talks to the server. -/
structure Discipline (s : Surroundings) (path : String) (cmd : Command) (r : Report) : Prop where
  /-- No file is touched, that of the configuration included. -/
  files : r.files = s.files
  /-- Nothing is sent before the command has all it needs and a context is in use. -/
  silent : ¬ (Ready s cmd ∧ ∃ x, InUse s.files path x) → r.turns = [] ∧ r.arrived = []
  /-- Each request is the next of the plan, with all checks before it passed. -/
  ordered : ∀ x, InUse s.files path x → Ordered (Records.loaderOf x) s.files cmd r.turns
  /-- Each request but the last has succeeded. -/
  succeeded : ∀ before t after, r.turns = before ++ t :: after → ∀ t' ∈ before, t'.Succeeded
  /-- The requests are the first ones of the plan. -/
  begins : ∀ x, InUse s.files path x → ∃ g target, Begins (Records.loaderOf x) cmd r.turns g target
  /-- A run does not stop while a request comes next. -/
  exhausted : Ready s cmd → ∀ x, InUse s.files path x →
    ∀ method url, ¬ Next (Records.loaderOf x) s.files cmd r.turns method url
  /-- Only the last request may be a post. -/
  posts : r.turns.Pairwise fun t _ => t.method = .get
  /-- There is no post without a model that is declared, and none with a text that is no object. -/
  posted : ∀ x, InUse s.files path x → ∀ t ∈ r.turns, t.method = .post →
    (∃ model answer g, cmd.model? = some model ∧
      r.turns.head? = some (.text (Records.loaderOf x).path answer) ∧
      Known (Records.loaderOf x) model answer g) ∧
    (cmd.takesText → ∃ m, Offers s.files cmd m)
  /-- The messages that the program hands over are those of its requests, one for each, as far as
  the network takes any.  What is sent again to follow a redirect is not among them. -/
  arrived : ∀ x, InUse s.files path x →
    r.arrived = s.network.carried (r.turns.filterMap (Turn.message? (Records.clientOf x)))
  /-- Only the last of them may be a post. -/
  arrived_posts : r.arrived.Pairwise fun m _ => m.method = .get
  /-- The run succeeds if the plan was carried out, or was declined. -/
  succeeds : r.code = 0 ↔
    (Ready s cmd ∧ ∃ x, InUse s.files path x ∧
      Completed (Records.loaderOf x) s.files cmd r.turns) ∨ Declined s cmd
  /-- A deletion that is declined sends nothing, and is a success. -/
  declined : Declined s cmd → r.turns = [] ∧ r.arrived = []
  /-- There are two exit codes. -/
  code : r.code = 0 ∨ r.code = 1

variable {s : Surroundings} {path : String} {cmd : Command}

/-! ## The two kinds of runs

A silent run keeps to the discipline because there is nothing it could have done wrong; for a run
that talks to the server every field follows from the plan, except for the exit code, which is the
one thing the program adds. -/

/-- A run that stops before its first request. -/
theorem Discipline.of_silent {r : Report} (hremote : cmd.isRemote)
    (h : ¬ (Ready s cmd ∧ ∃ x, InUse s.files path x)) (hfiles : r.files = s.files)
    (hturns : r.turns = []) (harrived : r.arrived = [])
    (hcode : (r.code = 0 ∧ Declined s cmd) ∨ (r.code = 1 ∧ ¬ Declined s cmd)) :
    Discipline s path cmd r where
  files := hfiles
  silent _ := ⟨hturns, harrived⟩
  ordered x _ := hturns ▸ Plan.ordered_nil
  succeeded before t after heq := by
    rw [hturns] at heq
    exact absurd heq.symm (List.append_ne_nil_of_right_ne_nil _ (List.cons_ne_nil _ _))
  begins x _ := by
    have hnil : Ordered (Records.loaderOf x) s.files cmd [] := Plan.ordered_nil
    rw [hturns]
    exact hnil.begins hremote
  exhausted hready x hx := absurd ⟨hready, x, hx⟩ h
  posts := hturns ▸ .nil
  posted x _ t ht := by
    rw [hturns] at ht
    cases ht
  arrived x _ := by
    rw [hturns, harrived, Network.carried]
    cases s.network.isReachable <;> rfl
  arrived_posts := harrived ▸ .nil
  succeeds := by
    rcases hcode with ⟨hzero, hd⟩ | ⟨hone, hd⟩
    · exact iff_of_true hzero (.inr hd)
    · refine iff_of_false (by rw [hone]; decide) ?_
      rintro (⟨hready, x, hx, -⟩ | hd')
      · exact h ⟨hready, x, hx⟩
      · exact hd hd'
  declined _ := ⟨hturns, harrived⟩
  code := hcode.imp And.left And.left

/-- A run whose dialogue follows the plan of its command. -/
theorem Discipline.of_follows {r : Report} {x : Context} {result : Except Failure Unit}
    (hremote : cmd.isRemote) (hready : Ready s cmd) (hx : InUse s.files path x)
    (hfiles : r.files = s.files)
    (h : Follows (Records.loaderOf x) s.files cmd r.turns result)
    (harrived : r.arrived
      = s.network.carried (r.turns.filterMap (Turn.message? (Records.clientOf x))))
    (hcode : (r.code = 0 ∧ result = .ok ()) ∨ (r.code = 1 ∧ result ≠ .ok ())) :
    Discipline s path cmd r where
  files := hfiles
  silent hn := absurd ⟨hready, x, hx⟩ hn
  ordered y hy := hy.unique hx ▸ h.ordered
  succeeded before t after heq t' ht' := (h.ordered.of_mem heq t' ht').2
  begins y hy := hy.unique hx ▸ h.ordered.begins hremote
  exhausted _ y hy := hy.unique hx ▸ h.exhausted
  posts := h.ordered.pairwise
  posted y hy t ht := by
    rw [hy.unique hx]
    exact h.ordered.of_post ht
  arrived y hy := hy.unique hx ▸ harrived
  -- The messages are those of the turns, so the order of turns is theirs.
  arrived_posts := by
    rw [harrived, Network.carried]
    split
    · refine h.ordered.pairwise.filterMap _ fun t t' ht m hm m' _ => ?_
      rw [Turn.method_of_message? hm, ht]
    · exact .nil
  succeeds := by
    have hd : ¬ Declined s cmd := fun hd => hd.not_ready hready
    rw [or_iff_left hd]
    rcases hcode with ⟨hzero, hok⟩ | ⟨hone, hfail⟩
    · exact iff_of_true hzero ⟨hready, x, hx, h.completed.1 hok⟩
    · refine iff_of_false (by rw [hone]; decide) ?_
      rintro ⟨-, y, hy, hc⟩
      rw [hy.unique hx] at hc
      exact hfail (h.completed.2 hc)
  declined hd := absurd hready hd.not_ready
  code := hcode.imp And.left And.left

/-! ## Parts of a run

What a command says before its dialogue changes none of the fields, so it is enough to look at the
dialogue. -/

/-- A run that fails before its dialogue is silent. -/
theorem discipline_error {f : Failure} (hremote : cmd.isRemote)
    (h : ¬ (Ready s cmd ∧ ∃ x, InUse s.files path x)) (hd : ¬ Declined s cmd) :
    Discipline s path cmd (quiet s s.files [] (.error f)) :=
  .of_silent hremote h rfl rfl rfl (.inr ⟨rfl, hd⟩)

/-- A dialogue is begun with the context in use, and not at all if there is none. -/
theorem discipline_runDialogue {dialogue : Loader → Attempt Unit} (hremote : cmd.isRemote)
    (hready : Ready s cmd) (h : ∀ l, (dialogue l).Ensures (Follows l s.files cmd)) :
    Discipline s path cmd (runDialogue s path dialogue) := by
  have hd : ¬ Declined s cmd := fun hd => hd.not_ready hready
  rw [runDialogue]
  cases hc : loadConfig s.files path with
  | error f =>
    refine discipline_error hremote ?_ hd
    rintro ⟨-, x, c, hc', -⟩
    rw [hc] at hc'
    cases hc'
  | ok c =>
    dsimp only
    cases hx : c.require with
    | error e =>
      refine discipline_error hremote ?_ hd
      rintro ⟨-, x, c', hc', hx'⟩
      rw [hc] at hc'
      cases hc'
      rw [Config.require_eq_ok_iff.2 hx'] at hx
      cases hx
    | ok x =>
      have hinUse : InUse s.files path x := ⟨c, hc, Config.require_eq_ok_iff.1 hx⟩
      have hfollows := (h (Records.loaderOf x)).run (Records.clientOf x) s.network
      have harrived :=
        Dialogue.arrived_run (dialogue (Records.loaderOf x)).run (Records.clientOf x) s.network
      dsimp only
      refine .of_follows hremote hready hinUse rfl hfollows harrived ?_
      cases (Dialogue.run (Records.clientOf x) s.network (dialogue (Records.loaderOf x)).run).result
      with
      | ok u => exact .inl ⟨rfl, rfl⟩
      | error f => exact .inr ⟨rfl, nofun⟩

/-- What is said in front of a run is no part of its discipline. -/
theorem Discipline.saying {r : Report} (h : Discipline s path cmd r) (before : Saying) :
    Discipline s path cmd (saying before r) :=
  ⟨h.files, h.silent, h.ordered, h.succeeded, h.begins, h.exhausted, h.posts, h.posted, h.arrived,
    h.arrived_posts, h.succeeds, h.declined, h.code⟩

/-! ## All runs

A command line that can be read has one command, and the cases are those of the commands. -/

/-- **Every command keeps to the discipline**: those that lack something are silent, and the others
follow their plans. -/
theorem discipline_perform (hremote : cmd.isRemote) (json : Bool) :
    Discipline s path cmd (perform s path json cmd) := by
  cases cmd with
  | models =>
    rw [perform]
    exact discipline_runDialogue hremote .models fun l => Plan.follows_models l _ json
  | list model parentId =>
    rw [perform]
    exact discipline_runDialogue hremote .list fun l => Plan.follows_list l _ model parentId json
  | get model id =>
    rw [perform]
    exact discipline_runDialogue hremote .get fun l => Plan.follows_get l _ model id json
  | create model parentId body file =>
    rw [perform]
    cases hbody : bodyOf s.files body file with
    | error f =>
      refine discipline_error hremote ?_ nofun
      rintro ⟨hready, -⟩
      cases hready with
      | create hbody' =>
        rw [hbody] at hbody'
        cases hbody'
    | ok text =>
      exact discipline_runDialogue hremote (.create hbody) fun l =>
        Plan.follows_create hbody l model parentId
  | update model id body =>
    rw [perform]
    exact discipline_runDialogue hremote .update fun l => Plan.follows_update l _ model id body
  | delete model id yes =>
    rw [perform]
    cases yes with
    | true =>
      rw [if_pos rfl]
      exact discipline_runDialogue hremote .forced fun l => Plan.follows_delete l _ model id true
    | false =>
      rw [if_neg Bool.false_ne_true]
      refine Discipline.saying ?_ _
      by_cases hyes : confirms s.input
      · rw [if_pos hyes]
        exact discipline_runDialogue hremote (.confirmed hyes) fun l =>
          Plan.follows_delete l _ model id false
      · rw [if_neg hyes]
        have hd : Declined s (.delete model id false) := .delete (Bool.eq_false_iff.2 hyes)
        exact .of_silent hremote (fun h => hd.not_ready h.1) rfl rfl rfl (.inl ⟨rfl, hd⟩)
  | createContext | listContexts | setContext | deleteContext | useContext | version =>
    cases hremote

/-- **Runs keep to the plan of their command.**  Whatever the files, the input and the network: the
requests of a command line that talks to a server are the first ones of its plan, each sent after
the one before it has succeeded and all checks have passed; the run ends with success exactly when
the plan was carried out, or was declined. -/
theorem requests_disciplined {args : List String} {i : Invocation} (s : Surroundings)
    (hread : Invocation.read args = .ok i) (hremote : i.command.isRemote) :
    Discipline s (configPath i s.environment) i.command (run args s) := by
  rw [run, hread]
  exact discipline_perform hremote i.json

/-- A server that knows widgets, and gives the one that is asked for another identity. -/
def workshop : Surroundings where
  files := [("m.toml", .file
    "current-context = \"here\"\n[[contexts]]\nname = \"here\"\nserver = \"http://here\"")]
  network := .scripted
    [some ⟨200, none, "Widget: {parent: group, label: string}".toUTF8.toList⟩,
      some ⟨200, none, "\x7b\"id\": 8, \"label\": \"nut\"\x7d".toUTF8.toList⟩,
      some ⟨200, none, "\x7b\x7d".toUTF8.toList⟩]

/-- A label is changed: both reading requests are sent before the post, which goes to the identity
that the server gave. -/
theorem requests_disciplined_workshop :
    let args := ["--config", "m.toml", "update", "Widget", "7", "--json", "\x7b\"label\": 1\x7d"]
    let command : Command := .update "Widget" "7" "\x7b\"label\": 1\x7d"
    Invocation.read args = .ok ⟨some "m.toml", false, command⟩ ∧ command.isRemote ∧
      Discipline workshop "m.toml" command (run args workshop) ∧
      ((run args workshop).code, (run args workshop).arrived.map fun m => (m.method, m.url.text)) =
        (0, [(.get, "http://here/configuration/models/models.yaml"), (.get, "http://here/Widget/7"),
          (.post, "http://here/Widget/8")]) := by
  intro args command
  have hread : Invocation.read args = .ok ⟨some "m.toml", false, command⟩ :=
    eq_ok_of_toOption (by decide +kernel)
  exact ⟨hread, rfl, requests_disciplined workshop hread rfl, by decide +kernel⟩

end Program
end RemoteModels
