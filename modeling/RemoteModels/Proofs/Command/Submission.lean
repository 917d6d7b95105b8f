import RemoteModels.Proofs.Command.Course
import RemoteModels.Proofs.Gateway.Wire
import RemoteModels.Proofs.Registry.Lookup

/-!
# What is submitted

The text of a new or changed record has influence on its declared fields and on nothing else.  A run
that gets as far as the text posts the declared fields, each with the last value in the text if
there is one, and tells the user of every other name once; and two runs whose texts agree on the
declared fields send the same requests, whatever else is in their texts and in whatever order.

That a name which is not declared has no influence is a statement about two runs.  They are compared
with what was said struck out, since the user is told of exactly those names, and part by part: up
to the text they are the same, behind the text the instances are equal, and the text itself sends
nothing.

* `Plan.Writes` — the members in the text of a command, with all repetitions.
* `Plan.unheard_create`, `Plan.unheard_update` — texts that agree are submitted alike.
* `Program.Submission` — what a run submits.
* `Program.submits_declared` — all runs submit this.
-/

set_option autoImplicit false

namespace RemoteModels

open Json (Value Object)

/-- The text put beside the output, if this is one. -/
def Saying.err? : Saying → Option String
  | .err text => some text
  | _ => none

/-- Reports are not among the texts beside the output. -/
theorem Saying.filterMap_err?_heard (l : List Saying) :
    (l.flatMap Saying.heard).filterMap Saying.err? = l.filterMap Saying.err? := by
  induction l with
  | nil => rfl
  | cons s rest ih =>
    rw [List.flatMap_cons, List.filterMap_append, ih]
    cases s <;> rfl

/-- Members that are only rearranged have the same values. -/
theorem Members.get?_perm {α : Type} {m m' : Members α} (hm : m.names.Nodup) (h : m.Perm m')
    (name : String) : m.get? name = m'.get? name := by
  have hm' : m'.names.Nodup := (h.map Prod.fst).nodup_iff.1 hm
  cases hget : m.get? name with
  | none =>
    have hnot : name ∉ m'.names := fun hmem => by
      have hsome := isSome_get?_iff.2 ((h.map Prod.fst).mem_iff.2 hmem)
      rw [hget] at hsome
      cases hsome
    exact (get?_of_not_mem hnot).symm
  | some v => exact (get?_of_mem hm' (h.mem_iff.1 (mem_of_get? hget))).symm

namespace Plan

/-- The members in the text of a command, in its order and with all repetitions. -/
inductive Writes (files : Files) : Command → List (String × Value) → Prop
  | create {model parentId body : String} {json file : Option String} {l : List (String × Value)}
      (hbody : Program.bodyOf files json file = .ok body) (h : Json.Lists body l) :
      Writes files (.create model parentId json file) l
  | update {model id body : String} {l : List (String × Value)} (h : Json.Lists body l) :
      Writes files (.update model id body) l

/-- Members that are repeated leave an object with one of each name. -/
theorem offers_of_writes {files : Files} {cmd : Command} {l : List (String × Value)}
    (h : Writes files cmd l) : Offers files cmd (Members.ofList l) := by
  cases h with
  | create hbody h => exact .create hbody (Json.parse_of_lists h)
  | update h => exact .update (Json.parse_of_lists h)

/-- Every object that is offered was written by some members. -/
theorem exists_writes {files : Files} {cmd : Command} {m : Object} (h : Offers files cmd m) :
    ∃ l, Writes files cmd l ∧ m = Members.ofList l := by
  cases h with
  | create hbody hm =>
    obtain ⟨l, hl, rfl⟩ := Json.parse_eq_object_iff.1 hm
    exact ⟨l, .create hbody hl, rfl⟩
  | update hm =>
    obtain ⟨l, hl, rfl⟩ := Json.parse_eq_object_iff.1 hm
    exact ⟨l, .update hl, rfl⟩

/-! ## Texts that agree

Two texts agree if each declared field has the same last value in both.  This is the weakest thing
that can be asked of them if they are to be submitted alike, and it is asked only for the model that
the server in fact declares. -/

/-- The declaration of a model that is known repeats no field. -/
theorem Known.attainable {l : Loader} {model : String} {answer : TextAnswer} {g : Gateway}
    (h : Known l model answer g) : g.descriptor.Attainable := by
  obtain ⟨r, ⟨response, spec, logs, -, hparse, hspec⟩, hg⟩ := h
  obtain ⟨ds, hds, rfl⟩ := Registry.ofSpecification_eq_ok hspec
  have hempty : Registry.empty.get? model = none := rfl
  rw [Registry.ofDescriptors, Registry.get?_addAll, hempty, Option.or_none] at hg
  obtain ⟨d, hd, rfl⟩ := Option.map_eq_some_iff.1 hg
  have hmem : d ∈ ds := List.mem_of_mem_filter (List.mem_of_getLast? hd)
  exact Descriptor.attainable_of_mem_descriptors (.parse hparse) hds hmem

section Alike

variable {l : Loader} {model : String} {c : HttpClient} {n : Network} {m m' : Object}

/-- The two texts agree on the fields that a gateway declares. -/
def Agree (g : Gateway) (m m' : List (String × Value)) : Prop :=
  ∀ name ∈ g.descriptor.fieldNames, Members.last? m name = Members.last? m' name

/-- Behind two texts that agree a command goes on with the same instance. -/
theorem unheard_text {g : Gateway} {answer : TextAnswer} (hg : Known l model answer g)
    {i : Instance} {record : Option Object} (hi : i.Origin g.descriptor record)
    {body body' : String} (hm : Json.parse body = .ok (.object m))
    (hm' : Json.parse body' = .ok (.object m')) (h : Agree g m m') (k : Instance → Attempt Unit) :
    (Dialogue.run c n (Records.applyJson i body >>= k).run).unheard
      = (Dialogue.run c n (Records.applyJson i body' >>= k).run).unheard := by
  have hnames : i.fields.names = g.descriptor.fieldNames := hi.sound.names
  have hset : i.setAll m = i.setAll m' := by
    refine Instance.setAll_congr ?_ fun name hname => h name (hnames ▸ hname)
    rw [hnames]
    exact hg.attainable.nodup_fieldNames
  refine Attempt.unheard_bind_left ?_ k
  rw [Records.unheard_applyJson hm, Records.unheard_applyJson hm', hset]

/-- Commands that go on alike once their model is known. -/
theorem unheard_known {k k' : Gateway → Attempt Unit}
    (h : ∀ answer g n',
      (Dialogue.run c n
        (Records.loadModels l >>= fun r => Records.gatewayOf r model >>= k).run).turns.head?
        = some (.text l.path answer) → Known l model answer g →
      (Dialogue.run c n' (k g).run).unheard = (Dialogue.run c n' (k' g).run).unheard) :
    (Dialogue.run c n
        (Records.loadModels l >>= fun r => Records.gatewayOf r model >>= k).run).unheard
      = (Dialogue.run c n
        (Records.loadModels l >>= fun r => Records.gatewayOf r model >>= k').run).unheard := by
  have hload : (Records.loadModels l).Ensures fun ts result => ∀ r, result = .ok r →
      ∃ answer, ts = [.text l.path answer] ∧ l.Builds answer r := by
    refine Records.ensures_loadModels (fun answer r hr r' heq => ?_) fun _ _ _ _ heq => ?_
    · cases heq
      exact ⟨answer, rfl, hr⟩
    · cases heq
  have hlook : ∀ r, (Records.gatewayOf r model).Ensures fun _ result => ∀ g, result = .ok g →
      r.get? model = some g := by
    intro r
    refine Records.ensures_gatewayOf (fun g hg g' heq => ?_) fun _ _ _ heq => ?_
    · cases heq
      exact hg
    · cases heq
  -- Both commands load and look up in the same way, so the first turn of the one is that of the
  -- other.
  refine Attempt.unheard_bind fun r hr => Attempt.unheard_bind fun g hg => ?_
  obtain ⟨answer, hturns, hbuilds⟩ := hload.run c n r hr
  refine h answer g _ ?_ ⟨r, hbuilds, (hlook r).run c _ g hg⟩
  obtain ⟨more, hmore⟩ := Attempt.turns_bind (Records.loadModels l)
    (fun r => Records.gatewayOf r model >>= k) c n
  rw [hmore, hturns]
  rfl

/-! ## Whole commands with texts that agree

Up to the text both commands do the same, and behind it they have the same instance. -/

/-- Creating from texts that agree sends the same. -/
theorem unheard_create {parentId body body' : String} (hm : Json.parse body = .ok (.object m))
    (hm' : Json.parse body' = .ok (.object m'))
    (h : ∀ answer g, (Dialogue.run c n (Records.create l model parentId body).run).turns.head?
      = some (.text l.path answer) → Known l model answer g → Agree g m m') :
    (Dialogue.run c n (Records.create l model parentId body).run).unheard
      = (Dialogue.run c n (Records.create l model parentId body').run).unheard :=
  unheard_known fun answer g _ hhead hg => unheard_text hg .fresh hm hm' (h answer g hhead hg) _

/-- Updating from texts that agree sends the same, for the record is fetched before the text is
looked at. -/
theorem unheard_update {id body body' : String} (hm : Json.parse body = .ok (.object m))
    (hm' : Json.parse body' = .ok (.object m'))
    (h : ∀ answer g, (Dialogue.run c n (Records.update l model id body).run).turns.head?
      = some (.text l.path answer) → Known l model answer g → Agree g m m') :
    (Dialogue.run c n (Records.update l model id body).run).unheard
      = (Dialogue.run c n (Records.update l model id body').run).unheard := by
  refine unheard_known fun answer g n' hhead hg => ?_
  have hfetch : (Records.fetch g id).Ensures fun _ result => ∀ i, result = .ok i →
      ∃ r, i.Origin g.descriptor (some r) := by
    refine Records.ensures_fetch (fun r i hi i' heq => ?_) fun _ _ _ _ heq => ?_
    · cases heq
      exact ⟨r, .record hi⟩
    · cases heq
  refine Attempt.unheard_bind fun i hi => ?_
  obtain ⟨r, horigin⟩ := hfetch.run c n' i hi
  exact unheard_text hg horigin hm hm' (h answer g hhead hg) _

end Alike

theorem agree_ofList {g : Gateway} {l l' : List (String × Value)} (h : Agree g l l') :
    Agree g (Members.ofList l) (Members.ofList l') := by
  intro name hname
  rw [Members.last?_ofList, Members.last?_ofList]
  exact h name hname

/-- Texts that are rearrangements of each other agree, whatever is declared. -/
theorem agree_of_perm {l l' : List (String × Value)}
    (h : (Members.ofList l).Perm (Members.ofList l')) (g : Gateway) : Agree g l l' := by
  intro name _
  rw [Members.last?, Members.last?, ← Members.get?_ofList, ← Members.get?_ofList]
  exact Members.get?_perm (Members.nodup_names_ofList l) h name

end Plan

/-! ## Whole runs

Two command lines are compared that differ in their texts at most, which may come from the line
itself or from a file, in surroundings that have the same context in use and the same network. -/

/-- The commands differ in their texts at most. -/
inductive Command.SameButText : Command → Command → Prop
  | create {model parentId : String} {json file json' file' : Option String} :
      SameButText (.create model parentId json file) (.create model parentId json' file')
  | update {model id body body' : String} :
      SameButText (.update model id body) (.update model id body')

namespace Program

open Plan (Known Prepared Aims Writes Agree Course)

/-- The runs have sent the same requests, and ended alike. -/
structure SameRequests (r r' : Report) : Prop where
  turns : r'.turns = r.turns
  arrived : r'.arrived = r.arrived
  network : r'.network = r.network
  code : r'.code = r.code

variable {s s' : Surroundings} {path path' : String} {cmd cmd' : Command} {x : Context}

/-- Dialogues that are run alike make runs that send the same. -/
theorem sameRequests_runDialogue (hx : InUse s.files path x) (hx' : InUse s'.files path' x)
    (hnetwork : s'.network = s.network) {dialogue dialogue' : Loader → Attempt Unit}
    (h : (Dialogue.run (Records.clientOf x) s.network (dialogue (Records.loaderOf x)).run).unheard
      = (Dialogue.run (Records.clientOf x) s.network
        (dialogue' (Records.loaderOf x)).run).unheard) :
    SameRequests (runDialogue s path dialogue) (runDialogue s' path' dialogue') := by
  have hconcluded : ∀ {r r' : Dialogue.Record (Except Failure Unit)}, r.unheard = r'.unheard →
      SameRequests (concluded s r) (concluded s' r') := by
    intro r r' heq
    obtain ⟨result, network, turns, sayings, arrived⟩ := r
    cases heq
    exact ⟨rfl, rfl, rfl, rfl⟩
  rw [runDialogue_of_inUse hx, runDialogue_of_inUse hx', hnetwork]
  exact hconcluded h

/-- **Texts that agree on the declared fields are submitted alike.** -/
theorem sameRequests_perform (hsame : cmd.SameButText cmd') (hx : InUse s.files path x)
    (hx' : InUse s'.files path' x) (hnetwork : s'.network = s.network)
    {l l' : List (String × Value)} (hl : Writes s.files cmd l) (hl' : Writes s'.files cmd' l')
    {json json' : Bool}
    (h : ∀ model answer g, cmd.model? = some model →
      (perform s path json cmd).turns.head? = some (.text (Records.loaderOf x).path answer) →
      Known (Records.loaderOf x) model answer g → Agree g l l') :
    SameRequests (perform s path json cmd) (perform s' path' json' cmd') := by
  cases hsame with
  | create =>
    cases hl with
    | create hbody hl =>
      cases hl' with
      | create hbody' hl' =>
        rw [perform_create hbody] at h ⊢
        rw [perform_create hbody']
        refine sameRequests_runDialogue hx hx' hnetwork
          (Plan.unheard_create (Json.parse_of_lists hl) (Json.parse_of_lists hl') ?_)
        intro answer g hhead hg
        rw [turns_runDialogue hx] at h
        exact Plan.agree_ofList (h _ answer g rfl hhead hg)
  | update =>
    cases hl with
    | update hl =>
      cases hl' with
      | update hl' =>
        rw [perform_update] at h ⊢
        rw [perform_update]
        refine sameRequests_runDialogue hx hx' hnetwork
          (Plan.unheard_update (Json.parse_of_lists hl) (Json.parse_of_lists hl') ?_)
        intro answer g hhead hg
        rw [turns_runDialogue hx] at h
        exact Plan.agree_ofList (h _ answer g rfl hhead hg)

/-! ## What is submitted

The statements about one post, about what is told and about two texts that agree are brought
together for whole command lines. -/

/-- What a run submits of the text it is given. -/
structure Submission (s : Surroundings) (path : String) (cmd : Command) (r : Report) : Prop where
  /-- A post is the last request.  It carries the declared fields, each with the last value in the
  text, else with that of the record, else null. -/
  posted : ∀ x, InUse s.files path x → ∀ before url v answer after,
    r.turns = before ++ .post url v answer :: after → after = [] ∧
      ∃ g a record instid, Prepared (Records.loaderOf x) cmd before g a record ∧
        Aims g a record url instid ∧ (∃ l, Writes s.files cmd l) ∧
        ∀ l, Writes s.files cmd l → v = Plan.submission g a record instid l
  /-- A run that gets as far as the text does not stop there, unless the record has no identity. -/
  due : ∀ x, InUse s.files path x → ∀ g a record l,
    Prepared (Records.loaderOf x) cmd r.turns g a record → Writes s.files cmd l →
      ∃ r, a = .put ∧ record = some r ∧ recordId r = none
  /-- The user is told of every name that is not declared, once and in the order of the text, and at
  the end of a failure. -/
  told : ∀ x, InUse s.files path x → ∀ before g a record l, before <+: r.turns →
    Prepared (Records.loaderOf x) cmd before g a record → Writes s.files cmd l →
      ∃ last, r.sayings.filterMap Saying.err?
          = (g.descriptor.undeclared l).map g.descriptor.skipLine ++ last ∧
        (r.code = 0 ∧ last = [] ∨ r.code = 1 ∧ ∃ f : Failure, last = [f.report])
  /-- Nothing else in the text has any influence on the requests. -/
  alike : ∀ x, InUse s.files path x → ∀ args' s' i', Invocation.read args' = .ok i' →
    cmd.SameButText i'.command → InUse s'.files (configPath i' s'.environment) x →
    s'.network = s.network → ∀ l l', Writes s.files cmd l → Writes s'.files i'.command l' →
    (∀ model answer g, cmd.model? = some model →
      r.turns.head? = some (.text (Records.loaderOf x).path answer) →
      Known (Records.loaderOf x) model answer g → Agree g l l') →
    SameRequests r (run args' s')
  /-- In particular the order of its members has none. -/
  rearranged : ∀ x, InUse s.files path x → ∀ args' s' i', Invocation.read args' = .ok i' →
    cmd.SameButText i'.command → InUse s'.files (configPath i' s'.environment) x →
    s'.network = s.network → ∀ l l', Writes s.files cmd l → Writes s'.files i'.command l' →
    (Members.ofList l).Perm (Members.ofList l') → SameRequests r (run args' s')

/-- A command with a text lacks nothing. -/
theorem ready_of_writes {l : List (String × Value)} (h : Writes s.files cmd l) : Ready s cmd := by
  cases h with
  | create hbody => exact .create hbody
  | update => exact .update

/-- What a run posts is the submission of its text. -/
theorem posted_perform (htext : cmd.takesText) (hx : InUse s.files path x) {json : Bool}
    {before after : List Turn} {url : String} {v : Value} {answer : Answer}
    (hts : (perform s path json cmd).turns = before ++ .post url v answer :: after) :
    after = [] ∧ ∃ g a record instid, Prepared (Records.loaderOf x) cmd before g a record ∧
      Aims g a record url instid ∧ (∃ l, Writes s.files cmd l) ∧
      ∀ l, Writes s.files cmd l → v = Plan.submission g a record instid l := by
  have hsome : (perform s path json cmd).turns ≠ [] := by simp [hts]
  obtain ⟨y, hy, said, result, hcourse, -⟩ := exists_tookCourse htext hsome
  obtain rfl := hy.unique hx
  obtain ⟨hafter, g, a, record, instid, m, lines, hp, hm, ha, rfl, -⟩ := hcourse.of_post hts
  refine ⟨hafter, g, a, record, instid, hp, ha, ?_, fun l hl => ?_⟩
  · obtain ⟨l, hl, -⟩ := Plan.exists_writes hm
    exact ⟨l, hl⟩
  · obtain rfl := hm.unique (Plan.offers_of_writes hl)
    rw [Plan.submission, Descriptor.submitted_ofList, Plan.submission]

/-- What the user is told beside the output are the names that were passed over, and the failure if
there is one. -/
theorem told_perform (htext : cmd.takesText) (hx : InUse s.files path x) {json : Bool}
    {before : List Turn} {g : Gateway} {a : Action} {record : Option Object}
    {l : List (String × Value)} (hbefore : before <+: (perform s path json cmd).turns)
    (hp : Prepared (Records.loaderOf x) cmd before g a record) (hl : Writes s.files cmd l) :
    ∃ last, (perform s path json cmd).sayings.filterMap Saying.err?
        = (g.descriptor.undeclared l).map g.descriptor.skipLine ++ last ∧
      ((perform s path json cmd).code = 0 ∧ last = [] ∨
        (perform s path json cmd).code = 1 ∧ ∃ f : Failure, last = [f.report]) := by
  obtain ⟨said, result, hcourse, hsayings, hcode⟩ :=
    tookCourse_perform htext (ready_of_writes hl) hx json
  obtain ⟨lines, rfl, hlines⟩ := hcourse.exists_said hp hbefore (Plan.offers_of_writes hl)
  have hout : lines.filterMap Saying.err? = [] := by
    refine List.filterMap_eq_nil_iff.2 fun t ht => ?_
    obtain ⟨line, rfl⟩ := hlines t ht
    rfl
  refine ⟨(closing result).filterMap Saying.err?, ?_, ?_⟩
  · rw [← Saying.filterMap_err?_heard, hsayings, List.filterMap_append, List.filterMap_append, hout,
      List.append_nil, Plan.skipped, Descriptor.undeclared_ofList, List.filterMap_map]
    rw [show Saying.err? ∘ (fun name => Saying.err (g.descriptor.skipLine name))
      = fun name => some (g.descriptor.skipLine name) from rfl, List.filterMap_eq_map']
  · rw [hcode]
    cases result with
    | ok => exact .inl ⟨rfl, rfl⟩
    | error f => exact .inr ⟨rfl, f, rfl⟩

/-- **Runs submit the declared fields.**  Whatever the files and the network: a command line that
takes a text posts the declared fields with what the text has for them, once it has got as far as
the text; it tells the user of every other name; and nothing else in the text, and no order of it,
has any influence on what is sent. -/
theorem submits_declared {args : List String} {i : Invocation} (s : Surroundings)
    (hread : Invocation.read args = .ok i) (htext : i.command.takesText) :
    Submission s (configPath i s.environment) i.command (run args s) := by
  have hrun : ∀ {args : List String} {i : Invocation} (s : Surroundings),
      Invocation.read args = .ok i →
        run args s = perform s (configPath i s.environment) i.json i.command := by
    intro args i s h
    rw [run, h]
  rw [hrun s hread]
  constructor
  case posted => exact fun x hx before url v answer after hts => posted_perform htext hx hts
  case due =>
    intro x hx g a record l hp hl
    obtain ⟨said, result, hcourse, -⟩ := tookCourse_perform htext (ready_of_writes hl) hx i.json
    exact Plan.recordId_of_not_aims hp (hcourse.not_aims hp (Plan.offers_of_writes hl))
  case told =>
    exact fun x hx before g a record l hbefore hp hl => told_perform htext hx hbefore hp hl
  case alike =>
    intro x hx args' s' i' hread' hsame hx' hnetwork l l' hl hl' h
    rw [hrun s' hread']
    exact sameRequests_perform hsame hx hx' hnetwork hl hl' h
  case rearranged =>
    intro x hx args' s' i' hread' hsame hx' hnetwork l l' hl hl' h
    rw [hrun s' hread']
    exact sameRequests_perform hsame hx hx' hnetwork hl hl' fun _ _ g _ _ _ =>
      Plan.agree_of_perm h g

/-- A label is given twice, and a name that is not declared is given twice around it. -/
theorem submits_declared_workshop :
    let text := "\x7b\"size\": 1, \"label\": 1, \"label\": 2, \"size\": 3\x7d"
    let args := ["--config", "m.toml", "update", "Widget", "7", "--json", text]
    let command : Command := .update "Widget" "7" text
    Invocation.read args = .ok ⟨some "m.toml", false, command⟩ ∧ command.takesText ∧
      Submission workshop "m.toml" command (run args workshop) ∧
      (run args workshop).sayings.filterMap Saying.err?
        = ["Skipping Widget has no field 'size'.\n"] ∧
      (run args workshop).arrived.getLast?.map (·.body) = some
        "\x7b\"instid\":\"8\",\"method\":\"put\",\"payload\":\"\x7b\\\"label\\\":2\x7d\"\x7d" := by
  intro text args command
  have hread : Invocation.read args = .ok ⟨some "m.toml", false, command⟩ :=
    eq_ok_of_toOption (by decide +kernel)
  exact ⟨hread, rfl, submits_declared workshop hread rfl, by decide +kernel, by decide +kernel⟩

end Program
end RemoteModels
