import RemoteModels.Proofs.Command.Discipline
import RemoteModels.Proofs.Command.Filling

/-!
# The course of a command that takes a text

Creating and updating a record are alike.  A gateway is looked up and, to update a record, the
record is fetched; the fields are filled in from a text; and what has come of them is posted.  This
file says what course such a command can take: it stops before the text is looked at, or the record
turns out to have no identity, or the fields are posted.  With its turns, a course has all that the
user is told.

A course is an inductive relation over all that can be seen of a command: its turns, what the user
is told, and how it ends.  It has three clauses, one for each place where a command can stop, and a
statement about commands that take a text is proved once, by cases of the course, instead of once
for each command.

* `Plan.Prepared`, `Plan.Aims` — the turns that lead up to the text, and where the post goes.
* `Plan.submission`, `Plan.skipped` — what is posted for a text, and what is left out of it.
* `Plan.Course` — the courses; `Plan.course_create` and `Plan.course_update` say that the commands
  take them, and `Program.tookCourse_perform` that whole runs do.
-/

set_option autoImplicit false

namespace RemoteModels

open Json (Value Object)

namespace Plan

/-! ## Courses

Up to its text a command only reads, and what it has read decides on everything that is posted,
except for the fields.  So a course is described in two halves: what leads up to the text
(`Prepared`), and what is made of the text from there. -/

/-- The turns that lead a command up to its text, with the action and the record it is about. -/
inductive Prepared (l : Loader) : Command → List Turn → Gateway → Action → Option Object → Prop
  /-- A creation has no record yet, and knows its parent from the command line. -/
  | create {model parentId : String} {json file : Option String} {answer : TextAnswer} {g : Gateway}
      (h : Known l model answer g) :
      Prepared l (.create model parentId json file) [.text l.path answer] g (.post parentId) none
  /-- An update has fetched the record that the user named. -/
  | update {model id body : String} {answer : TextAnswer} {g : Gateway} {r : Object}
      (h : Known l model answer g) :
      Prepared l (.update model id body)
        [.text l.path answer, .get (g.itemUrl id) (.ok (.object r))] g .put (some r)

/-- Where an action on a record goes, and under which identity. -/
inductive Aims (g : Gateway) : Action → Option Object → String → Option String → Prop
  | post (parentId : String) : Aims g (.post parentId) none (g.collectionUrl parentId) none
  | put {r : Object} {target : String} (h : recordId r = some target) :
      Aims g .put (some r) (g.itemUrl target) (some target)

/-- What is posted for a text with these members. -/
def submission (g : Gateway) (a : Action) (record : Option Object) (instid : Option String)
    (l : List (String × Value)) : Value :=
  Envelope.toValue ⟨instid, a.verb, (Value.object (g.descriptor.submitted record l)).compact⟩

/-- What the user is told of the text. -/
def skipped (g : Gateway) (l : List (String × Value)) : List Saying :=
  (g.descriptor.undeclared l).map fun name => .err (g.descriptor.skipLine name)

/-- The line that tells of success. -/
def doneLine (g : Gateway) : Command → String
  | .update _ id _ => g.modelName ++ " " ++ id ++ " updated."
  | _ => g.modelName ++ " created."

/-- How a command ends after its post has been answered. -/
inductive Ends (g : Gateway) (cmd : Command) (a : Action) (answer : Answer) :
    List Saying → Except Failure Unit → Prop
  | ok (shown : String) (h : a.Accepts answer) :
      Ends g cmd a answer [.out (doneLine g cmd), .out shown] (.ok ())
  | error (e : Failure) (h : ¬ a.Accepts answer) : Ends g cmd a answer [] (.error e)

/-- The course of a command that takes a text. -/
inductive Course (l : Loader) (files : Files) (cmd : Command) :
    List Turn → List Saying → Except Failure Unit → Prop
  /-- The command fails before the members of its text are looked at. -/
  | early {ts : List Turn} (hget : ∀ t ∈ ts, t.method = .get)
      (h : ∀ before g a record m, before <+: ts → Prepared l cmd before g a record →
        ¬ Offers files cmd m) (e : Failure) : Course l files cmd ts [] (.error e)
  /-- The fields are filled in, and cannot be posted. -/
  | refused {ts : List Turn} {g : Gateway} {a : Action} {record : Option Object} {m : Object}
      (hp : Prepared l cmd ts g a record) (hm : Offers files cmd m)
      (h : ∀ url instid, ¬ Aims g a record url instid) (e : Failure) :
      Course l files cmd ts (skipped g m) (.error e)
  /-- The fields are filled in and posted. -/
  | sent {ts : List Turn} {g : Gateway} {a : Action} {record : Option Object} {m : Object}
      {url : String} {instid : Option String} {answer : Answer} {lines : List Saying}
      {result : Except Failure Unit} (hp : Prepared l cmd ts g a record) (hm : Offers files cmd m)
      (ha : Aims g a record url instid) (hend : Ends g cmd a answer lines result) :
      Course l files cmd (ts ++ [.post url (submission g a record instid m) answer])
        (skipped g m ++ lines) result

variable {l : Loader} {files : Files} {cmd : Command} {ts : List Turn} {g : Gateway} {a : Action}
  {record : Option Object} {i : Instance}

/-! ## Courses are determined

The turns before a post fix the gateway, the action and the record, so nothing is left open when two
accounts of one run are compared. -/

/-- A command has one text. -/
theorem Offers.unique {m m' : Object} (h : Offers files cmd m) (h' : Offers files cmd m') :
    m = m' := by
  cases h with
  | create hbody hm =>
    cases h' with
    | create hbody' hm' =>
      rw [hbody] at hbody'
      cases hbody'
      rw [hm] at hm'
      cases hm'
      rfl
  | update hm =>
    cases h' with
    | update hm' =>
      rw [hm] at hm'
      cases hm'
      rfl

namespace Prepared

/-- Up to its text a command only reads. -/
theorem method_eq (h : Prepared l cmd ts g a record) : ∀ t ∈ ts, t.method = .get := by
  cases h with
  | create => simp [Turn.method]
  | update => simp [Turn.method]

/-- The first turns decide on all else. -/
theorem unique (h : Prepared l cmd ts g a record) {before all : List Turn} {g' : Gateway}
    {a' : Action} {record' : Option Object} (h' : Prepared l cmd before g' a' record')
    (hts : ts <+: all) (hbefore : before <+: all) :
    before = ts ∧ g' = g ∧ a' = a ∧ record' = record := by
  obtain ⟨more, rfl⟩ := hts
  obtain ⟨more', heq⟩ := hbefore
  cases h with
  | create hg =>
    cases h' with
    | create hg' =>
      cases (List.cons.inj heq).1
      exact ⟨rfl, hg'.unique hg, rfl, rfl⟩
  | update hg =>
    cases h' with
    | update hg' =>
      obtain ⟨hfirst, hrest⟩ := List.cons.inj heq
      cases hfirst
      obtain rfl := hg'.unique hg
      cases (List.cons.inj hrest).1
      exact ⟨rfl, rfl, rfl, rfl⟩

end Prepared

/-! ## The commands

A creation and an update differ in how they come to their instance, and are one piece of program
from the text on; `course_text` is about that piece.  What the user is told there can differ between
two texts, so it is followed along with the turns. -/

/-- Where an instance goes whose fields have been filled in. -/
theorem aims_of_sends (hi : i.Origin g.descriptor record) {m : Object} {url : String}
    (hp : Prepared l cmd ts g a record) (h : Gateway.Sends g (i.setAll m) a url) :
    Aims g a record url (i.setAll m).id := by
  rw [Instance.id_setAll]
  cases hp with
  | create =>
    cases hi with
    | fresh =>
      cases h with
      | post => exact .post _
  | update =>
    cases hi with
    | record hr =>
      cases h with
      | put _ htarget =>
        rw [Instance.id_setAll] at htarget
        rw [htarget]
        exact .put ((Gateway.of_hydrate_object hr).1.symm.trans htarget)

/-- An instance with an aim may be sent. -/
theorem sends_of_aims (hi : i.Origin g.descriptor record) {m : Object} {url : String}
    {instid : Option String} (h : Aims g a record url instid) :
    Gateway.Sends g (i.setAll m) a url := by
  cases h with
  | post parentId =>
    cases hi with
    | fresh => exact .post _ (Instance.state_setAll _ m) (Instance.id_setAll _ m)
  | put htarget =>
    cases hi with
    | record hr =>
      obtain ⟨hid, hlive⟩ := Gateway.of_hydrate_object hr
      rw [← Instance.id_setAll i m] at hid
      rw [← Instance.state_setAll i m] at hlive
      exact .put hlive (hid.trans htarget)

/-- The body of the post is the submission of the text. -/
theorem body_setAll (hi : i.Origin g.descriptor record) (a : Action)
    (m : List (String × Value)) :
    Gateway.body a (i.setAll m) = submission g a record (i.setAll m).id m := by
  rw [Gateway.body, Envelope.ofInstance, Instance.toDict_setAll hi]
  rfl

/-! ## From the parts to a course

What the commands that take a text have in common is shown once; they differ in how the instance was
made. -/

/-- From the text on the commands are alike. -/
theorem course_text (hp : Prepared l cmd ts g a record) (hi : i.Origin g.descriptor record)
    {body : String}
    (hbody : ∀ m, Offers files cmd m ↔ Json.parse body = .ok (.object m)) :
    (Records.applyJson i body >>= fun i => Records.send g a i >>= fun i =>
      Records.lift (Dialogue.outAll [doneLine g cmd, (Records.recordValue i).pretty])).Tells
      fun ts' said r => Course l files cmd (ts ++ ts') said r := by
  refine Attempt.tells_bind (Records.tells_applyJson hi.sound (fun m hm => ?_) fun e he => ?_)
  · have hoffers : Offers files cmd m := (hbody m).2 hm
    refine (Records.quiet_send g a _).tells_bind (Records.ensures_send ?_ ?_ ?_)
    · intro url answer i' hs ha
      refine Records.tells_lift (Dialogue.tells_outAll.2 ?_)
      rw [body_setAll hi]
      exact .sent hp hoffers (aims_of_sends hi hp hs) (.ok _ ha)
    · intro url answer e hs ha
      rw [body_setAll hi]
      exact .sent hp hoffers (aims_of_sends hi hp hs) (.error e ha)
    · intro e hrefused
      show Course l files cmd (ts ++ []) (skipped g m ++ []) (.error e)
      rw [List.append_nil, List.append_nil]
      exact .refused hp hoffers (fun url instid ha => hrefused url (sends_of_aims hi ha)) e
  · refine Course.early (fun t ht => ?_) (fun _ _ _ _ m _ _ hm => he m ((hbody m).1 hm)) e
    rw [List.append_nil] at ht
    exact hp.method_eq t ht

/-- The answer does not declare the model, so the text is not looked at. -/
theorem course_unknown {model : String} {answer : TextAnswer} {e : Failure}
    (hmodel : cmd.model? = some model) (h : ∀ g, ¬ Known l model answer g) :
    Course l files cmd [.text l.path answer] [] (.error e) := by
  refine .early (by simp [Turn.method]) (fun before g a record m hbefore hp => ?_) e
  obtain ⟨more, heq⟩ := hbefore
  cases hp with
  | create hg =>
    cases hmodel
    cases (List.cons.inj heq).1
    exact absurd hg (h g)
  | update hg => cases (List.cons.inj heq).2

/-- Loading the models and looking one up, before anything is said. -/
theorem tells_known {α : Type} {model : String} {k : Gateway → Attempt α}
    {post : List Turn → List Saying → Except Failure α → Prop}
    (hok : ∀ answer g, Known l model answer g →
      (k g).Tells fun ts said r => post (.text l.path answer :: ts) said r)
    (herror : ∀ answer e, (∀ g, ¬ Known l model answer g) →
      post [.text l.path answer] [] (.error e)) :
    (Records.loadModels l >>= fun r => Records.gatewayOf r model >>= k).Tells post := by
  refine (Records.quiet_loadModels l).tells_bind
    (Records.ensures_loadModels (fun answer r hr => ?_) fun answer e hr => ?_)
  · refine (Records.quiet_gatewayOf r model).tells_bind
      (Records.ensures_gatewayOf (fun g hg => hok answer g ⟨r, hr, hg⟩) fun e hg => ?_)
    refine herror answer e ?_
    rintro g ⟨r', hr', hg'⟩
    obtain rfl := hr.unique hr'
    rw [hg] at hg'
    cases hg'
  · exact herror answer e fun g ⟨r, hbuilds, _⟩ => hr r hbuilds

/-- Creating takes its course. -/
theorem course_create {json file : Option String} {body : String}
    (hbody : Program.bodyOf files json file = .ok body) (l : Loader) (model parentId : String) :
    (Records.create l model parentId body).Tells
      (Course l files (.create model parentId json file)) := by
  refine tells_known (fun answer g hg => ?_) fun answer e h => course_unknown rfl h
  refine course_text (.create hg) .fresh fun m => ⟨fun hm => ?_, fun hm => .create hbody hm⟩
  cases hm with
  | create hbody' hm =>
    rw [hbody] at hbody'
    cases hbody'
    exact hm

/-- So does updating. -/
theorem course_update (l : Loader) (files : Files) (model id body : String) :
    (Records.update l model id body).Tells (Course l files (.update model id body)) := by
  refine tells_known (fun answer g hg => ?_) fun answer e h => course_unknown rfl h
  refine (Records.quiet_fetch g id).tells_bind
    (Records.ensures_fetch (fun r i hi => ?_) fun answer' e ha => ?_)
  · refine course_text (.update hg) (.record hi) fun m => ⟨fun hm => ?_, .update⟩
    cases hm with
    | update hm => exact hm
  · refine .early (by simp [Turn.method]) (fun before g a record m hbefore hp => ?_) e
    obtain ⟨more, heq⟩ := hbefore
    cases hp with
    | update =>
      obtain ⟨-, hanswer⟩ := Turn.get.inj (List.cons.inj (List.cons.inj heq).2).1
      exact absurd hanswer.symm (ha _)

/-! ## What a course has in it

Three questions are asked about courses later: what is posted, when nothing is, and what the user
has been told by then. -/

namespace Course

variable {said : List Saying} {result : Except Failure Unit}

/-- A post is the last turn, and a submission. -/
theorem of_post (h : Course l files cmd ts said result) {before after : List Turn} {url : String}
    {v : Value} {answer : Answer} (hts : ts = before ++ .post url v answer :: after) :
    after = [] ∧ ∃ g a record instid m lines, Prepared l cmd before g a record ∧
      Offers files cmd m ∧ Aims g a record url instid ∧ v = submission g a record instid m ∧
      Ends g cmd a answer lines result ∧ said = skipped g m ++ lines := by
  have hmem : Turn.post url v answer ∈ ts := by
    rw [hts]
    exact List.mem_append_right _ List.mem_cons_self
  cases h with
  | early hget => cases hget _ hmem
  | refused hp => cases hp.method_eq _ hmem
  | sent hp hm ha hend =>
    rcases List.eq_nil_or_concat after with rfl | ⟨after', last, rfl⟩
    · obtain ⟨rfl, hlast⟩ := List.append_inj' hts rfl
      obtain ⟨rfl, rfl, rfl⟩ := Turn.post.inj (List.cons.inj hlast).1
      exact ⟨rfl, _, _, _, _, _, _, hp, hm, ha, rfl, hend, rfl⟩
    · -- Another turn behind the post would leave it among those that lead up to the text.
      rw [List.concat_eq_append, ← List.cons_append, ← List.append_assoc] at hts
      obtain ⟨rfl, -⟩ := List.append_inj' hts rfl
      cases hp.method_eq _ (List.mem_append_right _ List.mem_cons_self)

/-- What leads up to the text is all there is only if the post has no aim. -/
theorem not_aims (h : Course l files cmd ts said result) (hp : Prepared l cmd ts g a record)
    {m : Object} (hm : Offers files cmd m) (url : String) (instid : Option String) :
    ¬ Aims g a record url instid := by
  cases h with
  | early _ hnone => exact absurd hm (hnone _ _ _ _ m (List.prefix_refl _) hp)
  | refused hp' _ hnone =>
    obtain ⟨-, rfl, rfl, rfl⟩ := hp'.unique hp (List.prefix_refl _) (List.prefix_refl _)
    exact hnone url instid
  | sent => cases hp.method_eq _ List.mem_concat_self

/-- Behind what leads up to the text, the user is told of the names that are left out. -/
theorem exists_said (h : Course l files cmd ts said result) {before : List Turn}
    (hp : Prepared l cmd before g a record) (hbefore : before <+: ts) {m : Object}
    (hm : Offers files cmd m) :
    ∃ lines, said = skipped g m ++ lines ∧ ∀ s ∈ lines, ∃ line, s = .out line := by
  cases h with
  | early _ hnone => exact absurd hm (hnone _ _ _ _ m hbefore hp)
  | refused hp' hm' =>
    obtain ⟨-, rfl, -⟩ := hp'.unique hp (List.prefix_refl _) hbefore
    obtain rfl := hm.unique hm'
    exact ⟨[], (List.append_nil _).symm, by simp⟩
  | sent hp' hm' _ hend =>
    obtain ⟨-, rfl, -⟩ := hp'.unique hp (List.prefix_append _ _) hbefore
    obtain rfl := hm.unique hm'
    refine ⟨_, rfl, ?_⟩
    cases hend with
    | ok => simp
    | error => simp

end Course

/-- The only instance that cannot be posted is that of a record without an identity. -/
theorem recordId_of_not_aims (hp : Prepared l cmd ts g a record)
    (h : ∀ url instid, ¬ Aims g a record url instid) :
    ∃ r, a = .put ∧ record = some r ∧ recordId r = none := by
  cases hp with
  | create => exact absurd (.post _) (h _ _)
  | @update _ _ _ _ _ r =>
    refine ⟨r, rfl, rfl, ?_⟩
    cases hid : recordId r with
    | none => rfl
    | some target => exact absurd (.put hid) (h _ _)

end Plan

/-! ## Whole runs

A run adds to the dialogue of its command what is said at the end of a failure and the exit code.
Everything else of a report is what the dialogue leaves. -/

namespace Program

open Plan (Course)

/-- What the user is told at the end of a run. -/
def closing : Except Failure Unit → List Saying
  | .ok () => []
  | .error f => [.err f.report]

/-- What a run leaves behind whose dialogue has gone like this. -/
def concluded (s : Surroundings) (r : Dialogue.Record (Except Failure Unit)) : Report where
  code := if r.result.isOk then 0 else 1
  sayings := r.sayings ++ closing r.result
  files := s.files
  network := r.network
  turns := r.turns
  arrived := r.arrived

variable {s : Surroundings} {path : String} {cmd : Command} {x : Context}

/-- With a context in use, a run is that of its dialogue. -/
theorem runDialogue_of_inUse (hx : InUse s.files path x) (dialogue : Loader → Attempt Unit) :
    runDialogue s path dialogue
      = concluded s (Dialogue.run (Records.clientOf x) s.network
        (dialogue (Records.loaderOf x)).run) := by
  obtain ⟨c, hc, hfind⟩ := hx
  simp only [runDialogue, hc, Config.require_eq_ok_iff.2 hfind, concluded]
  generalize Dialogue.run (Records.clientOf x) s.network _ = r
  cases r.result <;> rfl

theorem turns_runDialogue (hx : InUse s.files path x) (dialogue : Loader → Attempt Unit) :
    (runDialogue s path dialogue).turns
      = (Dialogue.run (Records.clientOf x) s.network
        (dialogue (Records.loaderOf x)).run).turns := by
  rw [runDialogue_of_inUse hx, concluded]

theorem perform_create {json file : Option String} {body : String}
    (hbody : bodyOf s.files json file = .ok body) (path model parentId : String) (b : Bool) :
    perform s path b (.create model parentId json file)
      = runDialogue s path fun l => Records.create l model parentId body := by
  rw [perform, hbody]

theorem perform_update (s : Surroundings) (path model id body : String) (b : Bool) :
    perform s path b (.update model id body)
      = runDialogue s path fun l => Records.update l model id body := by
  rw [perform]

/-- The run took a course, with the context in use. -/
def TookCourse (s : Surroundings) (cmd : Command) (r : Report) (x : Context) : Prop :=
  ∃ said result, Course (Records.loaderOf x) s.files cmd r.turns said result ∧
    r.sayings.flatMap Saying.heard = said ++ closing result ∧
    r.code = if result.isOk then 0 else 1

theorem tookCourse_concluded {r : Dialogue.Record (Except Failure Unit)}
    (h : Course (Records.loaderOf x) s.files cmd r.turns (r.sayings.flatMap Saying.heard)
      r.result) :
    TookCourse s cmd (concluded s r) x := by
  refine ⟨_, _, h, ?_, rfl⟩
  rw [concluded, List.flatMap_append]
  cases r.result <;> rfl

/-- A dialogue that takes a course does so over the network at hand. -/
theorem tookCourse_runDialogue (hx : InUse s.files path x) {dialogue : Loader → Attempt Unit}
    (h : ∀ l, (dialogue l).Tells (Course l s.files cmd)) :
    TookCourse s cmd (runDialogue s path dialogue) x := by
  rw [runDialogue_of_inUse hx]
  exact tookCourse_concluded ((h (Records.loaderOf x)).run (Records.clientOf x) s.network)

/-- **A run of a command that takes a text takes its course**, if the text is given and a context is
in use. -/
theorem tookCourse_perform (htext : cmd.takesText) (hready : Ready s cmd)
    (hx : InUse s.files path x) (json : Bool) :
    TookCourse s cmd (perform s path json cmd) x := by
  cases hready with
  | create hbody =>
    rw [perform_create hbody]
    exact tookCourse_runDialogue hx fun l => Plan.course_create hbody l _ _
  | update =>
    rw [perform_update]
    exact tookCourse_runDialogue hx fun l => Plan.course_update l _ _ _ _
  | models | list | get | forced | confirmed => cases htext

/-- A run that sends anything has been given its text, and a context is in use. -/
theorem exists_tookCourse (htext : cmd.takesText) {json : Bool}
    (h : (perform s path json cmd).turns ≠ []) :
    ∃ x, InUse s.files path x ∧ TookCourse s cmd (perform s path json cmd) x := by
  have hremote : cmd.isRemote := by
    cases cmd with
    | create | update => rfl
    | _ => cases htext
  obtain ⟨hready, x, hx⟩ : Ready s cmd ∧ ∃ x, InUse s.files path x :=
    Classical.byContradiction fun hnot => h ((discipline_perform hremote json).silent hnot).1
  exact ⟨x, hx, tookCourse_perform htext hready hx json⟩

end Program
end RemoteModels
