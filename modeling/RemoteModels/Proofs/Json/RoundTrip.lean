import RemoteModels.Proofs.Json.Numbers

/-!
# Values read back

The compact text of a value reads back as the value, with its members in their order.  Three things
can stand in the way: an object that repeats a name, of which only the last value is kept; a number
that does not read back; and containers nested more deeply than the reader goes.

The proof is an induction on why the value is legible.  A container reads back if its items do, in
front of what stands behind each of them: a comma, or the bracket that closes the container.  These
stop a value, numbers included, which is where the statement about numbers is used.

* `Json.Value.depth`, `Json.Value.EachNumber` — how deeply containers are nested, and what holds of
  every number inside.
* `Json.Value.Regular` — the values that texts give (`Json.parse_regular`).
* `Json.Value.Legible` — nothing stands in the way, down to a depth; regular values are legible down
  to their own depth if their doubles read back (`Json.Value.Regular.legible`).
* `Json.readValue_takes` — a legible value reads back wherever it stands; `Json.parse_compact` — and
  on its own.
-/

set_option autoImplicit false

namespace RemoteModels

/-! ## Members that repeat no name

The reader writes members one over the other.  Where no name is repeated, nothing is written over,
and the members come out as they went in. -/

namespace Members

variable {α : Type}

/-- A new name goes to the end. -/
theorem put_of_not_mem {m : Members α} {name : String} (h : name ∉ m.names) (v : α) :
    m.put name v = m ++ [(name, v)] := by
  induction m with
  | nil => rfl
  | cons e rest ih =>
    rw [names, List.map_cons, List.mem_cons, not_or] at h
    rw [put, if_neg fun heq => h.1 heq.symm, ih h.2]
    rfl

/-- Members with new names go to the end in their order. -/
theorem merge_of_nodup {m later : Members α} (h : (m ++ later).names.Nodup) :
    m.merge later = m ++ later := by
  induction later generalizing m with
  | nil => exact (List.append_nil m).symm
  | cons e rest ih =>
    have hsplit : m ++ e :: rest = m ++ [(e.1, e.2)] ++ rest := by simp
    have hnew : e.1 ∉ m.names := by
      intro hmem
      rw [names, List.map_append, List.nodup_append] at h
      exact h.2.2 e.1 hmem e.1 (by simp) rfl
    rw [hsplit] at h ⊢
    rw [← ih h]
    show merge (m.put e.1 e.2) rest = _
    rw [put_of_not_mem hnew]

/-- Members without repetition come out as they are. -/
theorem ofList_of_nodup {l : Members α} (h : l.names.Nodup) : ofList l = l := merge_of_nodup h

end Members

namespace Json

/-! ## Depth and numbers

The depth of a value is computed, so that a bound on it can be checked; what holds of its numbers is
a predicate on the tree.  `Legible` is what the induction needs, and the lemma below it brings the
two together. -/

namespace Value

mutual

/-- How many containers are nested. -/
def depth : Value → Nat
  | .array items => depthItems items + 1
  | .object members => depthMembers members + 1
  | _ => 0

/-- The depth of the deepest item. -/
def depthItems : List Value → Nat
  | [] => 0
  | v :: rest => max (depth v) (depthItems rest)

/-- The depth of the deepest member. -/
def depthMembers : List (String × Value) → Nat
  | [] => 0
  | (_, v) :: rest => max (depth v) (depthMembers rest)

end

/-- No item is deeper than the deepest. -/
theorem depth_le_depthItems {items : List Value} {v : Value} (h : v ∈ items) :
    v.depth ≤ depthItems items := by
  induction items with
  | nil => cases h
  | cons w rest ih =>
    rw [depthItems]
    rcases List.mem_cons.1 h with rfl | h
    · exact Nat.le_max_left _ _
    · exact Nat.le_trans (ih h) (Nat.le_max_right _ _)

theorem depth_le_depthMembers {members : Object} {e : String × Value} (h : e ∈ members) :
    e.2.depth ≤ depthMembers members := by
  induction members with
  | nil => cases h
  | cons f rest ih =>
    obtain ⟨k, w⟩ := f
    rw [depthMembers]
    rcases List.mem_cons.1 h with rfl | h
    · exact Nat.le_max_left _ _
    · exact Nat.le_trans (ih h) (Nat.le_max_right _ _)

/-- Something holds of every number inside the value. -/
inductive EachNumber (P : Number → Prop) : Value → Prop
  | null : EachNumber P .null
  | bool (b : Bool) : EachNumber P (.bool b)
  | number {n : Number} (h : P n) : EachNumber P (.number n)
  | string (s : String) : EachNumber P (.string s)
  | array {items : List Value} (h : ∀ v ∈ items, EachNumber P v) : EachNumber P (.array items)
  | object {members : Object} (h : ∀ e ∈ members, EachNumber P e.2) :
      EachNumber P (.object members)

/-- The value reads back with a reader that goes down `depth` containers. -/
inductive Legible : Nat → Value → Prop
  | null (depth : Nat) : Legible depth .null
  | bool (depth : Nat) (b : Bool) : Legible depth (.bool b)
  | number (depth : Nat) {n : Number} (hn : n.Normal) (hb : n.ReadsBack) :
      Legible depth (.number n)
  | string (depth : Nat) (s : String) : Legible depth (.string s)
  | array {depth : Nat} {items : List Value} (h : ∀ v ∈ items, Legible depth v) :
      Legible (depth + 1) (.array items)
  | object {depth : Nat} {members : Object} (hn : members.names.Nodup)
      (h : ∀ e ∈ members, Legible depth e.2) : Legible (depth + 1) (.object members)

/-! ## Regular values

These are the values a text can give.  The type of values has room for others: an object with a name
twice, and a number that is kept as a negative one without being negative. -/

/-- A value of the kind that is read from a text: no object repeats a name, and every number has its
normal form. -/
structure Regular (v : Value) : Prop where
  proper : v.Proper
  normal : v.EachNumber Number.Normal

theorem regular_null : Value.null.Regular := ⟨.null, .null⟩

theorem regular_string (s : String) : (Value.string s).Regular := ⟨.string s, .string s⟩

theorem regular_number {n : Number} (h : n.Normal) : (Value.number n).Regular :=
  ⟨.number n, .number h⟩

/-- An object of regular values without repeated names is regular. -/
theorem regular_object {m : Object} (hn : m.names.Nodup) (h : ∀ e ∈ m, e.2.Regular) :
    (Value.object m).Regular :=
  ⟨.object hn fun e he => (h e he).proper, .object fun e he => (h e he).normal⟩

/-- A regular value is legible down to its own depth, provided that its doubles read back. -/
theorem Regular.legible {v : Value} (h : v.Regular) (hb : v.EachNumber Number.ReadsBack) {d : Nat}
    (hd : v.depth ≤ d) : Legible d v := by
  obtain ⟨hp, hn⟩ := h
  -- Properness, normal numbers and numbers that read back have one shape; they are taken apart
  -- together.
  induction hp generalizing d with
  | null => exact .null d
  | bool b => exact .bool d b
  | string s => exact .string d s
  | number n =>
    cases hn with
    | number hn =>
      cases hb with
      | number hb => exact .number d hn hb
  | @array items _ ih =>
    cases hn with
    | array hn =>
      cases hb with
      | array hb =>
        cases d with
        | zero => exact absurd hd (Nat.not_succ_le_zero _)
        | succ d =>
          have hle := Nat.le_of_succ_le_succ hd
          exact .array fun v hv =>
            ih v hv (hb v hv) (Nat.le_trans (depth_le_depthItems hv) hle) (hn v hv)
  | @object members hnodup _ ih =>
    cases hn with
    | object hn =>
      cases hb with
      | object hb =>
        cases d with
        | zero => exact absurd hd (Nat.not_succ_le_zero _)
        | succ d =>
          have hle := Nat.le_of_succ_le_succ hd
          exact .object hnodup fun e he =>
            ih e he (hb e he) (Nat.le_trans (depth_le_depthMembers he) hle) (hn e he)

end Value

/-- What holds of all numbers that are read passes from parts to wholes. -/
theorem compositional_eachNumber {P : Number → Prop} (h : Reader.Gives P readNumber) :
    Compositional (Value.EachNumber P) where
  null := .null
  bool := .bool
  string := .string
  number := fun hn => .number (h hn)
  array := .array
  object := fun hl => .object fun e he => hl e (Members.mem_ofList he)

/-- **A value read from a JSON text is regular.** -/
theorem parse_regular {text : String} {v : Value} (h : parse text = .ok v) : v.Regular :=
  ⟨parse_proper h, parse_gives (compositional_eachNumber readNumber_normal) h⟩

/-! ## Where a value begins

The reader of a list decides by the next character whether there is an item.  The first character of
a value is never one that it would take for something else. -/

/-- A value begins with something that is neither blank nor the end of a list. -/
theorem Value.exists_chars_eq (v : Value) :
    ∃ x xs, v.chars = x :: xs ∧ Cursor.isBlank x = false ∧ x ≠ ']' := by
  cases v with
  | null => exact ⟨'n', _, rfl, rfl, by decide⟩
  | bool b =>
    cases b with
    | true => exact ⟨'t', _, rfl, rfl, by decide⟩
    | false => exact ⟨'f', _, rfl, rfl, by decide⟩
  | string s => exact ⟨'"', _, rfl, rfl, by decide⟩
  | number n =>
    obtain ⟨d, cs, hcs, hd⟩ := n.exists_text_eq
    refine ⟨d, cs, hcs, isBlank_of_number hd, ?_⟩
    rintro rfl
    exact absurd hd (by decide)
  | array items => cases items <;> exact ⟨'[', _, rfl, rfl, by decide⟩
  | object members => cases members <;> exact ⟨'\x7b', _, rfl, rfl, by decide⟩

/-- A comma and the closing brackets stop a value. -/
theorem stops_cons {x : Char} (hx : x = ',' ∨ x = ']' ∨ x = '\x7d') (xs : List Char) :
    Stops (x :: xs) := by
  intro c hc
  cases hc
  exact .inr hx

/-- What stands behind an item stops it. -/
theorem stops_itemChars (items : List Value) (rest : List Char) :
    Stops (Value.itemChars items ++ ']' :: rest) := by
  cases items with
  | nil => exact stops_cons (.inr (.inl rfl)) _
  | cons v items => exact stops_cons (.inl rfl) _

/-- What stands behind a member stops it. -/
theorem stops_memberChars (members : Object) (rest : List Char) :
    Stops (Value.memberChars members ++ '\x7d' :: rest) := by
  cases members with
  | nil => exact stops_cons (.inr (.inr rfl)) _
  | cons e members => exact stops_cons (.inl rfl) _

/-! ## Lists

The first item follows the bracket and each other one a comma; both come to one item and the
rest. -/

section Items

variable {item : Reader Value}

/-- One item and those behind it. -/
def readItemsFrom (item : Reader Value) (n : Nat) : Reader (List Value) := fun c =>
  item c >>= fun r => readItems item n false r.2 >>= fun r' => .ok (r.1 :: r'.1, r'.2)

/-- The first item. -/
theorem readItems_first (n : Nat) {x : Char} {xs : List Char} {p : Position}
    (hb : Cursor.isBlank x = false) (hx : x ≠ ']') :
    readItems item (n + 1) true ⟨x :: xs, p⟩ = readItemsFrom item n ⟨x :: xs, p⟩ := by
  rw [readItems, Cursor.skipBlanks_cons hb]
  split
  · next h => cases h
  · next h => exact absurd (List.cons.inj h).1 hx
  · rfl

/-- An item behind a comma. -/
theorem readItems_comma (n : Nat) {x : Char} {xs : List Char} {p : Position}
    (hb : Cursor.isBlank x = false) (hx : x ≠ ']') :
    readItems item (n + 1) false ⟨',' :: x :: xs, p⟩
      = readItemsFrom item n ⟨x :: xs, p.past ','⟩ := by
  rw [readItems, Cursor.skipBlanks_cons (by decide)]
  simp only [Bool.false_eq_true, if_false, Cursor.skip_cons, Cursor.skipBlanks_cons hb]
  split
  · next h => cases h
  · next h => exact absurd (List.cons.inj h).1 (by decide)
  · next h =>
    cases h
    rw [if_pos rfl]
    split
    · next h => cases h
    · next h => exact absurd (List.cons.inj h).1 hx
    · rfl

/-- Items that read back, the first of them behind whatever introduces it. -/
theorem readItemsFrom_takes {v : Value} {items : List Value} {rest : List Char} {n : Nat}
    (hv : item.Takes v v.chars (Value.itemChars items ++ ']' :: rest))
    (hitems : Reader.Takes (readItems item n false) items (Value.itemChars items ++ [']']) rest) :
    Reader.Takes (readItemsFrom item n) (v :: items)
      (v.chars ++ Value.itemChars items ++ [']']) rest := by
  intro p
  obtain ⟨p₁, h₁⟩ := hv p
  obtain ⟨p₂, h₂⟩ := hitems p₁
  refine ⟨p₂, ?_⟩
  simp only [List.append_assoc, List.singleton_append] at h₂ ⊢
  rw [readItemsFrom, h₁]
  show readItems item n false ⟨Value.itemChars items ++ ']' :: rest, p₁⟩ >>= _ = _
  rw [h₂]
  rfl

/-- All items behind the first. -/
theorem readItems_takes {items : List Value}
    (h : ∀ v ∈ items, ∀ rest, Stops rest → item.Takes v v.chars rest) {n : Nat}
    (hn : items.length < n) (rest : List Char) :
    Reader.Takes (readItems item n false) items (Value.itemChars items ++ [']']) rest := by
  induction items generalizing n with
  | nil =>
    cases n with
    | zero => cases hn
    | succ n => exact fun p => ⟨_, rfl⟩
  | cons v items ih =>
    cases n with
    | zero => cases hn
    | succ n =>
      rw [List.forall_mem_cons] at h
      obtain ⟨x, xs, hcs, hb, hx⟩ := v.exists_chars_eq
      intro p
      obtain ⟨p', hp'⟩ := readItemsFrom_takes (h.1 _ (stops_itemChars items rest))
        (ih h.2 (Nat.lt_of_succ_lt_succ hn)) (p.past ',')
      refine ⟨p', ?_⟩
      rw [← hp', Value.itemChars, hcs]
      exact readItems_comma n hb hx

/-- The items of a list behind its bracket. -/
theorem readItems_takes_all {v : Value} {items : List Value}
    (h : ∀ w ∈ v :: items, ∀ rest, Stops rest → item.Takes w w.chars rest) {n : Nat}
    (hn : items.length < n) (rest : List Char) :
    Reader.Takes (readItems item (n + 1) true) (v :: items)
      (v.chars ++ Value.itemChars items ++ [']']) rest := by
  rw [List.forall_mem_cons] at h
  obtain ⟨x, xs, hcs, hb, hx⟩ := v.exists_chars_eq
  intro p
  obtain ⟨p', hp'⟩ := readItemsFrom_takes (h.1 _ (stops_itemChars items rest))
    (readItems_takes h.2 hn rest) p
  refine ⟨p', ?_⟩
  rw [← hp', hcs]
  exact readItems_first n hb hx

end Items

/-! ## Objects

The same for members, each from its opening quote. -/

section Members

variable {item : Reader Value}

/-- One member, from its opening quote, and those behind it. -/
def readMembersFrom (item : Reader Value) (n : Nat) : Reader (List (String × Value)) := fun c =>
  readString c.skip >>= fun r => readColon r.2 >>= fun c => item c >>= fun r' =>
    readMembers item n false r'.2 >>= fun r'' => .ok ((r.1, r'.1) :: r''.1, r''.2)

/-- One member and the rest. -/
theorem readMembersFrom_takes (name : String) {v : Value} {members : Object} {rest : List Char}
    {n : Nat} (hv : item.Takes v v.chars (Value.memberChars members ++ '\x7d' :: rest))
    (hmembers : Reader.Takes (readMembers item n false) members
      (Value.memberChars members ++ ['\x7d']) rest) :
    Reader.Takes (readMembersFrom item n) ((name, v) :: members)
      (quoted name ++ ':' :: v.chars ++ Value.memberChars members ++ ['\x7d']) rest := by
  intro p
  obtain ⟨p₁, h₁⟩ := readString_takes name
    (':' :: (v.chars ++ (Value.memberChars members ++ '\x7d' :: rest))) (p.past '"')
  obtain ⟨p₂, h₂⟩ := hv (p₁.past ':')
  obtain ⟨p₃, h₃⟩ := hmembers p₂
  refine ⟨p₃, ?_⟩
  simp only [quoted, List.append_assoc, List.cons_append, List.nil_append] at h₁ h₃ ⊢
  rw [readMembersFrom, Cursor.skip_cons, h₁]
  show item ⟨v.chars ++ (Value.memberChars members ++ '\x7d' :: rest), p₁.past ':'⟩ >>= _ = _
  rw [h₂]
  show readMembers item n false ⟨Value.memberChars members ++ '\x7d' :: rest, p₂⟩ >>= _ = _
  rw [h₃]
  rfl

/-- All members behind the first. -/
theorem readMembers_takes {members : Object}
    (h : ∀ e ∈ members, ∀ rest, Stops rest → item.Takes e.2 e.2.chars rest) {n : Nat}
    (hn : members.length < n) (rest : List Char) :
    Reader.Takes (readMembers item n false) members
      (Value.memberChars members ++ ['\x7d']) rest := by
  induction members generalizing n with
  | nil =>
    cases n with
    | zero => cases hn
    | succ n => exact fun p => ⟨_, rfl⟩
  | cons e members ih =>
    obtain ⟨name, v⟩ := e
    cases n with
    | zero => cases hn
    | succ n =>
      rw [List.forall_mem_cons] at h
      intro p
      obtain ⟨p', hp'⟩ := readMembersFrom_takes name (h.1 _ (stops_memberChars members rest))
        (ih h.2 (Nat.lt_of_succ_lt_succ hn)) (p.past ',')
      exact ⟨p', hp'⟩

/-- The members of an object behind its brace. -/
theorem readMembers_takes_all {name : String} {v : Value} {members : Object}
    (h : ∀ e ∈ (name, v) :: members, ∀ rest, Stops rest → item.Takes e.2 e.2.chars rest) {n : Nat}
    (hn : members.length < n) (rest : List Char) :
    Reader.Takes (readMembers item (n + 1) true) ((name, v) :: members)
      (quoted name ++ ':' :: v.chars ++ Value.memberChars members ++ ['\x7d']) rest := by
  rw [List.forall_mem_cons] at h
  intro p
  obtain ⟨p', hp'⟩ := readMembersFrom_takes name (h.1 _ (stops_memberChars members rest))
    (readMembers_takes h.2 hn rest) p
  exact ⟨p', hp'⟩

end Members

/-! ## Values

The count that the reader of a container starts with is the length of what is left, and there are
fewer items than characters. -/

/-- Each item takes up some text. -/
theorem length_le_length_itemChars (items : List Value) :
    items.length ≤ (Value.itemChars items).length := by
  induction items with
  | nil => exact Nat.le_refl 0
  | cons v items ih =>
    rw [Value.itemChars, List.length_cons, List.length_append, List.length_cons]
    omega

theorem length_le_length_memberChars (members : Object) :
    members.length ≤ (Value.memberChars members).length := by
  induction members with
  | nil => exact Nat.le_refl 0
  | cons e members ih =>
    rw [Value.memberChars, List.length_append, List.length_append, List.length_cons,
      List.length_cons]
    omega

theorem readContainer_bracket (item : Reader Value) (cs : List Char) (p : Position) :
    readContainer item ⟨'[' :: cs, p⟩
      = readItems item (cs.length + 1 + 1) true ⟨cs, p.past '['⟩ >>= fun r =>
        .ok (.array r.1, r.2) :=
  rfl

theorem readContainer_brace (item : Reader Value) (cs : List Char) (p : Position) :
    readContainer item ⟨'\x7b' :: cs, p⟩
      = readMembers item (cs.length + 1 + 1) true ⟨cs, p.past '\x7b'⟩ >>= fun r =>
        .ok (.object (Members.ofList r.1), r.2) :=
  rfl

/-! ## Containers and what is in them

The induction is over `Legible`, so the depth goes down with the nesting of the value. -/

/-- A list reads back if its items do. -/
theorem readContainer_takes_array {item : Reader Value} {items : List Value}
    (h : ∀ v ∈ items, ∀ rest, Stops rest → item.Takes v v.chars rest) (rest : List Char) :
    Reader.Takes (readContainer item) (.array items) (Value.array items).chars rest := by
  intro p
  cases items with
  | nil => exact ⟨_, rfl⟩
  | cons v items =>
    have hlen := length_le_length_itemChars items
    have hfuel : items.length < (v.chars ++ Value.itemChars items ++ [']'] ++ rest).length + 1 := by
      simp only [List.length_append]
      omega
    obtain ⟨p', hp'⟩ := readItems_takes_all h hfuel rest (p.past '[')
    refine ⟨p', ?_⟩
    rw [Value.chars, List.cons_append, List.cons_append, List.cons_append,
      readContainer_bracket, hp']
    rfl

/-- An object reads back if its values do and it repeats no name. -/
theorem readContainer_takes_object {item : Reader Value} {members : Object}
    (hn : members.names.Nodup)
    (h : ∀ e ∈ members, ∀ rest, Stops rest → item.Takes e.2 e.2.chars rest) (rest : List Char) :
    Reader.Takes (readContainer item) (.object members) (Value.object members).chars rest := by
  intro p
  cases members with
  | nil => exact ⟨_, rfl⟩
  | cons e members =>
    obtain ⟨name, v⟩ := e
    have hlen := length_le_length_memberChars members
    have hfuel : members.length < (quoted name ++ ':' :: v.chars ++ Value.memberChars members ++
        ['\x7d'] ++ rest).length + 1 := by
      simp only [List.length_append]
      omega
    obtain ⟨p', hp'⟩ := readMembers_takes_all h hfuel rest (p.past '\x7b')
    refine ⟨p', ?_⟩
    rw [Value.chars, List.cons_append, List.cons_append, List.cons_append, List.cons_append,
      readContainer_brace, hp']
    show Except.ok (Value.object (Members.ofList ((name, v) :: members)), _) = _
    rw [Members.ofList_of_nodup hn]

theorem exists_readValue_eq (d : Nat) : ∃ container, readValue d = readValueWith container := by
  cases d <;> exact ⟨_, rfl⟩

/-- **A legible value reads back wherever it stands.** -/
theorem readValue_takes {d : Nat} {v : Value} (h : Value.Legible d v) :
    ∀ rest, Stops rest → Reader.Takes (readValue d) v v.chars rest := by
  -- The induction is on why the value is legible; what stands behind it is up to the container.
  induction h with
  | null d =>
    intro rest _ p
    obtain ⟨container, hd⟩ := exists_readValue_eq d
    rw [hd]
    exact ⟨_, rfl⟩
  | bool d b =>
    intro rest _ p
    obtain ⟨container, hd⟩ := exists_readValue_eq d
    rw [hd]
    cases b <;> exact ⟨_, rfl⟩
  | string d s =>
    intro rest _ p
    obtain ⟨container, hd⟩ := exists_readValue_eq d
    obtain ⟨p', hp'⟩ := readString_takes s rest (p.past '"')
    refine ⟨p', ?_⟩
    rw [hd]
    show readString ⟨escape s.toList ++ ['"'] ++ rest, p.past '"'⟩ >>= _ = _
    rw [hp']
    rfl
  | @number d n hn hb =>
    intro rest hrest p
    obtain ⟨container, hd⟩ := exists_readValue_eq d
    obtain ⟨x, xs, htext, hx⟩ := n.exists_text_eq
    obtain ⟨p', hp'⟩ := readNumber_takes hn hb hrest p
    refine ⟨p', ?_⟩
    rw [htext] at hp'
    rw [hd, Value.chars, htext, List.cons_append, readValueWith_number container hx]
    show readNumber ⟨x :: xs ++ rest, p⟩ >>= _ = _
    rw [hp']
    rfl
  | @array d items h ih =>
    intro rest _ p
    obtain ⟨p', hp'⟩ := readContainer_takes_array ih rest p
    refine ⟨p', ?_⟩
    rw [← hp']
    cases items <;> rfl
  | @object d members hn h ih =>
    intro rest _ p
    obtain ⟨p', hp'⟩ := readContainer_takes_object hn ih rest p
    refine ⟨p', ?_⟩
    rw [← hp']
    cases members <;> rfl

/-- **The compact text of a legible value reads back as the value.** -/
theorem parse_compact {v : Value} (h : Value.Legible maxDepth v) : parse v.compact = .ok v := by
  obtain ⟨p', hp'⟩ := readValue_takes h [] (by simp [Stops]) ⟨1, 0⟩
  rw [List.append_nil] at hp'
  rw [parse, Value.compact, Cursor.ofText, String.toList_ofList, hp']
  rfl

end Json
end RemoteModels
