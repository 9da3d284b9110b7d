import ShaderGraph.Proofs.Json.Value

/-!
# Records come back from their written form

A record is written as an object whose members are its fields, in an order of
the writer's own and without those that have their default. `Fills` follows the
members one by one: each is a field that has not come before, and its text is read
into the record. A list of members that fills the blank record up to `x` is a
written form of `x` (`reads_record`).

The other direction is an invariant. What holds of the blank record and is kept by
every field holds of every record that was read, from an object or from a list
(`record_forall`).
-/

namespace ShaderGraph.Json

variable {α : Type}

/-! ## Reading what was written -/

/-- The members fill a record up to `final`, where fields with the names `seen` have
been read before. -/
inductive Fills (fields : List (Field α)) (nesting : Nat) :
    (seen : List String) → α → List (String × List Char) → (final : α) → Prop
  /-- All required fields have come. -/
  | done {seen : List String} {x : α} :
      (∀ field ∈ fields, field.required = true → field.name ∈ seen) →
      Fills fields nesting seen x [] x
  | next {seen : List String} {x x' final : α} {name : String} {cs : List Char}
      {members : List (String × List Char)} {field : Field α} :
      fields.find? (·.name == name) = some field → name ∉ seen →
      Reads (field.store x) nesting x' cs → Fills fields nesting (name :: seen) x' members final →
      Fills fields nesting seen x ((name, cs) :: members) final

/-- Fewer names may count as seen, as long as required ones stay. -/
theorem Fills.forget {fields : List (Field α)} {nesting : Nat} {seen : List String} {x final : α}
    {members : List (String × List Char)} (h : Fills fields nesting seen x members final) :
    ∀ {seen' : List String}, seen' ⊆ seen →
      (∀ field ∈ fields, field.required = true → field.name ∈ seen → field.name ∈ seen') →
      Fills fields nesting seen' x members final := by
  induction h with
  | done hrequired =>
    intro seen' _ hkept
    exact .done fun field hfield hreq => hkept field hfield hreq (hrequired field hfield hreq)
  | @next seen x x' final name cs members field hfield hnew hread _ ih =>
    intro seen' hsub hkept
    refine .next hfield (fun hmem => hnew (hsub hmem)) hread ?_
    refine ih (List.cons_subset_cons name hsub) ?_
    intro other hother hreq hmem
    rcases List.mem_cons.mp hmem with heq | hmem
    · exact heq ▸ List.mem_cons_self
    · exact List.mem_cons_of_mem _ (hkept other hother hreq hmem)

/-- A field that is not required may be left out if the record has its value
already. -/
theorem Fills.part {fields : List (Field α)} {nesting : Nat} {seen : List String} {x final : α}
    {part members : List (String × List Char)} {field : Field α} (name : String) (x' : α)
    (hfield : fields.find? (·.name == name) = some field) (hnew : name ∉ seen)
    (hoptional : ∀ field ∈ fields, field.required = true → field.name ≠ name)
    (hpart : part = [] ∧ x' = x ∨ ∃ cs, part = [(name, cs)] ∧ Reads (field.store x) nesting x' cs)
    (hmore : Fills fields nesting (name :: seen) x' members final) :
    Fills fields nesting seen x (part ++ members) final := by
  rcases hpart with ⟨rfl, rfl⟩ | ⟨cs, rfl, hread⟩
  · refine hmore.forget (List.subset_cons_self name seen) ?_
    intro other hother hreq hmem
    exact (List.mem_cons.mp hmem).resolve_left (hoptional other hother hreq)
  · exact .next hfield hnew hread hmore

theorem Reads.field {β : Type} {reader : Reader β} {nesting : Nat} {v : β} {cs : List Char}
    (h : Reads reader nesting v cs) (name : String) (required : Bool) (set : α → β → α) (x : α) :
    Reads ((Field.of name required reader set).store x) nesting (set x v) cs := by
  refine ⟨h.starts, ?_⟩
  intro budget depth rest hbudget hdepth hrest
  show (reader budget depth (cs ++ rest)).map _ = _
  rw [h.reads budget depth rest hbudget hdepth hrest]
  rfl

section Named

variable {fields : List (Field α)} {nesting budget depth : Nat} {seen : List String} {x final : α}
  {members : List (String × List Char)}

theorem readNamed_end (h : ∀ field ∈ fields, field.required = true → field.name ∈ seen)
    (count : Nat) (first : Bool) (rest : List Char) :
    readNamed fields budget depth (count + 1) first seen x ('}' :: rest) = .ok (x, rest) := by
  have hnone : fields.find? (fun field => field.required && !seen.contains field.name) = none := by
    rw [List.find?_eq_none]
    intro field hfield
    simp only [Bool.and_eq_true, Bool.not_eq_true', List.contains_eq_mem, decide_eq_false_iff_not]
    rintro ⟨hrequired, hnot⟩
    exact hnot (h field hfield hrequired)
  rw [readNamed, nextName_end]
  simp only [bind, Except.bind, hnone, Bool.false_eq_true, if_false]
  rfl

/-- One member is read into the record, and reading goes on behind it. -/
theorem readNamed_member {name : String} {cs : List Char} {field : Field α} {x' : α} {first : Bool}
    {text rest : List Char} {count : Nat}
    (hnext : nextName first text = .ok (true, name.toList.flatMap escapeChar ++
      '"' :: ':' :: (cs ++ rest)))
    (hfield : fields.find? (·.name == name) = some field) (hnew : name ∉ seen)
    (hstore : field.store x budget depth (cs ++ rest) = .ok (x', rest)) :
    readNamed fields budget depth (count + 1) first seen x text
      = readNamed fields budget depth count false (name :: seen) x' rest := by
  have hseen : seen.contains name = false := by simpa using hnew
  rw [readNamed, hnext]
  simp only [bind, Except.bind, if_true, readText_quoted, hfield, hseen, readColon_colon, hstore,
    Bool.false_eq_true, if_false]

theorem readNamed_more (h : Fills fields nesting seen x members final) (hdepth : nesting ≤ depth)
    (rest : List Char) :
    ∀ count, members.length < count → (∀ m ∈ members, m.2.length ≤ budget) →
      readNamed fields budget depth count false seen x
        ((members.map memberChars).flatMap (',' :: ·) ++ '}' :: rest) = .ok (final, rest) := by
  induction h with
  | done hrequired =>
    intro count hcount _
    obtain ⟨count, rfl⟩ : ∃ k, count = k + 1 := ⟨count - 1, by omega⟩
    exact readNamed_end hrequired count false rest
  | @next seen x x' final name cs members field hfield hnew hread _ ih =>
    intro count hcount hlengths
    obtain ⟨count, rfl⟩ : ∃ k, count = k + 1 := ⟨count - 1, by omega⟩
    rw [List.forall_mem_cons] at hlengths
    have hstore := hread.reads budget depth _ hlengths.1 hdepth (ends_members members rest)
    rw [List.map_cons, List.flatMap_cons, List.append_assoc, List.cons_append, memberChars_append,
      readNamed_member (nextName_comma _) hfield hnew hstore]
    exact ih count (Nat.lt_of_succ_lt_succ hcount) hlengths.2

/-- Members that fill a record are read into it. -/
theorem readNamed_commaJoin (h : Fills fields nesting seen x members final)
    (hdepth : nesting ≤ depth) (rest : List Char) {count : Nat}
    (hcount : members.length < count)
    (hlengths : ∀ m ∈ members, m.2.length ≤ budget) :
    readNamed fields budget depth count true seen x
      (commaJoin (members.map memberChars) ++ '}' :: rest) = .ok (final, rest) := by
  obtain ⟨count, rfl⟩ : ∃ k, count = k + 1 := ⟨count - 1, by omega⟩
  cases h with
  | done hrequired => exact readNamed_end hrequired count true rest
  | @next _ _ x' _ name cs members field hfield hnew hread hmembers =>
    rw [List.forall_mem_cons] at hlengths
    have hstore := hread.reads budget depth _ hlengths.1 hdepth (ends_members members rest)
    rw [List.map_cons, commaJoin_cons, List.append_assoc, memberChars_append,
      readNamed_member (nextName_first _) hfield hnew hstore]
    exact readNamed_more hmembers hdepth rest count (Nat.lt_of_succ_lt_succ hcount) hlengths.2

end Named

/-- Members that fill the blank record are a written form of what they make of it. -/
theorem reads_record {s : Schema α} {nesting : Nat} {x : α} {members : List (String × List Char)}
    (h : Fills s.fields nesting [] s.blank members x) :
    Reads (record s) (nesting + 1) x (objectChars members) := by
  refine ⟨starts_objectChars members, ?_⟩
  intro budget depth rest hbudget hdepth _
  obtain ⟨depth, rfl⟩ : ∃ k, depth = k + 1 := ⟨depth - 1, by omega⟩
  have hlengths : ∀ m ∈ members, m.2.length ≤ budget := by
    intro m hm
    exact (length_le_objectChars hm).trans hbudget
  have hnamed := readNamed_commaJoin h (Nat.le_of_succ_le_succ hdepth) rest
    ((length_lt_objectChars members).trans_le hbudget) hlengths
  unfold record
  rw [skipBlanks_of_starts (starts_objectChars members), objectChars_eq]
  simp [hnamed]

/-! ## Records that were read -/

section Invariant

variable {P : α → Prop} {fields : List (Field α)} {budget depth : Nat}

/-- Reading any of the fields keeps a property of records. -/
def Keeps (P : α → Prop) (fields : List (Field α)) (budget depth : Nat) : Prop :=
  ∀ field ∈ fields, ∀ x cs x' rest, P x → field.store x budget depth cs = .ok (x', rest) → P x'

theorem Keeps.nil : Keeps P [] budget depth := by
  intro field hfield
  cases hfield

/-- A field keeps a property that setting it to any value that can be read keeps. -/
theorem Keeps.field {β : Type} {name : String} {required : Bool} {reader : Reader β}
    {set : α → β → α}
    (hset : ∀ x v cs rest, P x → reader budget depth cs = .ok (v, rest) → P (set x v))
    (hmore : Keeps P fields budget depth) :
    Keeps P (Field.of name required reader set :: fields) budget depth := by
  intro field hfield x cs x' rest hx hstore
  rcases List.mem_cons.mp hfield with rfl | hfield
  · obtain ⟨⟨v, rest'⟩, hread, heq⟩ := map_eq_ok.mp hstore
    cases heq
    exact hset x v cs rest' hx hread
  · exact hmore field hfield x cs x' rest hx hstore

theorem Keeps.readPositional (hkeeps : Keeps P fields budget depth) {title : String} :
    ∀ {index : Nat} {first : Bool} {x x' : α} {cs rest : List Char}, P x →
      readPositional title budget depth fields index first x cs = .ok (x', rest) → P x' := by
  induction fields with
  | nil =>
    intro index first x x' cs rest hx h
    obtain ⟨_, _, h⟩ := map_eq_ok.mp h
    cases h
    exact hx
  | cons field fields ih =>
    intro index first x x' cs rest hx h
    rw [Keeps, List.forall_mem_cons] at hkeeps
    rw [Json.readPositional] at h
    obtain ⟨⟨more, cs1⟩, _, h⟩ := bind_eq_ok.mp h
    cases more with
    | true =>
      obtain ⟨⟨x1, cs2⟩, hstore, h⟩ := bind_eq_ok.mp h
      exact ih hkeeps.2 (hkeeps.1 _ _ _ _ hx hstore) h
    | false =>
      simp only [Bool.false_eq_true, if_false] at h
      split at h
      · cases h
      · exact ih hkeeps.2 hx h

theorem Keeps.readNamed (hkeeps : Keeps P fields budget depth) {count : Nat} :
    ∀ {first : Bool} {seen : List String} {x x' : α} {cs rest : List Char}, P x →
      readNamed fields budget depth count first seen x cs = .ok (x', rest) → P x' := by
  induction count with
  | zero =>
    intro first seen x x' cs rest _ h
    cases h
  | succ count ih =>
    intro first seen x x' cs rest hx h
    rw [Json.readNamed] at h
    obtain ⟨⟨more, cs1⟩, _, h⟩ := bind_eq_ok.mp h
    cases more with
    | false =>
      simp only [Bool.false_eq_true, if_false] at h
      split at h
      · cases h
      · cases h
        exact hx
    | true =>
      obtain ⟨⟨name, cs2⟩, _, h⟩ := bind_eq_ok.mp h
      simp only at h
      split at h
      · obtain ⟨cs3, _, h⟩ := bind_eq_ok.mp h
        obtain ⟨cs4, _, h⟩ := bind_eq_ok.mp h
        exact ih hx h
      · next field hfield =>
        split at h
        · cases h
        · obtain ⟨cs3, _, h⟩ := bind_eq_ok.mp h
          obtain ⟨⟨x1, cs4⟩, hstore, h⟩ := bind_eq_ok.mp h
          exact ih (hkeeps field (List.mem_of_find?_eq_some hfield) _ _ _ _ hx hstore) h

end Invariant

/-- What holds of the blank record and is kept by every field holds of the record
that is read. -/
theorem record_forall {P : α → Prop} {s : Schema α} {budget depth : Nat} {cs rest : List Char}
    {x : α} (hblank : P s.blank) (hkeeps : Keeps P s.fields budget depth)
    (h : record s budget (depth + 1) cs = .ok (x, rest)) : P x := by
  unfold record at h
  split at h
  · next heq => cases heq
  · next heq => cases heq
  · next heq =>
    cases heq
    exact hkeeps.readPositional hblank h
  · next heq =>
    cases heq
    exact hkeeps.readNamed hblank h
  · cases h

end ShaderGraph.Json
