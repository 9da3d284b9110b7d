import Mathlib.Data.List.Forall2
import ShaderGraph.Json.Record
import ShaderGraph.Proofs.Json.Scalar
import ShaderGraph.Proofs.Outcome

/-!
# Values come back from their written form

`Reads` says that a reader takes a text for a value and stops where the text
ends. It holds of texts, and it passes from items to lists and from members to
dictionaries. For values two conditions are left:

* **numbers** — the value holds whole numbers only (`Value.Integral`), since
  doubles do not all come back;
* **shape** — it is nested no deeper than the reader follows, and the members of
  its objects are in order (`Value.Fits`).

The second is what every value has that was read (`fits_of_readValue`), and with
both a value is read back (`reads_value`).
-/

namespace ShaderGraph.Json

/-! ## Reading what was written -/

/-- A written value starts with a character that is neither blank nor the end of a
list. -/
def Starts (cs : List Char) : Prop :=
  ∃ c tail, cs = c :: tail ∧ isJsonBlank c = false ∧ c ≠ ']'

/-- The reader takes the text `cs` for `x`, whatever stands after it, if at least
`nesting` brackets may be opened. -/
structure Reads {α : Type} (reader : Reader α) (nesting : Nat) (x : α) (cs : List Char) :
    Prop where
  starts : Starts cs
  reads : ∀ budget depth rest, cs.length ≤ budget → nesting ≤ depth → Ends rest →
    reader budget depth (cs ++ rest) = .ok (x, rest)

theorem Reads.mono {α : Type} {reader : Reader α} {nesting nesting' : Nat} {x : α}
    {cs : List Char} (h : Reads reader nesting x cs) (hle : nesting ≤ nesting') :
    Reads reader nesting' x cs :=
  ⟨h.starts, fun budget depth rest hbudget hdepth hrest =>
    h.reads budget depth rest hbudget (hle.trans hdepth) hrest⟩

theorem skipBlanks_of_starts {cs : List Char} (h : Starts cs) (rest : List Char) :
    skipBlanks (cs ++ rest) = cs ++ rest := by
  obtain ⟨c, tail, rfl, hblank, _⟩ := h
  simp [skipBlanks, hblank]

theorem skipBlanks_cons {c : Char} (h : isJsonBlank c = false) (cs : List Char) :
    skipBlanks (c :: cs) = c :: cs := by
  simp [skipBlanks, h]

theorem starts_stringChars (s : String) : Starts (stringChars s) :=
  ⟨'"', _, rfl, by decide, by decide⟩

theorem starts_objectChars (members : List (String × List Char)) : Starts (objectChars members) :=
  ⟨'{', _, rfl, by decide, by decide⟩

theorem starts_arrayChars (items : List (List Char)) : Starts (arrayChars items) :=
  ⟨'[', _, rfl, by decide, by decide⟩

/-- A whole text that a reader takes for `x` is a document of `x`. -/
theorem readDocument_of_reads {α : Type} {reader : Reader α} {x : α} {cs : List Char}
    (h : Reads reader depthLimit x cs) : readDocument reader (String.ofList cs) = .ok x := by
  have hread := h.reads (cs.length + 1) depthLimit [] (Nat.le_succ _) le_rfl (by simp [Ends])
  rw [List.append_nil] at hread
  unfold readDocument
  simp only [String.toList_ofList, hread]
  rfl

theorem reads_string (s : String) : Reads string 0 s (stringChars s) := by
  refine ⟨starts_stringChars s, ?_⟩
  intro budget depth rest _ _ _
  unfold string
  rw [skipBlanks_of_starts (starts_stringChars s)]
  simpa [stringChars] using readText_quoted s rest

/-- A value that may be null is read as the value if it does not look like null. -/
theorem Reads.optional {α : Type} {reader : Reader α} {nesting : Nat} {x : α} {cs : List Char}
    (h : Reads reader nesting x cs) (hnull : cs.head? ≠ some 'n') :
    Reads (optional reader) nesting (some x) cs := by
  refine ⟨h.starts, ?_⟩
  intro budget depth rest hbudget hdepth hrest
  have hread := h.reads budget depth rest hbudget hdepth hrest
  unfold Json.optional
  rw [skipBlanks_of_starts h.starts]
  obtain ⟨c, tail, rfl, _, _⟩ := h.starts
  split
  · next heq =>
    cases heq
    exact absurd rfl hnull
  · rw [hread]
    rfl

/-! ## Lists -/

/-- A joined list is its first item and then the others, each after a comma. -/
theorem commaJoin_cons (cs : List Char) (css : List (List Char)) :
    commaJoin (cs :: css) = cs ++ css.flatMap (',' :: ·) := by
  induction css generalizing cs with
  | nil => simp [commaJoin]
  | cons ds css ih => rw [commaJoin, ih, List.flatMap_cons, List.cons_append]

theorem length_le_commaJoin {cs : List Char} {css : List (List Char)} (h : cs ∈ css) :
    cs.length ≤ (commaJoin css).length := by
  induction css with
  | nil => cases h
  | cons ds css ih =>
    rcases List.mem_cons.mp h with rfl | h
    · rw [commaJoin_cons, List.length_append]
      omega
    · have hle := ih h
      cases css with
      | nil => cases h
      | cons es css =>
        rw [commaJoin, List.length_append, List.length_cons]
        omega

/-- There are fewer items than characters in the brackets and commas around them. -/
theorem length_lt_commaJoin (css : List (List Char)) :
    css.length < (commaJoin css).length + 2 := by
  induction css with
  | nil => decide
  | cons cs css ih =>
    cases css with
    | nil =>
      simp only [List.length_cons, List.length_nil]
      omega
    | cons ds css =>
      rw [commaJoin, List.length_append]
      simp only [List.length_cons] at ih ⊢
      omega

theorem nextItem_first {cs : List Char} (h : Starts cs) (rest : List Char) :
    nextItem true (cs ++ rest) = .ok (true, cs ++ rest) := by
  obtain ⟨c, tail, rfl, hblank, hend⟩ := h
  unfold nextItem
  rw [List.cons_append, skipBlanks_cons hblank]
  split
  · next heq => cases heq
  · next heq =>
    cases heq
    exact absurd rfl hend
  · next heq => rw [heq, if_pos rfl]
  · rfl

theorem nextItem_comma {cs : List Char} (h : Starts cs) (rest : List Char) :
    nextItem false (',' :: (cs ++ rest)) = .ok (true, cs ++ rest) := by
  obtain ⟨c, tail, rfl, hblank, hend⟩ := h
  unfold nextItem
  rw [skipBlanks_cons (by decide), List.cons_append]
  simp only [Bool.false_eq_true, if_false]
  rw [skipBlanks_cons hblank]
  split
  · next heq => cases heq
  · next heq =>
    cases heq
    exact absurd rfl hend
  · rfl

section Items

variable {α : Type} {item : List Char → Except Failure (α × List Char)}

/-- An item as it stands in a list: its text is read back, whatever follows. -/
def ReadsItem (item : List Char → Except Failure (α × List Char)) (x : α) (cs : List Char) : Prop :=
  Starts cs ∧ ∀ rest, Ends rest → item (cs ++ rest) = .ok (x, rest)

-- what stands after an item: a comma with the next one, or the end of the list
private theorem ends_items (css : List (List Char)) (rest : List Char) :
    Ends (css.flatMap (',' :: ·) ++ ']' :: rest) := by
  cases css with
  | nil => simp [Ends]
  | cons cs css => simp [Ends]

theorem readItems_end (first : Bool) (count : Nat) (rest : List Char) :
    readItems item (count + 1) first (']' :: rest) = .ok ([], rest) := by
  cases first with
  | false => rfl
  | true => rfl

theorem readItems_more {xs : List α} {css : List (List Char)}
    (h : List.Forall₂ (ReadsItem item) xs css) (rest : List Char) :
    ∀ count, css.length < count →
      readItems item count false (css.flatMap (',' :: ·) ++ ']' :: rest) = .ok (xs, rest) := by
  induction h with
  | nil =>
    intro count hcount
    obtain ⟨count, rfl⟩ : ∃ k, count = k + 1 := ⟨count - 1, by omega⟩
    exact readItems_end false count rest
  | @cons x cs xs css hitem _ ih =>
    intro count hcount
    obtain ⟨count, rfl⟩ : ∃ k, count = k + 1 := ⟨count - 1, by omega⟩
    have hmore := ih count (Nat.lt_of_succ_lt_succ hcount)
    rw [List.flatMap_cons, List.append_assoc, List.cons_append, readItems,
      nextItem_comma hitem.1]
    simp [hitem.2 _ (ends_items css rest), hmore, bind, Except.bind, pure, Except.pure]

/-- The items of a list are read back. -/
theorem readItems_commaJoin {xs : List α} {css : List (List Char)}
    (h : List.Forall₂ (ReadsItem item) xs css) (rest : List Char) {count : Nat}
    (hcount : css.length < count) :
    readItems item count true (commaJoin css ++ ']' :: rest) = .ok (xs, rest) := by
  obtain ⟨count, rfl⟩ : ∃ k, count = k + 1 := ⟨count - 1, by omega⟩
  cases h with
  | nil => exact readItems_end true count rest
  | @cons x cs xs css hitem hitems =>
    have hmore := readItems_more hitems rest count (Nat.lt_of_succ_lt_succ hcount)
    rw [commaJoin_cons, List.append_assoc, readItems, nextItem_first hitem.1]
    simp [hitem.2 _ (ends_items css rest), hmore, bind, Except.bind, pure, Except.pure]

end Items

theorem Reads.item {α : Type} {reader : Reader α} {nesting budget depth : Nat} {x : α}
    {cs : List Char} (h : Reads reader nesting x cs) (hbudget : cs.length ≤ budget)
    (hdepth : nesting ≤ depth) : ReadsItem (reader budget depth) x cs :=
  ⟨h.starts, fun rest hrest => h.reads budget depth rest hbudget hdepth hrest⟩

/-- The items of a written array are read back one by one. -/
theorem readItems_arrayChars {α : Type} {reader : Reader α} {nesting budget depth : Nat}
    {xs : List α} {css : List (List Char)} (h : List.Forall₂ (Reads reader nesting) xs css)
    (hbudget : (arrayChars css).length ≤ budget) (hdepth : nesting ≤ depth) (rest : List Char) :
    readItems (reader budget depth) budget true (commaJoin css ++ ']' :: rest) =
      .ok (xs, rest) := by
  rw [arrayChars, List.length_cons, List.length_append, List.length_singleton] at hbudget
  have hitems : List.Forall₂ (ReadsItem (reader budget depth)) xs css := by
    have hlengths : ∀ cs ∈ css, cs.length ≤ budget := by
      intro cs hcs
      have := length_le_commaJoin hcs
      omega
    clear hbudget
    induction h with
    | nil => exact .nil
    | cons hread _ ih =>
      rw [List.forall_mem_cons] at hlengths
      exact .cons (hread.item hlengths.1 hdepth) (ih hlengths.2)
  have hcount := length_lt_commaJoin css
  exact readItems_commaJoin hitems rest (by omega)

theorem reads_list {α : Type} {reader : Reader α} {nesting : Nat} {xs : List α}
    {css : List (List Char)} (h : List.Forall₂ (Reads reader nesting) xs css) :
    Reads (list reader) (nesting + 1) xs (arrayChars css) := by
  refine ⟨starts_arrayChars css, ?_⟩
  intro budget depth rest hbudget hdepth _
  obtain ⟨depth, rfl⟩ : ∃ k, depth = k + 1 := ⟨depth - 1, by omega⟩
  have hitems := readItems_arrayChars h hbudget (Nat.le_of_succ_le_succ hdepth) rest
  unfold list
  rw [skipBlanks_of_starts (starts_arrayChars css)]
  simpa [arrayChars] using hitems

/-! ## Members -/

/-- The text of a member. -/
def memberChars (m : String × List Char) : List Char := stringChars m.1 ++ ':' :: m.2

theorem objectChars_eq (members : List (String × List Char)) :
    objectChars members = '{' :: (commaJoin (members.map memberChars) ++ ['}']) := rfl

/-- The names and the texts of members take no more room than the object. -/
theorem length_le_objectChars {members : List (String × List Char)} {m : String × List Char}
    (h : m ∈ members) : m.2.length ≤ (objectChars members).length := by
  have hle := length_le_commaJoin (List.mem_map_of_mem (f := memberChars) h)
  rw [objectChars_eq, List.length_cons, List.length_append]
  rw [memberChars, List.length_append, List.length_cons] at hle
  omega

theorem length_lt_objectChars (members : List (String × List Char)) :
    members.length < (objectChars members).length := by
  have hlt := length_lt_commaJoin (members.map memberChars)
  rw [List.length_map] at hlt
  rw [objectChars_eq, List.length_cons, List.length_append, List.length_singleton]
  exact hlt

-- a member starts with the opening quote of its name
theorem memberChars_append (m : String × List Char) (rest : List Char) :
    memberChars m ++ rest =
      '"' :: (m.1.toList.flatMap escapeChar ++ '"' :: ':' :: (m.2 ++ rest)) := by
  simp [memberChars, stringChars]

theorem readColon_colon (cs : List Char) : readColon (':' :: cs) = .ok cs := rfl

theorem nextName_first (cs : List Char) : nextName true ('"' :: cs) = .ok (true, cs) := rfl

theorem nextName_comma (cs : List Char) : nextName false (',' :: '"' :: cs) = .ok (true, cs) := rfl

theorem nextName_end (first : Bool) (rest : List Char) :
    nextName first ('}' :: rest) = .ok (false, rest) := by
  cases first with
  | false => rfl
  | true => rfl

theorem ends_members (members : List (String × List Char)) (rest : List Char) :
    Ends ((members.map memberChars).flatMap (',' :: ·) ++ '}' :: rest) := by
  cases members with
  | nil => simp [Ends]
  | cons m members => simp [Ends]

section Members

variable {α : Type} {value : List Char → Except Failure (α × List Char)}

/-- A member as it stands in an object. -/
def ReadsMember (value : List Char → Except Failure (α × List Char)) (x : String × α)
    (m : String × List Char) : Prop :=
  x.1 = m.1 ∧ ∀ rest, Ends rest → value (m.2 ++ rest) = .ok (x.2, rest)

theorem readMembers_more {xs : List (String × α)} {members : List (String × List Char)}
    (h : List.Forall₂ (ReadsMember value) xs members) (rest : List Char) :
    ∀ count, members.length < count →
      readMembers value count false ((members.map memberChars).flatMap (',' :: ·) ++ '}' :: rest)
        = .ok (xs, rest) := by
  induction h with
  | nil =>
    intro count hcount
    obtain ⟨count, rfl⟩ : ∃ k, count = k + 1 := ⟨count - 1, by omega⟩
    rfl
  | @cons x m xs members hmember _ ih =>
    intro count hcount
    obtain ⟨count, rfl⟩ : ∃ k, count = k + 1 := ⟨count - 1, by omega⟩
    obtain ⟨name, x⟩ := x
    obtain ⟨rfl, hvalue⟩ := hmember
    have hmore := ih count (Nat.lt_of_succ_lt_succ hcount)
    rw [List.map_cons, List.flatMap_cons, List.append_assoc, List.cons_append,
      memberChars_append, readMembers, nextName_comma]
    simp [readText_quoted, readColon_colon, hvalue _ (ends_members members rest), hmore, bind,
      Except.bind, pure, Except.pure]

/-- The members of an object are read back. -/
theorem readMembers_commaJoin {xs : List (String × α)} {members : List (String × List Char)}
    (h : List.Forall₂ (ReadsMember value) xs members) (rest : List Char) {count : Nat}
    (hcount : members.length < count) :
    readMembers value count true (commaJoin (members.map memberChars) ++ '}' :: rest)
      = .ok (xs, rest) := by
  obtain ⟨count, rfl⟩ : ∃ k, count = k + 1 := ⟨count - 1, by omega⟩
  cases h with
  | nil => rfl
  | @cons x m xs members hmember hmembers =>
    obtain ⟨name, x⟩ := x
    obtain ⟨rfl, hvalue⟩ := hmember
    have hmore := readMembers_more hmembers rest count (Nat.lt_of_succ_lt_succ hcount)
    rw [List.map_cons, commaJoin_cons, List.append_assoc, memberChars_append, readMembers,
      nextName_first]
    simp [readText_quoted, readColon_colon, hvalue _ (ends_members members rest), hmore, bind,
      Except.bind, pure, Except.pure]

end Members

/-- Members with the same names whose texts are read back. -/
def ReadsEach {α : Type} (reader : Reader α) (nesting : Nat) :
    List (String × α) → List (String × List Char) → Prop :=
  List.Forall₂ fun x m => x.1 = m.1 ∧ Reads reader nesting x.2 m.2

/-- The members of a written object are read back one by one. -/
theorem readMembers_objectChars {α : Type} {reader : Reader α} {nesting budget depth : Nat}
    {xs : List (String × α)} {members : List (String × List Char)}
    (h : ReadsEach reader nesting xs members) (hbudget : (objectChars members).length ≤ budget)
    (hdepth : nesting ≤ depth) (rest : List Char) :
    readMembers (reader budget depth) budget true
      (commaJoin (members.map memberChars) ++ '}' :: rest) = .ok (xs, rest) := by
  have hmembers : List.Forall₂ (ReadsMember (reader budget depth)) xs members := by
    have hlengths : ∀ m ∈ members, m.2.length ≤ budget := by
      intro m hm
      exact (length_le_objectChars hm).trans hbudget
    clear hbudget
    induction h with
    | nil => exact .nil
    | cons hread _ ih =>
      rw [List.forall_mem_cons] at hlengths
      exact .cons ⟨hread.1, (hread.2.item hlengths.1 hdepth).2⟩ (ih hlengths.2)
  exact readMembers_commaJoin hmembers rest ((length_lt_objectChars members).trans_le hbudget)

theorem reads_dict {α : Type} {reader : Reader α} {nesting : Nat} {d : Dict α}
    {members : List (String × List Char)} (h : ReadsEach reader nesting d.entries members) :
    Reads (dict reader) (nesting + 1) d (objectChars members) := by
  refine ⟨starts_objectChars members, ?_⟩
  intro budget depth rest hbudget hdepth _
  obtain ⟨depth, rfl⟩ : ∃ k, depth = k + 1 := ⟨depth - 1, by omega⟩
  have hmembers := readMembers_objectChars h hbudget (Nat.le_of_succ_le_succ hdepth) rest
  unfold dict
  rw [skipBlanks_of_starts (starts_objectChars members), objectChars_eq]
  simp [hmembers, Except.map, Dict.ofList_entries]

/-! ## Values -/

/-- A value without numbers other than whole ones. -/
inductive Value.Integral : Value → Prop
  | null : Integral .null
  | bool (b : Bool) : Integral (.bool b)
  | integer (n : Int) (h : -Int.pow 2 63 ≤ n ∧ n < Int.pow 2 64) :
      Integral (.number (.integer n h))
  | string (s : String) : Integral (.string s)
  | array {items : List Value} : (∀ v ∈ items, Integral v) → Integral (.array items)
  | object {members : List (String × Value)} : (∀ m ∈ members, Integral m.2) →
      Integral (.object members)

/-- A value in which at most `depth` brackets are open at a time, and in which the
members of objects are in order. -/
inductive Value.Fits : (depth : Nat) → Value → Prop
  | null {depth : Nat} : Fits depth .null
  | bool {depth : Nat} (b : Bool) : Fits depth (.bool b)
  | number {depth : Nat} (n : Number) : Fits depth (.number n)
  | string {depth : Nat} (s : String) : Fits depth (.string s)
  | array {depth : Nat} {items : List Value} : (∀ v ∈ items, Fits depth v) →
      Fits (depth + 1) (.array items)
  | object {depth : Nat} {members : List (String × Value)} : KeysSorted members →
      (∀ m ∈ members, Fits depth m.2) → Fits (depth + 1) (.object members)

theorem itemsChars_eq (items : List Value) : itemsChars items = items.map Value.chars := by
  induction items with
  | nil => rfl
  | cons v items ih => rw [itemsChars, ih, List.map_cons]

theorem membersChars_eq (members : List (String × Value)) :
    membersChars members = members.map fun m => (m.1, m.2.chars) := by
  induction members with
  | nil => rfl
  | cons m members ih => rw [membersChars, ih, List.map_cons]

theorem readValue_of_scalar {c : Char} (hblank : isJsonBlank c = false) (hlist : c ≠ '[')
    (hobject : c ≠ '{') (budget depth : Nat) (cs : List Char) :
    readValue budget depth (c :: cs) = readScalar (c :: cs) := by
  cases depth with
  | zero => simp [readValue, skipBlanks_cons hblank, hlist, hobject]
  | succ depth => simp [readValue, skipBlanks_cons hblank, hlist, hobject]

/-- A scalar value is read back if its text is. -/
theorem reads_scalar {v : Value} {nesting : Nat} {c : Char} {tail : List Char}
    (hblank : isJsonBlank c = false) (hlist : c ≠ '[') (hobject : c ≠ '{') (hend : c ≠ ']')
    (h : ∀ rest, Ends rest → readScalar (c :: (tail ++ rest)) = .ok (v, rest)) :
    Reads readValue nesting v (c :: tail) := by
  refine ⟨⟨c, tail, rfl, hblank, hend⟩, ?_⟩
  intro budget depth rest _ _ hrest
  rw [List.cons_append, readValue_of_scalar hblank hlist hobject]
  exact h rest hrest

theorem integerText_cons (n : Int) :
    ∃ c tail, integerText n = c :: tail ∧ (c = '-' ∨ c.isDigit = true) := by
  unfold integerText
  split_ifs
  · exact ⟨'-', _, rfl, .inl rfl⟩
  · cases hd : natDigits n.natAbs with
    | nil => exact absurd hd Nat.toDigits_ne_nil
    | cons d ds =>
      refine ⟨d, ds, rfl, .inr ?_⟩
      exact isDigit_of_mem_natDigits d (hd ▸ List.mem_cons_self)

theorem reads_integer {n : Int} (h : -Int.pow 2 63 ≤ n ∧ n < Int.pow 2 64) (nesting : Nat) :
    Reads readValue nesting (.number (.integer n h)) (integerText n) := by
  have hread : ∀ rest, Ends rest →
      readScalar (integerText n ++ rest) = .ok (.number (.integer n h), rest) :=
    fun rest hrest => readScalar_integer h hrest
  obtain ⟨c, tail, htext, hc⟩ := integerText_cons n
  have hne : ∀ d : Char, d ≠ '-' → d.isDigit = false → c ≠ d := by
    rintro d hd hdigit rfl
    rcases hc with rfl | hc
    · exact hd rfl
    · rw [hdigit] at hc
      cases hc
  have hblank : isJsonBlank c = false := by
    simp [isJsonBlank, hne ' ' (by decide) (by decide), hne '\n' (by decide) (by decide),
      hne '\t' (by decide) (by decide), hne '\r' (by decide) (by decide)]
  rw [htext] at hread ⊢
  exact reads_scalar hblank (hne '[' (by decide) (by decide)) (hne '{' (by decide) (by decide))
    (hne ']' (by decide) (by decide)) hread

/-- Objects in order are made again from their own members. -/
theorem objectOf_of_sorted {members : List (String × Value)} (h : KeysSorted members) :
    objectOf members = .object members := by
  have hsorted : KeysSorted ([] ++ members) := h
  rw [objectOf, foldl_insertEntry_of_sorted hsorted, List.nil_append]

theorem reads_array {depth : Nat} {items : List Value}
    (h : ∀ v ∈ items, Reads readValue depth v v.chars) :
    Reads readValue (depth + 1) (.array items) (Value.array items).chars := by
  rw [Value.chars, itemsChars_eq]
  refine ⟨starts_arrayChars _, ?_⟩
  intro budget k rest hbudget hdepth _
  obtain ⟨k, rfl⟩ : ∃ j, k = j + 1 := ⟨k - 1, by omega⟩
  have hforall : List.Forall₂ (Reads readValue depth) items (items.map Value.chars) := by
    rw [List.forall₂_map_right_iff, List.forall₂_same]
    exact h
  have hitems := readItems_arrayChars hforall hbudget (Nat.le_of_succ_le_succ hdepth) rest
  unfold readValue
  rw [skipBlanks_of_starts (starts_arrayChars _)]
  simp [arrayChars, hitems, Except.map]

theorem reads_object {depth : Nat} {members : List (String × Value)} (hsorted : KeysSorted members)
    (h : ∀ m ∈ members, Reads readValue depth m.2 m.2.chars) :
    Reads readValue (depth + 1) (.object members) (Value.object members).chars := by
  rw [Value.chars, membersChars_eq]
  refine ⟨starts_objectChars _, ?_⟩
  intro budget k rest hbudget hdepth _
  obtain ⟨k, rfl⟩ : ∃ j, k = j + 1 := ⟨k - 1, by omega⟩
  have hforall : ReadsEach readValue depth members (members.map fun m => (m.1, m.2.chars)) := by
    rw [ReadsEach, List.forall₂_map_right_iff, List.forall₂_same]
    exact fun m hm => ⟨rfl, h m hm⟩
  have hmembers := readMembers_objectChars hforall hbudget (Nat.le_of_succ_le_succ hdepth) rest
  unfold readValue
  rw [skipBlanks_of_starts (starts_objectChars _), objectChars_eq]
  simp [-List.map_map, hmembers, Except.map, objectOf_of_sorted hsorted]

/-- A value of whole numbers that fits is read back from its compact form. -/
theorem reads_value {depth : Nat} {v : Value} (hfits : v.Fits depth) (hint : v.Integral) :
    Reads readValue depth v v.chars := by
  induction hfits with
  | null =>
    rw [Value.chars]
    exact reads_scalar (by decide) (by decide) (by decide) (by decide) (fun _ _ => rfl)
  | bool b =>
    cases b with
    | false =>
      rw [Value.chars]
      exact reads_scalar (by decide) (by decide) (by decide) (by decide) (fun _ _ => rfl)
    | true =>
      rw [Value.chars]
      exact reads_scalar (by decide) (by decide) (by decide) (by decide) (fun _ _ => rfl)
  | number n =>
    cases hint with
    | integer n h =>
      rw [Value.chars]
      exact reads_integer h _
  | string s =>
    rw [Value.chars]
    refine reads_scalar (by decide) (by decide) (by decide) (by decide) ?_
    intro rest _
    show (readText _).map _ = _
    rw [List.append_assoc, List.singleton_append, readText_quoted]
    rfl
  | array _ ih =>
    cases hint with
    | array hitems => exact reads_array fun v hv => ih v hv (hitems v hv)
  | object hsorted _ ih =>
    cases hint with
    | object hmembers => exact reads_object hsorted fun m hm => ih m hm (hmembers m hm)

theorem reads_defines {depth : Nat} {d : Dict Value} (hfits : ∀ e ∈ d.entries, e.2.Fits depth)
    (hint : ∀ e ∈ d.entries, e.2.Integral) :
    Reads (dict readValue) (depth + 1) d (Value.object d.entries).chars := by
  rw [Value.chars, membersChars_eq]
  apply reads_dict
  rw [ReadsEach, List.forall₂_map_right_iff, List.forall₂_same]
  exact fun e he => ⟨rfl, reads_value (hfits e he) (hint e he)⟩

/-! ## Values that were read -/

theorem forall_of_readItems {α : Type} {item : List Char → Except Failure (α × List Char)}
    {P : α → Prop} (hitem : ∀ cs x rest, item cs = .ok (x, rest) → P x) {count : Nat}
    {first : Bool} {cs rest : List Char} {xs : List α}
    (h : readItems item count first cs = .ok (xs, rest)) : ∀ x ∈ xs, P x := by
  induction count generalizing first cs rest xs with
  | zero => cases h
  | succ count ih =>
    rw [readItems] at h
    obtain ⟨⟨more, cs1⟩, _, h⟩ := bind_eq_ok.mp h
    cases more with
    | false =>
      obtain ⟨cs2, _, h⟩ := bind_eq_ok.mp h
      cases h
      simp
    | true =>
      obtain ⟨⟨x, cs2⟩, hx, h⟩ := bind_eq_ok.mp h
      obtain ⟨⟨xs, cs3⟩, hxs, h⟩ := bind_eq_ok.mp h
      cases h
      exact List.forall_mem_cons.mpr ⟨hitem _ _ _ hx, ih hxs⟩

theorem forall_of_readMembers {α : Type} {value : List Char → Except Failure (α × List Char)}
    {P : α → Prop} (hvalue : ∀ cs x rest, value cs = .ok (x, rest) → P x) {count : Nat}
    {first : Bool} {cs rest : List Char} {xs : List (String × α)}
    (h : readMembers value count first cs = .ok (xs, rest)) : ∀ m ∈ xs, P m.2 := by
  induction count generalizing first cs rest xs with
  | zero => cases h
  | succ count ih =>
    rw [readMembers] at h
    obtain ⟨⟨more, cs1⟩, _, h⟩ := bind_eq_ok.mp h
    cases more with
    | false =>
      cases h
      simp
    | true =>
      obtain ⟨⟨name, cs2⟩, _, h⟩ := bind_eq_ok.mp h
      obtain ⟨cs3, _, h⟩ := bind_eq_ok.mp h
      obtain ⟨⟨x, cs4⟩, hx, h⟩ := bind_eq_ok.mp h
      obtain ⟨⟨xs, cs5⟩, hxs, h⟩ := bind_eq_ok.mp h
      cases h
      exact List.forall_mem_cons.mpr ⟨hvalue _ _ _ hx, ih hxs⟩

/-- Entries that are put into a sorted list come out sorted, and no others do. -/
theorem foldl_insertEntry_spec {α : Type} {P : α → Prop} (members : List (String × α)) :
    ∀ {entries : List (String × α)}, KeysSorted entries → (∀ e ∈ entries, P e.2) →
      (∀ m ∈ members, P m.2) →
      KeysSorted (members.foldl (fun acc m => insertEntry m.1 m.2 acc) entries) ∧
        ∀ e ∈ members.foldl (fun acc m => insertEntry m.1 m.2 acc) entries, P e.2 := by
  induction members with
  | nil =>
    intro entries hsorted hentries _
    exact ⟨hsorted, hentries⟩
  | cons m members ih =>
    intro entries hsorted hentries hmembers
    rw [List.forall_mem_cons] at hmembers
    refine ih (keysSorted_insertEntry m.1 m.2 hsorted) ?_ hmembers.2
    intro e he
    rcases mem_insertEntry he with rfl | he
    · exact hmembers.1
    · exact hentries e he

/-- What holds of every item that the reader can give holds of the items of a
list. -/
theorem forall_of_list {α : Type} {reader : Reader α} {P : α → Prop} {budget depth : Nat}
    (hreader : ∀ cs x rest, reader budget depth cs = .ok (x, rest) → P x) {cs rest : List Char}
    {xs : List α} (h : list reader budget (depth + 1) cs = .ok (xs, rest)) : ∀ x ∈ xs, P x := by
  unfold list at h
  split at h
  · next heq => cases heq
  · next heq =>
    cases heq
    exact forall_of_readItems hreader h
  · cases h

/-- What holds of every value that the reader can give holds of the values of a
dictionary. -/
theorem forall_of_dict {α : Type} {reader : Reader α} {P : α → Prop} {budget depth : Nat}
    (hreader : ∀ cs x rest, reader budget depth cs = .ok (x, rest) → P x) {cs rest : List Char}
    {d : Dict α} (h : dict reader budget (depth + 1) cs = .ok (d, rest)) :
    ∀ e ∈ d.entries, P e.2 := by
  unfold dict at h
  split at h
  · next heq => cases heq
  · next heq =>
    cases heq
    obtain ⟨⟨members, _⟩, hmembers, h⟩ := map_eq_ok.mp h
    cases h
    rw [Dict.ofList, Dict.entries_insertMany]
    exact (foldl_insertEntry_spec members .nil (by simp)
      (forall_of_readMembers hreader hmembers)).2
  · cases h

theorem fits_of_readScalar {cs rest : List Char} {v : Value} (h : readScalar cs = .ok (v, rest))
    (depth : Nat) : v.Fits depth := by
  unfold readScalar at h
  split at h
  · cases h
  · split_ifs at h
    · obtain ⟨_, _, h⟩ := map_eq_ok.mp h
      cases h
      exact .null
    · obtain ⟨_, _, h⟩ := map_eq_ok.mp h
      cases h
      exact .bool true
    · obtain ⟨_, _, h⟩ := map_eq_ok.mp h
      cases h
      exact .bool false
    · obtain ⟨_, _, h⟩ := map_eq_ok.mp h
      cases h
      exact .number _
    · obtain ⟨_, _, h⟩ := map_eq_ok.mp h
      cases h
      exact .number _
    · obtain ⟨_, _, h⟩ := map_eq_ok.mp h
      cases h
      exact .string _

/-- Whatever is read fits in the depth that it was read with. -/
theorem fits_of_readValue {budget depth : Nat} {cs rest : List Char} {v : Value}
    (h : readValue budget depth cs = .ok (v, rest)) : v.Fits depth := by
  induction depth generalizing cs rest v with
  | zero =>
    unfold readValue at h
    split at h
    · cases h
    · cases h
    · exact fits_of_readScalar h 0
  | succ depth ih =>
    unfold readValue at h
    split at h
    · obtain ⟨⟨items, _⟩, hitems, h⟩ := map_eq_ok.mp h
      cases h
      exact .array (forall_of_readItems (fun _ _ _ => ih) hitems)
    · obtain ⟨⟨members, _⟩, hmembers, h⟩ := map_eq_ok.mp h
      cases h
      have hfits := forall_of_readMembers (fun _ _ _ => ih) hmembers
      obtain ⟨hsorted, hall⟩ := foldl_insertEntry_spec members .nil (by simp) hfits
      exact .object hsorted hall
    · exact fits_of_readScalar h _

theorem readDocument_ok {α : Type} {reader : Reader α} {text : String} {x : α}
    (h : readDocument reader text = .ok x) :
    ∃ budget rest, reader budget depthLimit text.toList = .ok (x, rest) := by
  unfold readDocument at h
  simp only at h
  split at h
  · cases h
  · next y rest hread =>
    split at h
    · cases h
      exact ⟨_, rest, hread⟩
    · cases h

end ShaderGraph.Json
