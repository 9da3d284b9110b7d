/-!
# Dictionaries

Finite maps from texts, kept as a list of entries in strictly increasing key
order. The order of keys is the order of code points, which is also the order
of their UTF-8 octets. Two dictionaries with the same look-ups are equal
(`Dict.ext_find?`), so a dictionary has one written form.
-/

namespace ShaderGraph

/-- Put an entry into a list that is sorted by key, over any entry of the same
key. -/
def insertEntry {α : Type u} (key : String) (value : α) :
    List (String × α) → List (String × α)
  | [] => [(key, value)]
  | e :: rest =>
    if key < e.1 then (key, value) :: e :: rest
    else if key = e.1 then (key, value) :: rest
    else e :: insertEntry key value rest

/-- The value of the first entry with the given key. -/
def entryAt? {α : Type u} (key : String) : List (String × α) → Option α
  | [] => none
  | e :: rest => if e.1 = key then some e.2 else entryAt? key rest

/-- Strictly increasing keys. -/
abbrev KeysSorted {α : Type u} (entries : List (String × α)) : Prop :=
  entries.Pairwise (fun a b => a.1 < b.1)

theorem mem_insertEntry {α : Type u} {key : String} {value : α}
    {entries : List (String × α)} {e : String × α} (h : e ∈ insertEntry key value entries) :
    e = (key, value) ∨ e ∈ entries := by
  induction entries with
  | nil => exact .inl (by simpa [insertEntry] using h)
  | cons x rest ih =>
    unfold insertEntry at h
    split at h
    · rcases List.mem_cons.mp h with h | h
      · exact .inl h
      · exact .inr h
    · split at h
      · rcases List.mem_cons.mp h with h | h
        · exact .inl h
        · exact .inr (List.mem_cons_of_mem _ h)
      · rcases List.mem_cons.mp h with h | h
        · exact .inr (h ▸ List.mem_cons_self)
        · exact (ih h).imp id (List.mem_cons_of_mem _)

/-- Two texts of which neither comes first are equal. -/
theorem lt_of_not_lt_of_ne {a b : String} (h : ¬ a < b) (hne : a ≠ b) : b < a :=
  Std.lt_of_le_of_ne (String.not_lt.mp h) (Ne.symm hne)

/-- Inserting keeps the keys sorted. -/
theorem keysSorted_insertEntry {α : Type u} (key : String) (value : α)
    {entries : List (String × α)} (h : KeysSorted entries) :
    KeysSorted (insertEntry key value entries) := by
  induction entries with
  | nil => simp [insertEntry]
  | cons x rest ih =>
    rw [KeysSorted, List.pairwise_cons] at h
    unfold insertEntry
    split
    · next hlt =>
      refine List.pairwise_cons.mpr ⟨fun e he => ?_, List.pairwise_cons.mpr h⟩
      rcases List.mem_cons.mp he with rfl | he
      · exact hlt
      · exact String.lt_trans hlt (h.1 e he)
    · split
      · next heq => exact List.pairwise_cons.mpr ⟨fun e he => heq ▸ h.1 e he, h.2⟩
      · next hlt hne =>
        refine List.pairwise_cons.mpr ⟨fun e he => ?_, ih h.2⟩
        rcases mem_insertEntry he with rfl | he
        · exact lt_of_not_lt_of_ne hlt hne
        · exact h.1 e he

/-- What a look-up finds after an insertion. -/
theorem entryAt?_insertEntry {α : Type u} (key k : String) (value : α)
    (entries : List (String × α)) :
    entryAt? k (insertEntry key value entries)
      = if key = k then some value else entryAt? k entries := by
  induction entries with
  | nil => simp [insertEntry, entryAt?]
  | cons x rest ih =>
    unfold insertEntry
    split
    · simp [entryAt?]
    · split
      · next hne heq =>
        simp only [entryAt?]
        split
        · rfl
        · next h => rw [if_neg (fun hx => h (by rw [heq, hx]))]
      · next hne =>
        simp only [entryAt?, ih]
        split
        · next hx => rw [if_neg (fun hk => hne (by rw [hk, hx]))]
        · rfl

theorem mem_of_entryAt? {α : Type u} {k : String} {v : α} {entries : List (String × α)}
    (h : entryAt? k entries = some v) : (k, v) ∈ entries := by
  induction entries with
  | nil => cases h
  | cons x rest ih =>
    unfold entryAt? at h
    split at h
    · next hkey =>
      cases h
      exact hkey ▸ List.mem_cons_self
    · exact List.mem_cons_of_mem _ (ih h)

theorem entryAt?_of_mem {α : Type u} {k : String} {v : α} {entries : List (String × α)}
    (hs : KeysSorted entries) (h : (k, v) ∈ entries) : entryAt? k entries = some v := by
  induction entries with
  | nil => cases h
  | cons x rest ih =>
    rw [KeysSorted, List.pairwise_cons] at hs
    rcases List.mem_cons.mp h with rfl | h
    · simp [entryAt?]
    · have hne : x.1 ≠ k := by
        rintro rfl
        have hlt := hs.1 _ h
        exact String.lt_irrefl x.1 hlt
      rw [entryAt?, if_neg hne]
      exact ih hs.2 h

/-- A new key makes the list longer by one entry. -/
theorem length_insertEntry {α : Type u} {key : String} (value : α) {entries : List (String × α)}
    (h : entryAt? key entries = none) :
    (insertEntry key value entries).length = entries.length + 1 := by
  induction entries with
  | nil => rfl
  | cons x rest ih =>
    unfold entryAt? at h
    split at h
    · cases h
    · next hne =>
      unfold insertEntry
      split
      · rfl
      · rw [if_neg (fun heq => hne heq.symm), List.length_cons, ih h, List.length_cons]

/-- An entry with the largest key goes to the end. -/
theorem insertEntry_of_last {α : Type u} {key : String} (value : α)
    {entries : List (String × α)} (h : ∀ e ∈ entries, e.1 < key) :
    insertEntry key value entries = entries ++ [(key, value)] := by
  induction entries with
  | nil => rfl
  | cons x rest ih =>
    have hx := h x List.mem_cons_self
    have hlt : ¬ key < x.1 := fun hlt => String.lt_irrefl _ (String.lt_trans hx hlt)
    have hne : key ≠ x.1 := by
      intro heq
      rw [heq] at hx
      exact String.lt_irrefl _ hx
    rw [insertEntry, if_neg hlt, if_neg hne, ih (fun e he => h e (List.mem_cons_of_mem _ he))]
    rfl

/-- Entries that are sorted already are put behind each other. -/
theorem foldl_insertEntry_of_sorted {α : Type u} {entries more : List (String × α)}
    (h : KeysSorted (entries ++ more)) :
    more.foldl (fun acc e => insertEntry e.1 e.2 acc) entries = entries ++ more := by
  induction more generalizing entries with
  | nil => simp
  | cons x rest ih =>
    have hlast : ∀ e ∈ entries, e.1 < x.1 := by
      intro e he
      exact (List.pairwise_append.mp h).2.2 e he x List.mem_cons_self
    rw [List.append_cons] at h
    rw [List.foldl_cons, insertEntry_of_last x.2 hlast, ih h]
    simp

/-- A finite map from texts. -/
structure Dict (α : Type u) where
  /-- The entries in key order. -/
  entries : List (String × α)
  sorted : KeysSorted entries

namespace Dict

variable {α : Type u}

/-- The dictionary without entries. -/
def empty : Dict α := ⟨[], .nil⟩

instance : Inhabited (Dict α) := ⟨empty⟩

/-- The value stored under a key. -/
def find? (d : Dict α) (key : String) : Option α := entryAt? key d.entries

/-- Whether a key has a value. -/
def contains (d : Dict α) (key : String) : Bool := (d.find? key).isSome

/-- Store a value, over any earlier value of the key. -/
def insert (d : Dict α) (key : String) (value : α) : Dict α :=
  ⟨insertEntry key value d.entries, keysSorted_insertEntry key value d.sorted⟩

/-- Store entries one after the other. -/
def insertMany (d : Dict α) (entries : List (String × α)) : Dict α :=
  entries.foldl (fun d e => d.insert e.1 e.2) d

/-- The dictionary of a list of entries; of several entries with one key the
last wins. -/
def ofList (entries : List (String × α)) : Dict α := empty.insertMany entries

/-- The keys in order. -/
def keys (d : Dict α) : List String := d.entries.map (·.1)

/-- The number of entries. -/
def size (d : Dict α) : Nat := d.entries.length

/-- Whether there are no entries. -/
def isEmpty (d : Dict α) : Bool := d.entries.isEmpty

/-- Change every value. -/
def map (f : α → β) (d : Dict α) : Dict β :=
  ⟨d.entries.map (fun e => (e.1, f e.2)), by
    rw [KeysSorted, List.pairwise_map]
    exact d.sorted⟩

@[simp] theorem find?_empty (key : String) : (empty : Dict α).find? key = none := rfl

@[simp] theorem find?_insert (d : Dict α) (key k : String) (value : α) :
    (d.insert key value).find? k = if key = k then some value else d.find? k :=
  entryAt?_insertEntry key k value d.entries

theorem mem_entries {d : Dict α} {k : String} {v : α} :
    (k, v) ∈ d.entries ↔ d.find? k = some v :=
  ⟨entryAt?_of_mem d.sorted, mem_of_entryAt?⟩

theorem find?_eq_none {d : Dict α} {k : String} : d.find? k = none ↔ k ∉ d.keys := by
  rw [Option.eq_none_iff_forall_ne_some, keys, List.mem_map]
  constructor
  · rintro h ⟨e, he, rfl⟩
    exact h e.2 (mem_entries.mp he)
  · intro h v hv
    exact h ⟨(k, v), mem_entries.mpr hv, rfl⟩

theorem mem_keys {d : Dict α} {k : String} : k ∈ d.keys ↔ (d.find? k).isSome = true := by
  rw [← Decidable.not_iff_not, ← find?_eq_none]
  simp

theorem mem_keys_insertMany {d : Dict α} {entries : List (String × α)} {k : String} :
    k ∈ (d.insertMany entries).keys ↔ k ∈ d.keys ∨ k ∈ entries.map (·.1) := by
  induction entries generalizing d with
  | nil => simp [insertMany]
  | cons e rest ih =>
    show k ∈ ((d.insert e.1 e.2).insertMany rest).keys ↔ _
    rw [ih, mem_keys, mem_keys, find?_insert, List.map_cons, List.mem_cons]
    by_cases hkey : e.1 = k
    · simp [hkey]
    · simp [hkey, Ne.symm hkey]

theorem nodup_keys (d : Dict α) : d.keys.Nodup := by
  rw [keys, List.Nodup, List.pairwise_map]
  refine d.sorted.imp ?_
  intro a b hlt heq
  rw [heq] at hlt
  exact String.lt_irrefl _ hlt

theorem size_insert {d : Dict α} {key : String} (value : α) (h : d.find? key = none) :
    (d.insert key value).size = d.size + 1 :=
  length_insertEntry value h

theorem eq_of_entries_eq {d e : Dict α} (h : d.entries = e.entries) : d = e := by
  cases d; cases e; cases h; rfl

theorem entries_insertMany (d : Dict α) (entries : List (String × α)) :
    (d.insertMany entries).entries
      = entries.foldl (fun acc e => insertEntry e.1 e.2 acc) d.entries := by
  induction entries generalizing d with
  | nil => rfl
  | cons e rest ih => exact ih (d.insert e.1 e.2)

/-- A dictionary is made again from its own entries. -/
theorem ofList_entries (d : Dict α) : ofList d.entries = d := by
  apply eq_of_entries_eq
  rw [ofList, entries_insertMany]
  exact foldl_insertEntry_of_sorted d.sorted

theorem eq_empty_of_isEmpty {d : Dict α} (h : d.isEmpty = true) : d = empty :=
  eq_of_entries_eq (List.isEmpty_iff.mp h)

@[simp] theorem entries_map (f : α → β) (d : Dict α) :
    (d.map f).entries = d.entries.map (fun e => (e.1, f e.2)) := rfl

@[simp] theorem find?_map (f : α → β) (d : Dict α) (key : String) :
    (d.map f).find? key = (d.find? key).map f := by
  rw [find?, find?, entries_map]
  induction d.entries with
  | nil => rfl
  | cons e rest ih =>
    simp only [List.map_cons, entryAt?]
    split
    · rfl
    · exact ih

private theorem entryAt?_of_forall_lt {k : String} {entries : List (String × α)}
    (h : ∀ e ∈ entries, k < e.1) : entryAt? k entries = none := by
  induction entries with
  | nil => rfl
  | cons x rest ih =>
    have hx := h x List.mem_cons_self
    rw [entryAt?, if_neg (fun heq => String.lt_irrefl k (by rw [heq] at hx; exact hx))]
    exact ih (fun e he => h e (List.mem_cons_of_mem _ he))

private theorem head_key_eq {x y : String × α} {ys : List (String × α)}
    (hy : ∀ e ∈ ys, y.1 < e.1) (h : (entryAt? x.1 (y :: ys)).isSome) : ¬ x.1 < y.1 := by
  intro hlt
  have : entryAt? x.1 (y :: ys) = none := entryAt?_of_forall_lt (fun e he => by
    rcases List.mem_cons.mp he with rfl | he
    · exact hlt
    · exact String.lt_trans hlt (hy e he))
  rw [this] at h
  cases h

private theorem entries_ext {xs ys : List (String × α)} (hx : KeysSorted xs)
    (hy : KeysSorted ys) (h : ∀ k, entryAt? k xs = entryAt? k ys) : xs = ys := by
  induction xs generalizing ys with
  | nil =>
    cases ys with
    | nil => rfl
    | cons y ys => have := h y.1; simp [entryAt?] at this
  | cons x xs ih =>
    cases ys with
    | nil => have := h x.1; simp [entryAt?] at this
    | cons y ys =>
      obtain ⟨hxh, hxt⟩ := List.pairwise_cons.mp hx
      obtain ⟨hyh, hyt⟩ := List.pairwise_cons.mp hy
      have h1 : ¬ x.1 < y.1 := head_key_eq hyh (by rw [← h]; simp [entryAt?])
      have h2 : ¬ y.1 < x.1 := head_key_eq hxh (by rw [h]; simp [entryAt?])
      have hkey : x.1 = y.1 := String.le_antisymm (String.not_lt.mp h2) (String.not_lt.mp h1)
      have hval : x.2 = y.2 := by have := h x.1; simpa [entryAt?, hkey] using this
      have hhead : x = y := Prod.ext hkey hval
      subst hhead
      congr 1
      refine ih hxt hyt (fun k => ?_)
      by_cases hk : x.1 = k
      · subst hk
        rw [entryAt?_of_forall_lt hxh, entryAt?_of_forall_lt hyh]
      · have := h k
        simpa [entryAt?, hk] using this

/-- Dictionaries are determined by their look-ups. -/
theorem ext_find? {d e : Dict α} (h : ∀ k, d.find? k = e.find? k) : d = e :=
  eq_of_entries_eq (entries_ext d.sorted e.sorted h)

instance [DecidableEq α] : DecidableEq (Dict α) := fun d e =>
  if h : d.entries = e.entries then isTrue (eq_of_entries_eq h)
  else isFalse (fun hd => h (congrArg entries hd))

end Dict

end ShaderGraph
