import Mathlib.Data.List.Dedup
import ShaderGraph.Proofs.Json.Record
import ShaderGraph.Proofs.Loading

/-!
# What a library file lists and what is loaded of it

The types of a library file are the members of an object, and nothing keeps such an object from
having two members of one name. Reading it as a dictionary keeps the last of them and forgets the
others before the first type is checked.

* **listing** — `parseListing` reads the same texts and keeps all members in order; the dictionary
  is made of its entries (`parseFile_eq`), since reading a record does not depend on what is put
  together from its fields (`record_map`);
* **what counts** — a file loads if the library accepts the last type listed under every tag, and
  that type is found afterwards (`loadNow_listed`). A tag that the library has already is an error;
  a tag that the file repeats is not, and what the file has listed before under that tag is neither
  checked nor found (`loadNow_drops`).
-/

namespace ShaderGraph

open ShaderGraph.Json

namespace Json

variable {α β : Type}

/-! ## Reading through a function -/

/-- A result with its value changed, in front of the same rest. -/
def Result.over (f : α → β) (result : Except Failure (α × List Char)) :
    Except Failure (β × List Char) := result.map fun p => (f p.1, p.2)

/-- A field that reads what another one does and keeps of the record what `f` does. -/
structure Field.Maps (f : α → β) (a : Field α) (b : Field β) : Prop where
  name_eq : b.name = a.name
  required_eq : b.required = a.required
  store_eq : ∀ x budget depth cs,
    b.store (f x) budget depth cs = Result.over f (a.store x budget depth cs)

variable {f : α → β} {fields : List (Field α)} {fields' : List (Field β)}

theorem find?_maps (h : List.Forall₂ (Field.Maps f) fields fields') (p : Field α → Bool)
    (p' : Field β → Bool) (hp : ∀ a b, Field.Maps f a b → p' b = p a) :
    (fields.find? p = none ∧ fields'.find? p' = none) ∨
      ∃ a b, fields.find? p = some a ∧ fields'.find? p' = some b ∧ Field.Maps f a b := by
  induction h with
  | nil => exact .inl ⟨rfl, rfl⟩
  | @cons a b _ _ hab _ ih =>
    rw [List.find?_cons, List.find?_cons, hp a b hab]
    cases p a with
    | true => exact .inr ⟨a, b, rfl, rfl, hab⟩
    | false => exact ih

theorem readPositional_map (h : List.Forall₂ (Field.Maps f) fields fields') {title : String}
    {budget depth : Nat} :
    ∀ {index : Nat} {first : Bool} {x : α} {cs : List Char},
      readPositional title budget depth fields' index first (f x) cs
        = Result.over f (readPositional title budget depth fields index first x cs) := by
  induction h with
  | nil =>
    intro index first x cs
    rw [readPositional, readPositional]
    cases readListEnd cs with
    | error e => rfl
    | ok rest => rfl
  | @cons a b _ _ hab _ ih =>
    intro index first x cs
    rw [readPositional, readPositional]
    cases nextItem first cs with
    | error e => rfl
    | ok next =>
      obtain ⟨more, rest⟩ := next
      cases more with
      | false =>
        simp only [bind, Except.bind, Bool.false_eq_true, if_false, hab.required_eq]
        split
        · rfl
        · exact ih
      | true =>
        simp only [bind, Except.bind, if_true, hab.store_eq]
        cases a.store x budget depth rest with
        | error e => rfl
        | ok stored => exact ih

theorem readNamed_map (h : List.Forall₂ (Field.Maps f) fields fields') {budget depth : Nat}
    {count : Nat} :
    ∀ {first : Bool} {seen : List String} {x : α} {cs : List Char},
      readNamed fields' budget depth count first seen (f x) cs
        = Result.over f (readNamed fields budget depth count first seen x cs) := by
  induction count with
  | zero =>
    intro first seen x cs
    rfl
  | succ count ih =>
    intro first seen x cs
    rw [readNamed, readNamed]
    cases nextName first cs with
    | error e => rfl
    | ok next =>
      obtain ⟨more, rest⟩ := next
      cases more with
      | false =>
        obtain ⟨hnone, hnone'⟩ | ⟨a, b, hsome, hsome', hab⟩ := find?_maps h
            (fun field => field.required && !seen.contains field.name)
            (fun field => field.required && !seen.contains field.name)
            (fun a b hab => by rw [hab.required_eq, hab.name_eq])
        · simp only [bind, Except.bind, Bool.false_eq_true, if_false, hnone, hnone']
          rfl
        · simp only [bind, Except.bind, Bool.false_eq_true, if_false, hsome, hsome', hab.name_eq]
          rfl
      | true =>
        simp only [bind, Except.bind, if_true]
        cases readText rest with
        | error e => rfl
        | ok read =>
          obtain ⟨name, rest⟩ := read
          obtain ⟨hnone, hnone'⟩ | ⟨a, b, hsome, hsome', hab⟩ := find?_maps h
              (·.name == name) (·.name == name) (fun a b hab => by rw [hab.name_eq])
          · simp only [hnone, hnone']
            cases readColon rest with
            | error e => rfl
            | ok rest =>
              dsimp only
              cases skipValue budget rest with
              | error e => rfl
              | ok rest => exact ih
          · simp only [hsome, hsome', hab.store_eq]
            split
            · rfl
            · cases readColon rest with
              | error e => rfl
              | ok rest =>
                dsimp only
                cases a.store x budget depth rest with
                | error e => rfl
                | ok stored => exact ih

/-- A record of the same fields, put together through `f`, is read from the same texts. -/
theorem record_map (s : Schema α) (s' : Schema β) (htitle : s'.title = s.title)
    (hblank : s'.blank = f s.blank) (hfields : List.Forall₂ (Field.Maps f) s.fields s'.fields)
    (budget depth : Nat) (cs : List Char) :
    record s' budget depth cs = Result.over f (record s budget depth cs) := by
  have hlist : s'.listTitle = s.listTitle := by
    rw [Schema.listTitle, Schema.listTitle, htitle, hfields.length_eq]
  unfold record
  split
  · rfl
  · rfl
  · rw [hlist, hblank]
    exact readPositional_map hfields
  · rw [hblank]
    exact readNamed_map hfields
  · rw [htitle]
    rfl

theorem readDocument_map {reader : Reader α} {reader' : Reader β}
    (h : ∀ budget depth cs, reader' budget depth cs = Result.over f (reader budget depth cs))
    (text : String) : readDocument reader' text = (readDocument reader text).map f := by
  unfold readDocument
  dsimp only
  rw [h]
  cases reader (text.toList.length + 1) depthLimit text.toList with
  | error e => rfl
  | ok read =>
    obtain ⟨x, rest⟩ := read
    simp only [Result.over, Except.map]
    cases skipBlanks rest with
    | nil => rfl
    | cons c rest => rfl

/-- All members of an object in the order of the text. -/
def members (reader : Reader α) : Reader (List (String × α)) := fun budget depth cs =>
  match skipBlanks cs, depth with
  | '{' :: rest, 0 => .error (.on .tooDeep ('{' :: rest))
  | '{' :: rest, depth + 1 => readMembers (reader budget depth) budget true rest
  | rest, _ => .error (mismatch "a map" rest)

theorem dict_eq_members (reader : Reader α) (budget depth : Nat) (cs : List Char) :
    dict reader budget depth cs = Result.over Dict.ofList (members reader budget depth cs) := by
  unfold dict members
  generalize skipBlanks cs = text
  split
  · rfl
  · rfl
  · next h0 hsucc => simp_all [Result.over, Except.map]

/-- A field that is kept as it is read, behind a function. -/
theorem Field.maps_of {name : String} {required : Bool} {reader : Reader α} {reader' : Reader β}
    (h : ∀ budget depth cs, reader' budget depth cs = Result.over f (reader budget depth cs)) :
    Field.Maps f (.of name required reader fun _ v => v) (.of name required reader' fun _ v => v)
    where
  name_eq := rfl
  required_eq := rfl
  store_eq x budget depth cs := by
    simp only [Field.of, h]
    cases reader budget depth cs with
    | error e => rfl
    | ok read => rfl

end Json

/-! ## Dictionaries of listed entries -/

section

variable {α : Type} {key : String} {entries : List (String × α)}

/-- The value of the last entry with the given key. -/
def lastListed? (key : String) (entries : List (String × α)) : Option α :=
  entryAt? key entries.reverse

theorem lastListed?_append_singleton (e : String × α) :
    lastListed? key (entries ++ [e]) = if e.1 = key then some e.2 else lastListed? key entries := by
  rw [lastListed?, List.reverse_append]
  rfl

theorem Dict.find?_ofList (key : String) (entries : List (String × α)) :
    (Dict.ofList entries).find? key = lastListed? key entries := by
  induction entries using List.reverseRecOn with
  | nil => rfl
  | append_singleton entries e ih =>
    have hlast : Dict.ofList (entries ++ [e]) = (Dict.ofList entries).insert e.1 e.2 := by
      rw [Dict.ofList, Dict.insertMany, List.foldl_append]
      rfl
    rw [hlast, Dict.find?_insert, ih, lastListed?_append_singleton]

theorem Dict.size_ofList (entries : List (String × α)) :
    (Dict.ofList entries).size = (entries.map (·.1)).dedup.length := by
  have hperm : (Dict.ofList entries).keys.Perm (entries.map (·.1)).dedup := by
    refine (List.perm_ext_iff_of_nodup (Dict.nodup_keys _) (List.nodup_dedup _)).mpr ?_
    intro key
    rw [Dict.ofList, Dict.mem_keys_insertMany, List.mem_dedup]
    simp [Dict.keys, Dict.empty]
  rw [← hperm.length_eq, Dict.keys, List.length_map, Dict.size]

theorem lastListed?_isSome {e : String × α} (h : e ∈ entries) :
    ∃ v, lastListed? e.1 entries = some v := by
  have hmem : e.1 ∈ (Dict.ofList entries).keys :=
    Dict.mem_keys_insertMany.mpr (.inr (List.mem_map_of_mem h))
  rw [← Dict.find?_ofList]
  exact Option.isSome_iff_exists.mp (Dict.mem_keys.mp hmem)

/-- If no key is repeated, every entry is the last of its key. -/
theorem lastListed?_of_nodup (hnodup : (entries.map (·.1)).Nodup) {e : String × α}
    (h : e ∈ entries) : lastListed? e.1 entries = some e.2 := by
  obtain ⟨v, hv⟩ := lastListed?_isSome h
  have hmem : (e.1, v) ∈ entries := List.mem_reverse.mp (mem_of_entryAt? hv)
  have heq : (e.1, v) = e := List.inj_on_of_nodup_map hnodup hmem h rfl
  rw [hv, ← heq]

end

namespace Library

/-! ## Listings -/

/-- The shape of a library file, read with all that its types list. -/
def listingSchema : Schema (List (String × NodeType)) where
  title := fileSchema.title
  blank := []
  fields := [.of "types" true (members (record NodeType.schema)) (fun _ v => v)]

/-- The types that the text of a library file lists, in order and with repeated tags. -/
def parseListing (text : String) : Except ReadError (List (String × NodeType)) :=
  readDocument (record listingSchema) text

/-- The types of a library file are those it lists, of several with one tag the last. -/
theorem parseFile_eq (text : String) : parseFile text = (parseListing text).map Dict.ofList := by
  have hfields : List.Forall₂ (Field.Maps Dict.ofList) listingSchema.fields fileSchema.fields :=
    .cons (Field.maps_of (dict_eq_members _)) .nil
  exact readDocument_map (record_map listingSchema fileSchema rfl rfl hfields) text

variable {lib lib' : Library} {text origin : String} {entries : List (String × NodeType)}

theorem load_listed_ok_iff (hlisted : parseListing text = .ok entries) {count : Nat} :
    lib.load text origin = .ok (lib', count) ↔
      (∀ tag t, lastListed? tag entries = some t → lib.Accepts tag t) ∧
        lib' = lib.addAll origin (Dict.ofList entries).entries ∧
        count = (entries.map (·.1)).dedup.length := by
  have hparse : parseFile text = .ok (Dict.ofList entries) := by
    rw [parseFile_eq, hlisted]
    rfl
  simp only [load_ok_iff, hparse, Except.ok.injEq, exists_eq_left', Dict.find?_ofList,
    Dict.size_ofList]

/-- A file that lists types under tags is loaded if and only if the library accepts the last type
listed under every tag. Then these are the types found afterwards, and their number is the answer:
all that is listed if no tag is repeated, and less otherwise. A file that lists a tag of the
library is an error and changes nothing. -/
theorem loadNow_listed (lib : Library) (text origin : String) (entries : List (String × NodeType))
    (hlisted : parseListing text = .ok entries) :
    ((∃ count lib', (loadNow text origin).perform lib = (.ok count, lib')) ↔
      ∀ tag t, lastListed? tag entries = some t → lib.Accepts tag t) ∧
    (∀ count lib', (loadNow text origin).perform lib = (.ok count, lib') →
      (∀ tag t, lastListed? tag entries = some t →
        lib.Accepts tag t ∧ lib'.lookup? tag = some t) ∧
      ((entries.map (·.1)).Nodup →
        ∀ e ∈ entries, lib.Accepts e.1 e.2 ∧ lib'.lookup? e.1 = some e.2) ∧
      count = (entries.map (·.1)).dedup.length ∧
      (count = entries.length ↔ (entries.map (·.1)).Nodup)) ∧
    (∀ e ∈ entries, (lib.lookup? e.1).isSome →
      ∃ err, (loadNow text origin).perform lib = (.error err, lib)) := by
  refine ⟨?_, ?_, ?_⟩
  · constructor
    · rintro ⟨count, lib', h⟩
      exact ((load_listed_ok_iff hlisted).mp (perform_loadNow_ok.mp h)).1
    · intro haccepts
      exact ⟨_, _, perform_loadNow_ok.mpr ((load_listed_ok_iff hlisted).mpr ⟨haccepts, rfl, rfl⟩)⟩
  · intro count lib' h
    obtain ⟨haccepts, rfl, rfl⟩ := (load_listed_ok_iff hlisted).mp (perform_loadNow_ok.mp h)
    have hlast : ∀ tag t, lastListed? tag entries = some t → lib.Accepts tag t ∧
        (lib.addAll origin (Dict.ofList entries).entries).lookup? tag = some t := by
      intro tag t ht
      have hentry : entryAt? tag (Dict.ofList entries).entries = some t :=
        (Dict.find?_ofList tag entries).trans ht
      refine ⟨haccepts tag t ht, ?_⟩
      rw [lookup?, find?_addAll (Dict.ofList entries).sorted, hentry]
      rfl
    refine ⟨hlast, ?_, rfl, ?_⟩
    · intro hnodup e he
      exact hlast e.1 e.2 (lastListed?_of_nodup hnodup he)
    · rw [← List.dedup_eq_self, ← List.length_map (fun e : String × NodeType => e.1)]
      exact ⟨(List.dedup_sublist _).eq_of_length, congrArg List.length⟩
  · intro e he htaken
    obtain ⟨t, ht⟩ := lastListed?_isSome he
    rcases hload : (loadNow text origin).perform lib with ⟨_ | count, lib'⟩
    · obtain ⟨rfl, -⟩ := perform_loadNow_error.mp hload
      exact ⟨_, rfl⟩
    · obtain ⟨haccepts, -⟩ := (load_listed_ok_iff hlisted).mp (perform_loadNow_ok.mp hload)
      rw [lookup?, (haccepts e.1 t ht).notTaken] at htaken
      cases htaken

/-- The sample lists two types, which go into an empty library. A library that has one of their
tags refuses the whole file. -/
theorem loadNow_listed_sample :
    parseListing sampleFile = .ok [("z", .blank), ("mix", sampleMix)] ∧
    (∃ lib', (loadNow sampleFile "b.json").perform .empty = (.ok 2, lib') ∧
      lib'.lookup? "z" = some .blank ∧ lib'.lookup? "mix" = some sampleMix) ∧
    ∃ err, (loadNow sampleFile "b.json").perform heldLibrary = (.error err, heldLibrary) := by
  have hlisted : parseListing sampleFile = .ok [("z", .blank), ("mix", sampleMix)] := by
    decide +kernel
  have hcount : ((loadNow sampleFile "b.json").perform .empty).1 = .ok 2 := by decide +kernel
  refine ⟨hlisted, ?_, ?_⟩
  · rcases hload : (loadNow sampleFile "b.json").perform .empty with ⟨result, lib'⟩
    rw [hload] at hcount
    cases hcount
    obtain ⟨-, hall, -⟩ := (loadNow_listed .empty sampleFile "b.json" _ hlisted).2.1 2 lib' hload
    have hfound := hall (by decide)
    exact ⟨lib', rfl, (hfound ("z", .blank) (by simp)).2, (hfound ("mix", sampleMix) (by simp)).2⟩
  · exact (loadNow_listed heldLibrary sampleFile "b.json" _ hlisted).2.2 ("mix", sampleMix)
      (by simp) (by decide +kernel)

/-- A file that lists one tag twice. -/
def repeatingFile : String :=
  "\x7b\"types\":\x7b\"a\":\x7b\"inputs\":[\x7b\"name\":\"1\",\"type\":\"float\"\x7d]\x7d,"
    ++ "\"a\":\x7b\"body\":\"x\"\x7d\x7d\x7d"

/-- The type that is listed first, with an input whose name is not an identifier. -/
def firstListed : NodeType := ⟨[⟨"1", "float"⟩], [], "", .empty⟩

/-- The type that is listed under the same tag after it. -/
def secondListed : NodeType := ⟨[], [], "x", .empty⟩

/-- The file is loaded without an error, with one type instead of two. The type that is listed first
is gone, and nothing has looked at it: added by itself, it is refused. -/
theorem loadNow_drops :
    parseListing repeatingFile = .ok [("a", firstListed), ("a", secondListed)] ∧
    (loadNow repeatingFile "x.json").perform .empty =
      (.ok 1, empty.add "a" secondListed "x.json") ∧
    (empty.add "a" secondListed "x.json").lookup? "a" ≠ some firstListed ∧
    (insertNow "a" firstListed "x.json").perform .empty =
      (.error (.invalidSocketName "a" "1" "x.json"), .empty) := by
  refine ⟨?_, ?_, ?_, ?_⟩ <;> decide +kernel

end Library

end ShaderGraph
