import ShaderGraph.Proofs.Json.Record
import ShaderGraph.Proofs.Splits

/-!
# The canonical text of a library

The canonical text is itself a library file, with members in order and defines left
out where there are none. For libraries that were loaded from files:

* **shape** — the defines of types that were read are not nested too deep
  (`legible_of_contents`);
* **reading back** — types of that shape are read from the canonical text
  (`parseFile_canonicalText`), and they pass the checks that they have passed
  before.

By `canonicalText_identifies` the text stands for the library: it can be loaded, to
the same types, and other types have another text.
-/

namespace ShaderGraph

open ShaderGraph.Json ShaderGraph.Template

/-! ## Reading what was written -/

theorem Socket.reads (s : Socket) : Reads (record Socket.schema) 1 s s.toValue.chars := by
  show Reads _ _ _ (objectChars [("name", stringChars s.name), ("type", stringChars s.type)])
  apply reads_record
  refine .next rfl (by simp) ((reads_string s.name).field _ _ _ _) ?_
  refine .next rfl (by simp) ((reads_string s.type).field _ _ _ _) ?_
  exact .done (by simp [Socket.schema, Field.of])

theorem Socket.reads_list (sockets : List Socket) :
    Reads (list (record Socket.schema)) 2 sockets
      (Value.array (sockets.map Socket.toValue)).chars := by
  rw [Value.chars, itemsChars_eq, List.map_map]
  apply Json.reads_list
  rw [List.forall₂_map_right_iff, List.forall₂_same]
  exact fun s _ => s.reads

/-- The defines of a type are nested to at most `depth`. -/
def NodeType.Legible (depth : Nat) (t : NodeType) : Prop :=
  ∀ e ∈ t.defines.entries, e.2.Fits depth

/-- The defines of a type hold whole numbers only. -/
def NodeType.Integral (t : NodeType) : Prop :=
  ∀ name v, t.defines.find? name = some v → v.Integral

theorem NodeType.reads {t : NodeType} {depth : Nat} (hdepth : 1 ≤ depth) (h : t.Legible depth)
    (hint : t.Integral) : Reads (record NodeType.schema) (depth + 2) t t.toValue.chars := by
  obtain ⟨inputs, outputs, body, defines⟩ := t
  have hdefines := reads_defines h fun e he => hint e.1 e.2 (Dict.mem_entries.mp he)
  have hsockets : ∀ sockets : List Socket, Reads (list (record Socket.schema)) (depth + 1) sockets
      (Value.array (sockets.map Socket.toValue)).chars :=
    fun sockets => (Socket.reads_list sockets).mono (by omega)
  rw [NodeType.toValue, Value.chars, membersChars_eq, List.map_append, List.map_cons,
    List.cons_append]
  apply reads_record
  refine .next rfl (by simp) (((reads_string body).mono (by omega)).field _ _ _ _) ?_
  refine .part "defines" ⟨[], [], body, defines⟩ rfl (by simp)
    (by simp [NodeType.schema, Field.of]) ?_ ?_
  · by_cases hempty : defines.isEmpty = true
    · refine .inl ⟨by rw [if_pos hempty, List.map_nil], ?_⟩
      rw [Dict.eq_empty_of_isEmpty hempty]
      rfl
    · refine .inr ⟨_, ?_, hdefines.field _ _ _ _⟩
      rw [if_neg hempty]
      rfl
  refine .next rfl (by simp) ((hsockets inputs).field _ _ _ _) ?_
  refine .next rfl (by simp) ((hsockets outputs).field _ _ _ _) ?_
  exact .done (by simp [NodeType.schema, Field.of])

namespace Library

/-- The canonical text of types of the right shape is read as these types. -/
theorem parseFile_canonicalText {lib : Library}
    (h : ∀ tag t, lib.lookup? tag = some t → t.Legible (depthLimit - 4))
    (hint : ∀ tag t, lib.lookup? tag = some t → t.Integral) :
    parseFile lib.canonicalText = .ok lib.definitions := by
  have htypes : Reads (dict (record NodeType.schema)) (depthLimit - 1) lib.definitions
      (Value.object (lib.definitions.entries.map fun e => (e.1, e.2.toValue))).chars := by
    rw [Value.chars, membersChars_eq, List.map_map]
    apply reads_dict
    rw [ReadsEach, List.forall₂_map_right_iff, List.forall₂_same]
    intro e he
    have hlookup : lib.lookup? e.1 = some e.2 := by
      rw [← find?_definitions]
      exact Dict.mem_entries.mp he
    exact ⟨rfl, NodeType.reads (by decide) (h _ _ hlookup) (hint _ _ hlookup)⟩
  rw [Library.canonicalText_eq]
  apply readDocument_of_reads
  apply reads_record
  refine .next rfl (by simp) (htypes.field _ _ _ _) ?_
  exact .done (by simp [fileSchema, Field.of])

end Library

/-! ## Types that were read -/

theorem NodeType.legible_of_record {budget depth : Nat} {cs rest : List Char} {t : NodeType}
    (h : record NodeType.schema budget (depth + 2) cs = .ok (t, rest)) : t.Legible depth := by
  have hblank : NodeType.schema.blank.Legible depth := List.forall_mem_nil _
  refine record_forall hblank ?_ h
  refine .field (fun _ _ _ _ ht _ => ht) ?_
  refine .field (fun _ _ _ _ ht _ => ht) ?_
  refine .field (fun _ _ _ _ ht _ => ht) ?_
  exact .field (fun _ _ _ _ _ hdict => forall_of_dict (fun _ _ _ => fits_of_readValue) hdict) .nil

namespace Library

theorem legible_of_parseFile {text : String} {file : Dict NodeType}
    (h : parseFile text = .ok file) : ∀ e ∈ file.entries, e.2.Legible (depthLimit - 4) := by
  obtain ⟨_, _, hread⟩ := readDocument_ok h
  have hblank : ∀ e ∈ fileSchema.blank.entries, e.2.Legible (depthLimit - 4) :=
    List.forall_mem_nil _
  refine record_forall (P := fun file => ∀ e ∈ file.entries, e.2.Legible (depthLimit - 4))
    hblank ?_ hread
  exact .field
    (fun _ _ _ _ _ hdict => forall_of_dict (fun _ _ _ => NodeType.legible_of_record) hdict) .nil

theorem legible_of_contents {texts : List String} :
    ∀ {types : List (String × NodeType)}, contents texts = .ok types →
      ∀ e ∈ types, e.2.Legible (depthLimit - 4) := by
  induction texts with
  | nil =>
    intro types h
    cases h
    simp
  | cons text texts ih =>
    intro types h
    obtain ⟨file, more, hfile, hmore, rfl⟩ := contents_cons_ok.mp h
    exact List.forall_mem_append.mpr ⟨legible_of_parseFile hfile, ih hmore⟩

/-! ## Loaded libraries -/

/-- Every type of the library has whole numbers only in its defines. -/
def Integral (lib : Library) : Prop := ∀ tag t, lib.lookup? tag = some t → t.Integral

variable {lib lib' : Library} {files files' : List SourceText}

/-- What is found after loads into an empty library has come from the files. -/
theorem lookup?_of_loadEach (h : (loadEach files).perform .empty = (.ok (), lib)) :
    ∃ types, contents (files.map (·.text)) = .ok types ∧
      ∀ tag t, lib.lookup? tag = some t → (tag, t) ∈ types ∧ empty.Accepts tag t := by
  obtain ⟨types, hcontents, hadmits, hlookup⟩ := loadEach_ok h
  refine ⟨types, hcontents, ?_⟩
  intro tag t ht
  rcases (hlookup tag t).mp ht with hnone | hmem
  · cases hnone
  · exact ⟨hmem, hadmits.accepts (tag, t) hmem⟩

theorem parseFile_canonicalText_of_loadEach
    (h : (loadEach files).perform .empty = (.ok (), lib)) (hint : lib.Integral) :
    parseFile lib.canonicalText = .ok lib.definitions := by
  obtain ⟨types, hcontents, hlookup⟩ := lookup?_of_loadEach h
  refine parseFile_canonicalText ?_ hint
  intro tag t ht
  exact legible_of_contents hcontents (tag, t) (hlookup tag t ht).1

/-- The canonical text of a loaded library can be loaded again. -/
theorem ofText_canonicalText (h : (loadEach files).perform .empty = (.ok (), lib))
    (hint : lib.Integral) : ∃ lib', ofText lib.canonicalText = .ok lib' ∧ lib'.Agree lib := by
  have hparse := parseFile_canonicalText_of_loadEach h hint
  have haccepts : ∀ tag t, lib.definitions.find? tag = some t → empty.Accepts tag t := by
    obtain ⟨_, _, hlookup⟩ := lookup?_of_loadEach h
    intro tag t ht
    rw [find?_definitions] at ht
    exact (hlookup tag t ht).2
  refine ⟨empty.addAll memoryOrigin lib.definitions.entries, ?_, ?_⟩
  · rw [ofText, load_ok_iff.mpr ⟨lib.definitions, hparse, haccepts, rfl, rfl⟩]
    rfl
  · intro tag
    apply Option.ext
    intro t
    rw [lookup?_addAll lib.definitions haccepts, Dict.mem_entries, find?_definitions]
    simp [lookup?, empty]

/-- A library that is loaded from files, with whole numbers only in its defines, can
be loaded from its canonical text: it has the same types then, and the same
canonical text. Two such libraries have the same text exactly if they have the same
types. -/
theorem canonicalText_identifies (files : List SourceText) (lib : Library)
    (hload : (loadEach files).perform .empty = (.ok (), lib)) (hint : lib.Integral) :
    (∃ lib', ofText lib.canonicalText = .ok lib' ∧ lib'.tags = lib.tags ∧
      (∀ tag, lib'.lookup? tag = lib.lookup? tag) ∧ lib'.canonicalText = lib.canonicalText) ∧
    ∀ files' lib', (loadEach files').perform .empty = (.ok (), lib') → lib'.Integral →
      (lib.canonicalText = lib'.canonicalText ↔
        lib.tags = lib'.tags ∧ ∀ tag, lib.lookup? tag = lib'.lookup? tag) := by
  constructor
  · obtain ⟨lib', htext, hagree⟩ := ofText_canonicalText hload hint
    exact ⟨lib', htext, hagree.tags_eq, hagree, hagree.canonicalText_eq⟩
  · intro files' lib' hload' hint'
    constructor
    · intro htext
      have hparse := parseFile_canonicalText_of_loadEach hload hint
      rw [htext, parseFile_canonicalText_of_loadEach hload' hint'] at hparse
      have hagree : lib.Agree lib' := by
        intro tag
        rw [← find?_definitions, ← find?_definitions, Except.ok.inj hparse]
      exact ⟨hagree.tags_eq, hagree⟩
    · rintro ⟨-, hagree⟩
      exact Agree.canonicalText_eq hagree

/-- A file with defines at the ends of the range of numbers, nested, and with
characters that are escaped. -/
def tunedFile : String :=
  "\x7b\"types\":\x7b\"mix\":\x7b\"defines\":\x7b\"B\":18446744073709551615,"
    ++ "\"A\":[-9223372036854775808,\x7b\"\\n\":\"\\u0001\"\x7d]\x7d\x7d\x7d\x7d"

/-- The type in the file. -/
def tunedMix : NodeType where
  inputs := []
  outputs := []
  body := ""
  defines := .ofList [
    ("A", .array [.number (.integer (-9223372036854775808) (by decide)),
      .object [("\n", .string "\x01")]]),
    ("B", .number (.integer 18446744073709551615 (by decide)))]

/-- The library of the file. -/
def tunedLibrary : Library := empty.add "mix" tunedMix "a.json"

theorem tunedLibrary_integral : tunedLibrary.Integral := by
  intro tag t ht name v hv
  have htag : (tag, t) ∈ [("mix", tunedMix)] :=
    Dict.mem_entries.mpr ((find?_definitions tunedLibrary tag).trans ht)
  cases List.mem_singleton.mp htag
  have hname : (name, v) ∈ tunedMix.defines.entries := Dict.mem_entries.mpr hv
  rcases List.mem_cons.mp hname with heq | hname
  · cases heq
    have hobject : (Value.object [("\n", .string "\x01")]).Integral := by
      refine .object ?_
      rw [List.forall_mem_singleton]
      exact .string _
    refine .array ?_
    rw [List.forall_mem_cons, List.forall_mem_singleton]
    exact ⟨.integer _ _, hobject⟩
  · cases List.mem_singleton.mp hname
    exact .integer _ _

theorem splitLibrary_integral : splitLibrary.Integral := by
  intro tag t ht name v hv
  have htag : (tag, t) ∈ [("mix", sampleMix), ("z", .blank)] :=
    Dict.mem_entries.mpr ((find?_definitions splitLibrary tag).trans ht)
  rcases List.mem_cons.mp htag with heq | htag
  · cases heq
    cases hv
  · cases List.mem_singleton.mp htag
    cases hv

/-- The sample can be loaded from its text, which is not that of the library with one
type more. -/
theorem canonicalText_identifies_sample :
    (loadEach [⟨tunedFile, "a.json"⟩]).perform .empty = (.ok (), tunedLibrary) ∧
    tunedLibrary.Integral ∧
    (∃ lib', ofText tunedLibrary.canonicalText = .ok lib' ∧ lib'.tags = tunedLibrary.tags ∧
      (∀ tag, lib'.lookup? tag = tunedLibrary.lookup? tag) ∧
      lib'.canonicalText = tunedLibrary.canonicalText) ∧
    tunedLibrary.canonicalText ≠ splitLibrary.canonicalText := by
  have hload : (loadEach [⟨tunedFile, "a.json"⟩]).perform .empty = (.ok (), tunedLibrary) := by
    decide +kernel
  obtain ⟨hback, htext⟩ := canonicalText_identifies _ tunedLibrary hload tunedLibrary_integral
  refine ⟨hload, tunedLibrary_integral, hback, ?_⟩
  intro heq
  obtain ⟨htags, -⟩ := (htext _ _ loadEach_splitFiles splitLibrary_integral).mp heq
  exact absurd htags (by decide)

end Library

end ShaderGraph
