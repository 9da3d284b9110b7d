import ShaderGraph.Proofs.Agreement
import ShaderGraph.Proofs.Loading

/-!
# Libraries do not depend on how they are split into files

Types may stand in one file or in several, which are loaded one after the other.
Each load checks its file by itself and against what has been loaded so far, and
yet only the types count that the files hold together:

* **success** — the loads succeed exactly if no type is refused by itself and no
  tag is repeated, in one file or across files (`loadEach_ok`,
  `loadEach_of_admits`);
* **outcome** — what is found afterwards are the types of the files.

`loadEach_independent` compares two lists of files with the same types.
-/

namespace ShaderGraph.Library

open ShaderGraph.Json ShaderGraph.Template

variable {lib lib' : Library} {tag origin : String} {t : NodeType}

/-- A library text and the file name for its errors. -/
structure SourceText where
  text : String
  origin : String

/-- Load texts one after the other, up to the first that fails. -/
def loadEach (files : List SourceText) : Update Unit :=
  files.forM fun file => do
    let _ ← loadNow file.text file.origin

/-- The types in library texts, file by file. -/
def contents : List String → Except ReadError (List (String × NodeType))
  | [] => .ok []
  | text :: rest => do
    let file ← parseFile text
    let more ← contents rest
    return file.entries ++ more

/-! ## Types that can be added together -/

/-- The library accepts each of the types, and no tag is repeated among them. -/
structure Admits (lib : Library) (types : List (String × NodeType)) : Prop where
  accepts : ∀ e ∈ types, lib.Accepts e.1 e.2
  distinct : (types.map (·.1)).Nodup

theorem Admits.perm {types types' : List (String × NodeType)} (h : lib.Admits types)
    (hperm : types.Perm types') : lib.Admits types' where
  accepts := fun e he => h.accepts e (hperm.mem_iff.mpr he)
  distinct := (hperm.map (·.1)).nodup_iff.mp h.distinct

theorem find?_addAll_entries (file : Dict NodeType) (tag : String) :
    (lib.addAll origin file.entries).types.find? tag = match file.find? tag with
      | some t => some ⟨t, origin⟩
      | none => lib.types.find? tag := find?_addAll file.sorted tag

/-- With the types of a file added, a type is accepted if it was accepted before
and its tag is not in the file. -/
theorem accepts_addAll {file : Dict NodeType} :
    (lib.addAll origin file.entries).Accepts tag t ↔ lib.Accepts tag t ∧ tag ∉ file.keys := by
  have hfree : (lib.addAll origin file.entries).types.find? tag = none ↔
      lib.types.find? tag = none ∧ tag ∉ file.keys := by
    rw [find?_addAll_entries, ← Dict.find?_eq_none]
    cases file.find? tag with
    | none => simp
    | some t => simp
  constructor
  · intro h
    obtain ⟨hold, hfile⟩ := hfree.mp h.notTaken
    exact ⟨⟨h.notReserved, hold, h.wellNamed⟩, hfile⟩
  · rintro ⟨h, hfile⟩
    exact ⟨h.notReserved, hfree.mpr ⟨h.notTaken, hfile⟩, h.wellNamed⟩

/-- A file and further types can be added together if the file can, and after it the
further types. -/
theorem admits_append (origin : String) {file : Dict NodeType} {more : List (String × NodeType)} :
    lib.Admits (file.entries ++ more) ↔
      (∀ tag t, file.find? tag = some t → lib.Accepts tag t) ∧
        (lib.addAll origin file.entries).Admits more := by
  constructor
  · intro h
    have hdistinct := h.distinct
    rw [List.map_append, List.nodup_append] at hdistinct
    obtain ⟨-, hmore, hapart⟩ := hdistinct
    refine ⟨?_, ?_, hmore⟩
    · intro tag t ht
      exact h.accepts (tag, t) (List.mem_append_left _ (Dict.mem_entries.mpr ht))
    · intro e he
      refine accepts_addAll.mpr ⟨h.accepts e (List.mem_append_right _ he), ?_⟩
      intro hkey
      exact hapart e.1 hkey e.1 (List.mem_map_of_mem he) rfl
  · rintro ⟨hfile, hmore⟩
    constructor
    · intro e he
      rcases List.mem_append.mp he with he | he
      · exact hfile e.1 e.2 (Dict.mem_entries.mp he)
      · exact (accepts_addAll.mp (hmore.accepts e he)).1
    · rw [List.map_append, List.nodup_append]
      refine ⟨file.nodup_keys, hmore.distinct, ?_⟩
      rintro key hkey _ hkey' rfl
      obtain ⟨e, he, rfl⟩ := List.mem_map.mp hkey'
      exact (accepts_addAll.mp (hmore.accepts e he)).2 hkey

/-! ## Loads one after the other -/

theorem contents_cons_ok {text : String} {texts : List String}
    {types : List (String × NodeType)} :
    contents (text :: texts) = .ok types ↔
      ∃ file more, parseFile text = .ok file ∧ contents texts = .ok more ∧
        types = file.entries ++ more := by
  rw [contents]
  constructor
  · intro h
    obtain ⟨file, hfile, h⟩ := bind_eq_ok.mp h
    obtain ⟨more, hmore, h⟩ := bind_eq_ok.mp h
    cases h
    exact ⟨file, more, hfile, hmore, rfl⟩
  · rintro ⟨file, more, hfile, hmore, rfl⟩
    rw [hfile, hmore]
    rfl

theorem perform_loadEach_cons (lib : Library) (file : SourceText) (files : List SourceText) :
    (loadEach (file :: files)).perform lib = match lib.load file.text file.origin with
      | .error e => (.error e, lib)
      | .ok (lib', _) => (loadEach files).perform lib' := by
  rw [loadEach, List.forM, Update.perform_bind, Update.perform_bind, perform_loadNow]
  rcases lib.load file.text file.origin with e | ⟨lib', count⟩
  · rfl
  · rfl

theorem loadEach_cons_ok {file : SourceText} {files : List SourceText} :
    (loadEach (file :: files)).perform lib = (.ok (), lib') ↔
      ∃ types, parseFile file.text = .ok types ∧
        (∀ tag t, types.find? tag = some t → lib.Accepts tag t) ∧
        (loadEach files).perform (lib.addAll file.origin types.entries) = (.ok (), lib') := by
  rw [perform_loadEach_cons]
  constructor
  · intro h
    split at h
    · cases h
    · next hload =>
      obtain ⟨types, hparse, haccepts, rfl, -⟩ := load_ok_iff.mp hload
      exact ⟨types, hparse, haccepts, h⟩
  · rintro ⟨types, hparse, haccepts, h⟩
    rw [load_ok_iff.mpr ⟨types, hparse, haccepts, rfl, rfl⟩]
    exact h

theorem lookup?_addAll (file : Dict NodeType)
    (hfree : ∀ tag t, file.find? tag = some t → lib.Accepts tag t) :
    (lib.addAll origin file.entries).lookup? tag = some t ↔
      lib.lookup? tag = some t ∨ (tag, t) ∈ file.entries := by
  rw [lookup?, find?_addAll_entries, Dict.mem_entries]
  cases hfile : file.find? tag with
  | none => simp [lookup?]
  | some t' => simp [lookup?, (hfree tag t' hfile).notTaken]

/-- Loads that succeed have found types that can be added together, and have added
these. -/
theorem loadEach_ok {files : List SourceText} :
    ∀ {lib : Library}, (loadEach files).perform lib = (.ok (), lib') →
      ∃ types, contents (files.map (·.text)) = .ok types ∧ lib.Admits types ∧
        ∀ tag t, lib'.lookup? tag = some t ↔ lib.lookup? tag = some t ∨ (tag, t) ∈ types := by
  induction files with
  | nil =>
    intro lib h
    cases h
    exact ⟨[], rfl, ⟨by simp, by simp⟩, by simp⟩
  | cons file files ih =>
    intro lib h
    obtain ⟨types, hparse, haccepts, hrest⟩ := loadEach_cons_ok.mp h
    obtain ⟨more, hmore, hadmits, hlookup⟩ := ih hrest
    refine ⟨types.entries ++ more, contents_cons_ok.mpr ⟨types, more, hparse, hmore, rfl⟩,
      (admits_append _).mpr ⟨haccepts, hadmits⟩, ?_⟩
    intro tag t
    rw [hlookup, lookup?_addAll types haccepts, List.mem_append, or_assoc]

/-- Texts whose types can be added together are loaded. -/
theorem loadEach_of_admits {files : List SourceText} :
    ∀ {lib : Library} {types : List (String × NodeType)},
      contents (files.map (·.text)) = .ok types → lib.Admits types →
      ∃ lib', (loadEach files).perform lib = (.ok (), lib') := by
  induction files with
  | nil =>
    intro lib types _ _
    exact ⟨lib, rfl⟩
  | cons file files ih =>
    intro lib types hcontents hadmits
    obtain ⟨first, more, hparse, hmore, rfl⟩ := contents_cons_ok.mp hcontents
    obtain ⟨haccepts, hadmits⟩ := (admits_append file.origin).mp hadmits
    obtain ⟨lib', hload⟩ := ih hmore hadmits
    exact ⟨lib', loadEach_cons_ok.mpr ⟨first, hparse, haccepts, hload⟩⟩

/-! ## Other splits -/

/-- Texts that come in another order hold the same types. -/
theorem contents_perm {texts texts' : List String} (hperm : texts.Perm texts') :
    ∀ {types : List (String × NodeType)}, contents texts = .ok types →
      ∃ types', contents texts' = .ok types' ∧ types.Perm types' := by
  induction hperm with
  | nil =>
    intro types h
    exact ⟨types, h, .refl types⟩
  | cons text _ ih =>
    intro types h
    obtain ⟨file, more, hfile, hmore, rfl⟩ := contents_cons_ok.mp h
    obtain ⟨more', hmore', hperm⟩ := ih hmore
    exact ⟨file.entries ++ more', contents_cons_ok.mpr ⟨file, more', hfile, hmore', rfl⟩,
      hperm.append_left _⟩
  | swap first second texts =>
    intro types h
    obtain ⟨file, more, hfile, hmore, rfl⟩ := contents_cons_ok.mp h
    obtain ⟨file', rest, hfile', hrest, rfl⟩ := contents_cons_ok.mp hmore
    have hswapped := contents_cons_ok.mpr ⟨file, rest, hfile, hrest, rfl⟩
    refine ⟨_, contents_cons_ok.mpr ⟨file', _, hfile', hswapped, rfl⟩, ?_⟩
    rw [← List.append_assoc, ← List.append_assoc]
    exact List.perm_append_comm.append_right rest
  | trans _ _ ih ih' =>
    intro types h
    obtain ⟨types', h', hperm⟩ := ih h
    obtain ⟨types'', h'', hperm'⟩ := ih' h'
    exact ⟨types'', h'', hperm.trans hperm'⟩

/-- The texts hold the same types, each as often, or are the same up to their
order. -/
def SameTypes (files files' : List SourceText) : Prop :=
  (∃ types types', contents (files.map (·.text)) = .ok types ∧
    contents (files'.map (·.text)) = .ok types' ∧ types.Perm types') ∨
  (files.map (·.text)).Perm (files'.map (·.text))

theorem SameTypes.symm {files files' : List SourceText} (h : SameTypes files files') :
    SameTypes files' files := by
  rcases h with ⟨types, types', hcontents, hcontents', hperm⟩ | hperm
  · exact .inl ⟨types', types, hcontents', hcontents, hperm.symm⟩
  · exact .inr hperm.symm

theorem SameTypes.contents {files files' : List SourceText} (h : SameTypes files files')
    {types : List (String × NodeType)}
    (hcontents : Library.contents (files.map (·.text)) = .ok types) :
    ∃ types', Library.contents (files'.map (·.text)) = .ok types' ∧ types.Perm types' := by
  rcases h with ⟨types₁, types', h₁, hcontents', hperm⟩ | hperm
  · cases hcontents.symm.trans h₁
    exact ⟨types', hcontents', hperm⟩
  · exact contents_perm hperm hcontents

/-- If one list of files can be loaded, so can the other, with the same types
afterwards. -/
theorem SameTypes.load {files files' : List SourceText} (h : SameTypes files files')
    (hload : (loadEach files).perform .empty = (.ok (), lib)) :
    ∃ lib', (loadEach files').perform .empty = (.ok (), lib') ∧ lib.Agree lib' := by
  obtain ⟨types, hcontents, hadmits, hlookup⟩ := loadEach_ok hload
  obtain ⟨types', hcontents', hperm⟩ := h.contents hcontents
  obtain ⟨lib', hload'⟩ := loadEach_of_admits hcontents' (hadmits.perm hperm)
  obtain ⟨types'', hcontents'', -, hlookup'⟩ := loadEach_ok hload'
  cases hcontents'.symm.trans hcontents''
  refine ⟨lib', hload', ?_⟩
  intro tag
  apply Option.ext
  intro t
  rw [hlookup, hlookup', hperm.mem_iff]

/-- Files that hold the same types, split and ordered in whatever way, can be loaded
into an empty library or not, all of them alike. The libraries that come out have the
same types, texts and fingerprints, and every build gives the same with them. -/
theorem loadEach_independent (files files' : List SourceText) (h : SameTypes files files') :
    ((∃ lib, (loadEach files).perform .empty = (.ok (), lib)) ↔
      ∃ lib', (loadEach files').perform .empty = (.ok (), lib')) ∧
    ∀ lib lib', (loadEach files).perform .empty = (.ok (), lib) →
      (loadEach files').perform .empty = (.ok (), lib') →
      lib.definitions.entries = lib'.definitions.entries ∧ lib.size = lib'.size ∧
      (∀ tag, lib.lookup? tag = lib'.lookup? tag) ∧
      lib.canonicalText = lib'.canonicalText ∧
      (∀ text, (provenance text lib).libraryFingerprint =
        (provenance text lib').libraryFingerprint) ∧
      ∀ compiler layout nodes,
        build lib compiler layout nodes = build lib' compiler layout nodes := by
  constructor
  · constructor
    · rintro ⟨lib, hload⟩
      obtain ⟨lib', hload', -⟩ := h.load hload
      exact ⟨lib', hload'⟩
    · rintro ⟨lib', hload'⟩
      obtain ⟨lib, hload, -⟩ := h.symm.load hload'
      exact ⟨lib, hload⟩
  · intro lib lib' hload hload'
    obtain ⟨lib'', hload'', hagree⟩ := h.load hload
    cases hload'.symm.trans hload''
    exact ⟨congrArg _ hagree.definitions_eq, hagree.size_eq, hagree, hagree.canonicalText_eq,
      hagree.fingerprint_eq, hagree.build_eq⟩

/-- The types of the sample in two files, in another order and with other blanks. -/
def splitFiles : List SourceText :=
  [⟨"\x7b\"types\": \x7b\"mix\": \x7b\"inputs\": [[\"a\", \"int\"]]\x7d\x7d\x7d", "mix.json"⟩,
    ⟨"[\x7b\"z\": \x7b\x7d\x7d]", "z.json"⟩]

/-- The library of these files. -/
def splitLibrary : Library := (empty.add "mix" sampleMix "mix.json").add "z" .blank "z.json"

theorem loadEach_splitFiles : (loadEach splitFiles).perform .empty = (.ok (), splitLibrary) := by
  decide +kernel

theorem loadEach_independent_sample :
    SameTypes [⟨sampleFile, "b.json"⟩] splitFiles ∧
    (loadEach splitFiles).perform .empty = (.ok (), splitLibrary) ∧
    ∃ lib, (loadEach [⟨sampleFile, "b.json"⟩]).perform .empty = (.ok (), lib) ∧
      lib ≠ splitLibrary ∧ lib.definitions.entries = splitLibrary.definitions.entries ∧
      lib.canonicalText = splitLibrary.canonicalText ∧
      ∀ compiler layout nodes,
        build lib compiler layout nodes = build splitLibrary compiler layout nodes := by
  have hsame : SameTypes [⟨sampleFile, "b.json"⟩] splitFiles := by
    refine .inl ⟨[("mix", sampleMix), ("z", .blank)], [("mix", sampleMix), ("z", .blank)], ?_, ?_,
      .refl _⟩
    · decide +kernel
    · decide +kernel
  have hload : (loadEach [⟨sampleFile, "b.json"⟩]).perform .empty =
      (.ok (), (empty.add "mix" sampleMix "b.json").add "z" .blank "b.json") := by decide +kernel
  obtain ⟨hentries, -, -, htext, -, hbuild⟩ :=
    (loadEach_independent _ splitFiles hsame).2 _ _ hload loadEach_splitFiles
  exact ⟨hsame, loadEach_splitFiles, _, hload, by decide, hentries, htext, hbuild⟩

end ShaderGraph.Library
