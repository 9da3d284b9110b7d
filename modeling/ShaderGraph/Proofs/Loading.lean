import Mathlib.Data.List.Basic
import ShaderGraph.Library.Update
import ShaderGraph.Proofs.Library
import ShaderGraph.Proofs.Outcome

/-!
# Loading libraries

A library is changed in place, by calls that may fail on the way. What a file does
to it is decided before the first type goes in:

* **acceptance** — the checks of a type pass exactly if the library accepts it
  (`check_ok_iff`), and the checks of a file stop at the first type that it does
  not accept (`checkAll_error`);
* **work in place** — insertions and loads leave the library as it is or put in
  all there is to put (`perform_insertNow`, `perform_loadNow`), so that whole runs
  of calls stay among the libraries that can be reached
  (`afterCalls_wellFormed`);
* **loads** — `loadNow_allOrNothing` says when they succeed, what is in the library
  then, and which error comes out otherwise: the one of the first tag, in the order
  of octets (`lt_iff_octetsOf_lt`), that the library does not accept.
-/

namespace ShaderGraph

/-! ## The order of octets -/

/-- The octets of a text in UTF-8. -/
def octetsOf (s : String) : List UInt8 := s.toUTF8.data.toList

theorem octetsOf_eq (s : String) : octetsOf s = s.toList.flatMap String.utf8EncodeChar := by
  rw [octetsOf, String.toUTF8_eq_toByteArray, ← String.utf8Encode_toList, List.utf8Encode]
  simp

/-- The octets of a smaller character are smaller at the first difference, so that
what follows does not count. -/
theorem utf8EncodeChar_append_lt {c d : Char} (h : c < d) (xs ys : List UInt8) :
    String.utf8EncodeChar c ++ xs < String.utf8EncodeChar d ++ ys := by
  have hlt : c.val.toNat < d.val.toNat := h
  have hd : d.val.toNat < 0x110000 := by
    have hvalid : d.val.toNat.isValidChar := d.valid
    simp only [Nat.isValidChar] at hvalid
    omega
  unfold String.utf8EncodeChar
  generalize c.val.toNat = v at hlt
  generalize d.val.toNat = w at hlt hd
  -- all octets but the first are digits to base 64
  have h12 : ∀ x : Nat, x / 4096 = x / 64 / 64 := by
    intro x
    rw [Nat.div_div_eq_div_mul]
  have h18 : ∀ x : Nat, x / 262144 = x / 64 / 64 / 64 := by
    intro x
    rw [Nat.div_div_eq_div_mul, Nat.div_div_eq_div_mul]
  simp only [h12, h18]
  split_ifs <;> simp [List.cons_lt_cons_iff, UInt8.lt_iff_toNat_lt, ← UInt8.toNat_inj] <;> omega

theorem flatMap_utf8EncodeChar_lt {cs ds : List Char} (h : cs < ds) :
    cs.flatMap String.utf8EncodeChar < ds.flatMap String.utf8EncodeChar := by
  induction cs generalizing ds with
  | nil =>
    cases ds with
    | nil => exact absurd h (List.lt_irrefl _)
    | cons d ds =>
      obtain ⟨x, xs, hx⟩ := List.exists_cons_of_ne_nil (String.utf8EncodeChar_ne_nil (c := d))
      simp [hx]
  | cons c cs ih =>
    cases ds with
    | nil => exact absurd h (List.not_lt_nil _)
    | cons d ds =>
      rw [List.flatMap_cons, List.flatMap_cons]
      rcases List.cons_lt_cons_iff.mp h with hcd | ⟨rfl, hrest⟩
      · exact utf8EncodeChar_append_lt hcd _ _
      · exact List.append_left_lt (ih hrest)

/-- Texts are ordered as their octets are. -/
theorem lt_iff_octetsOf_lt (s t : String) : s < t ↔ octetsOf s < octetsOf t := by
  rw [octetsOf_eq, octetsOf_eq]
  constructor
  · intro h
    exact flatMap_utf8EncodeChar_lt h
  · intro h
    by_contra hnot
    by_cases heq : s = t
    · subst heq
      exact List.lt_irrefl _ h
    · have hback := flatMap_utf8EncodeChar_lt (lt_of_not_lt_of_ne hnot heq)
      exact List.lt_asymm h hback

namespace Library

variable {lib lib' : Library} {tag origin : String} {t : NodeType}

/-! ## What a library accepts -/

/-- A type can be added under a tag: the tag is not the reserved one and not taken,
and the sockets have distinct identifiers for names. -/
structure Accepts (lib : Library) (tag : String) (t : NodeType) : Prop where
  notReserved : tag ≠ externalTag
  notTaken : lib.types.find? tag = none
  wellNamed : t.WellNamed

theorem checkSockets_of_distinct {sockets : List Socket} :
    ∀ {seen : List String}, (∀ s ∈ sockets, isIdentifier s.name = true) →
      (sockets.map (·.name)).Nodup → (∀ s ∈ sockets, s.name ∉ seen) →
      checkSockets tag origin seen sockets = .ok () := by
  induction sockets with
  | nil =>
    intro seen _ _ _
    rfl
  | cons s rest ih =>
    intro seen hnames hnodup hseen
    rw [List.forall_mem_cons] at hnames hseen
    rw [List.map_cons, List.nodup_cons] at hnodup
    have hrest : ∀ s' ∈ rest, s'.name ∉ s.name :: seen := by
      intro s' hs' hmem
      rcases List.mem_cons.mp hmem with heq | hmem
      · exact hnodup.1 (heq ▸ List.mem_map_of_mem hs')
      · exact hseen.2 s' hs' hmem
    unfold checkSockets
    rw [if_neg (by simp [hnames.1]), if_neg (by simpa using hseen.1)]
    exact ih hnames.2 hnodup.2 hrest

/-- The checks of a type pass exactly if the library accepts it. -/
theorem check_ok_iff : lib.check tag t origin = .ok () ↔ lib.Accepts tag t := by
  constructor
  · intro h
    have hnamed := wellNamed_of_check h
    unfold check at h
    split at h
    · cases h
    · next hreserved =>
      split at h
      · cases h
      · next htaken => exact ⟨hreserved, htaken, hnamed⟩
  · intro h
    unfold check
    rw [if_neg h.notReserved, h.notTaken]
    exact checkSockets_of_distinct h.wellNamed.identifiers h.wellNamed.distinct (by simp)

theorem checkAll_ok_iff {types : List (String × NodeType)} :
    lib.checkAll origin types = .ok () ↔ ∀ e ∈ types, lib.Accepts e.1 e.2 := by
  induction types with
  | nil => simp [checkAll]
  | cons e rest ih =>
    rw [List.forall_mem_cons, ← ih, ← @check_ok_iff lib e.1 origin e.2, checkAll]
    cases lib.check e.1 e.2 origin with
    | error err => simp
    | ok => simp

/-- The checks of a file stop at the first type that the library does not accept. -/
theorem checkAll_error {types : List (String × NodeType)} {err : LibraryError}
    (h : lib.checkAll origin types = .error err) :
    ∃ before e after, types = before ++ e :: after ∧ (∀ b ∈ before, lib.Accepts b.1 b.2) ∧
      lib.check e.1 e.2 origin = .error err := by
  induction types with
  | nil => cases h
  | cons e rest ih =>
    unfold checkAll at h
    split at h
    · next hcheck =>
      cases h
      exact ⟨[], e, rest, rfl, by simp, hcheck⟩
    · next hcheck =>
      obtain ⟨before, e', after, rfl, hbefore, hfault⟩ := ih h
      refine ⟨e :: before, e', after, rfl, ?_, hfault⟩
      exact List.forall_mem_cons.mpr ⟨check_ok_iff.mp hcheck, hbefore⟩

/-! ## What additions change -/

theorem find?_add (tag' : String) :
    (lib.add tag t origin).types.find? tag' =
      if tag = tag' then some ⟨t, origin⟩ else lib.types.find? tag' :=
  Dict.find?_insert ..

theorem find?_addAll {types : List (String × NodeType)} (hsorted : KeysSorted types)
    (tag' : String) :
    (lib.addAll origin types).types.find? tag' = match entryAt? tag' types with
      | some t => some ⟨t, origin⟩
      | none => lib.types.find? tag' := by
  induction types generalizing lib with
  | nil => rfl
  | cons e rest ih =>
    rw [KeysSorted, List.pairwise_cons] at hsorted
    rw [addAll, List.foldl_cons]
    refine (ih hsorted.2).trans ?_
    rw [find?_add, entryAt?]
    split_ifs with htag
    · -- later entries have other tags
      have hnone : entryAt? tag' rest = none := by
        cases hfound : entryAt? tag' rest with
        | none => rfl
        | some v =>
          have hlt := hsorted.1 _ (mem_of_entryAt? hfound)
          rw [htag] at hlt
          exact absurd hlt (String.lt_irrefl tag')
      rw [hnone]
    · rfl

theorem size_addAll {types : List (String × NodeType)} (hsorted : KeysSorted types)
    (hfree : ∀ e ∈ types, lib.types.find? e.1 = none) :
    (lib.addAll origin types).size = lib.size + types.length := by
  induction types generalizing lib with
  | nil => rfl
  | cons e rest ih =>
    rw [KeysSorted, List.pairwise_cons] at hsorted
    rw [List.forall_mem_cons] at hfree
    have hone : (lib.add e.1 e.2 origin).size = lib.size + 1 := Dict.size_insert _ hfree.1
    have hrest : ∀ e' ∈ rest, (lib.add e.1 e.2 origin).types.find? e'.1 = none := by
      intro e' he'
      have hne : e.1 ≠ e'.1 := by
        intro heq
        have hlt := hsorted.1 e' he'
        rw [heq] at hlt
        exact String.lt_irrefl _ hlt
      rw [find?_add, if_neg hne]
      exact hfree.2 e' he'
    rw [addAll, List.foldl_cons]
    refine (ih hsorted.2 hrest).trans ?_
    rw [hone, List.length_cons]
    omega

/-! ## Work in place -/

theorem Update.perform_bind {α β : Type} (work : Update α) (next : α → Update β)
    (lib : Library) :
    (work >>= next).perform lib = match work.perform lib with
      | (.error e, lib') => (.error e, lib')
      | (.ok a, lib') => (next a).perform lib' := by
  simp only [Update.perform, ExceptT.run_bind, StateT.run_bind]
  rcases work.run.run lib with ⟨_ | _, _⟩
  · rfl
  · rfl

theorem perform_checkNow (lib : Library) (tag : String) (t : NodeType) (origin : String) :
    (checkNow tag t origin).perform lib = (lib.check tag t origin, lib) := by
  have hget : Update.perform get lib = (.ok lib, lib) := rfl
  rw [checkNow, Update.perform_bind, hget]
  cases hcheck : lib.check tag t origin with
  | error e =>
    simp only [hcheck]
    rfl
  | ok =>
    simp only [hcheck]
    rfl

theorem perform_insertNow (lib : Library) (tag : String) (t : NodeType) (origin : String) :
    (insertNow tag t origin).perform lib = match lib.insert tag t origin with
      | .error e => (.error e, lib)
      | .ok lib' => (.ok (), lib') := by
  rw [insertNow, Update.perform_bind, perform_checkNow, insert]
  cases lib.check tag t origin with
  | error e => rfl
  | ok => rfl

theorem perform_checkEach (lib : Library) (origin : String) (types : List (String × NodeType)) :
    Update.perform (types.forM fun e => checkNow e.1 e.2 origin) lib =
      (lib.checkAll origin types, lib) := by
  induction types with
  | nil => rfl
  | cons e rest ih =>
    rw [List.forM, Update.perform_bind, perform_checkNow, checkAll]
    cases lib.check e.1 e.2 origin with
    | error err => rfl
    | ok => exact ih

theorem perform_putEach (lib : Library) (origin : String) (types : List (String × NodeType)) :
    Update.perform (types.forM fun e => putNow e.1 e.2 origin) lib =
      (.ok (), lib.addAll origin types) := by
  induction types generalizing lib with
  | nil => rfl
  | cons e rest ih =>
    rw [List.forM, Update.perform_bind]
    exact ih (lib.add e.1 e.2 origin)

/-- A load that fails has changed nothing. -/
theorem perform_loadNow (lib : Library) (text origin : String) :
    (loadNow text origin).perform lib = match lib.load text origin with
      | .error e => (.error e, lib)
      | .ok (lib', count) => (.ok count, lib') := by
  unfold loadNow load
  cases parseFile text with
  | error e => rfl
  | ok types =>
    simp only [Update.perform_bind, perform_checkEach, perform_putEach]
    cases lib.checkAll origin types.entries with
    | error e => rfl
    | ok => rfl

theorem perform_loadNow_ok {text : String} {count : Nat} :
    (loadNow text origin).perform lib = (.ok count, lib') ↔
      lib.load text origin = .ok (lib', count) := by
  rw [perform_loadNow]
  rcases lib.load text origin with err | ⟨loaded, n⟩
  · simp
  · simp [and_comm]

theorem perform_loadNow_error {text : String} {err : LibraryError} :
    (loadNow text origin).perform lib = (.error err, lib') ↔
      lib' = lib ∧ lib.load text origin = .error err := by
  rw [perform_loadNow]
  rcases lib.load text origin with err | ⟨loaded, n⟩
  · simp [and_comm, eq_comm]
  · simp

/-! ## Whole runs -/

theorem Reached.insert_perform (h : lib.Reached) (tag : String) (t : NodeType) (origin : String) :
    ((insertNow tag t origin).perform lib).2.Reached := by
  rw [perform_insertNow]
  cases hinsert : lib.insert tag t origin with
  | error e => exact h
  | ok lib' => exact h.insert hinsert

theorem Reached.load_perform (h : lib.Reached) (text origin : String) :
    ((loadNow text origin).perform lib).2.Reached := by
  rw [perform_loadNow]
  cases hload : lib.load text origin with
  | error e => exact h
  | ok loaded => exact h.load hload

/-- Whether a call succeeds or fails, its library can be reached. -/
theorem Reached.call_perform (h : lib.Reached) (call : Call) :
    (call.update.perform lib).2.Reached := by
  cases call with
  | create => exact .empty
  | insert tag t origin =>
    have hinsert := h.insert_perform tag t origin
    rw [Call.update, Update.perform_bind]
    split
    · next hperform =>
      rw [hperform] at hinsert
      exact hinsert
    · next hperform =>
      rw [hperform] at hinsert
      exact hinsert
  | load text origin => exact h.load_perform text origin
  | replace text =>
    have hload := Reached.empty.load_perform text memoryOrigin
    rw [Call.update, replaceNow]
    split
    · exact h
    · next hperform =>
      rw [hperform] at hload
      exact hload

theorem Reached.afterCalls (h : lib.Reached) (calls : List Call) :
    (lib.afterCalls calls).Reached := by
  induction calls generalizing lib with
  | nil => exact h
  | cons call calls ih => exact ih (h.call_perform call)

/-- The reserved tag is never taken. -/
theorem Reached.unreserved (h : lib.Reached) : lib.types.find? externalTag = none := by
  induction h with
  | empty => rfl
  | insert _ hinsert ih =>
    unfold Library.insert at hinsert
    split at hinsert
    · cases hinsert
    · next hcheck =>
      cases hinsert
      rw [find?_add, if_neg (check_ok_iff.mp hcheck).notReserved]
      exact ih
  | load _ hload ih =>
    unfold Library.load at hload
    split at hload
    · cases hload
    · next types _ =>
      split at hload
      · cases hload
      · next hcheck =>
        cases hload
        rw [find?_addAll types.sorted]
        cases hfound : entryAt? externalTag types.entries with
        | none => exact ih
        | some t =>
          have haccepts := checkAll_ok_iff.mp hcheck _ (mem_of_entryAt? hfound)
          exact absurd rfl haccepts.notReserved

/-- After any calls, whichever of them fail, the reserved tag is free, and the
sockets of every type have distinct names that match the pattern of names, outputs
beside inputs. -/
theorem afterCalls_wellFormed (calls : List Call) :
    (empty.afterCalls calls).lookup? externalTag = none ∧
    ∀ tag t, (empty.afterCalls calls).lookup? tag = some t →
      (∀ s ∈ t.inputs ++ t.outputs, IsName s.name.toList) ∧
      ((t.inputs ++ t.outputs).map (·.name)).Nodup := by
  have hreached := Reached.empty.afterCalls calls
  refine ⟨by rw [lookup?, hreached.unreserved]; rfl, ?_⟩
  intro tag t hlookup
  have hnamed := hreached.sound tag t hlookup
  refine ⟨?_, hnamed.distinct⟩
  intro s hs
  rw [← isNameList_iff]
  exact hnamed.identifiers s hs

/-- A file with two types. -/
def sampleFile : String :=
  "\x7b\"types\":\x7b\"z\":\x7b\x7d,\"mix\":\x7b\"inputs\":"
    ++ "[\x7b\"name\":\"a\",\"type\":\"int\"\x7d]\x7d\x7d\x7d"

/-- The second type of the file. -/
def sampleMix : NodeType := ⟨[⟨"a", "int"⟩], [], "", .empty⟩

/-- Calls of which all but the first and the fourth fail. -/
def sampleCalls : List Call :=
  [.create, .insert externalTag .blank "a.json",
    .insert "bad" ⟨[⟨"a", "int"⟩], [⟨"a", "int"⟩], "", .empty⟩ "a.json",
    .load sampleFile "b.json", .load "\x7b\x7d" "c.json", .replace "[]"]

theorem afterCalls_wellFormed_sample :
    (empty.afterCalls sampleCalls).tags = ["mix", "z"] ∧
    (empty.afterCalls sampleCalls).lookup? externalTag = none ∧
    (empty.afterCalls sampleCalls).lookup? "mix" = some sampleMix ∧
    (∀ s ∈ sampleMix.inputs ++ sampleMix.outputs, IsName s.name.toList) ∧
    ((sampleMix.inputs ++ sampleMix.outputs).map (·.name)).Nodup := by
  have htags : (empty.afterCalls sampleCalls).tags = ["mix", "z"] := by decide +kernel
  have hmix : (empty.afterCalls sampleCalls).lookup? "mix" = some sampleMix := by decide +kernel
  obtain ⟨hexternal, hnamed⟩ := afterCalls_wellFormed sampleCalls
  exact ⟨htags, hexternal, hmix, hnamed "mix" sampleMix hmix⟩

/-! ## One load -/

theorem load_ok_iff {text : String} {count : Nat} :
    lib.load text origin = .ok (lib', count) ↔
      ∃ types, parseFile text = .ok types ∧
        (∀ tag t, types.find? tag = some t → lib.Accepts tag t) ∧
        lib' = lib.addAll origin types.entries ∧ count = types.size := by
  unfold load
  cases parseFile text with
  | error fault => simp
  | ok types =>
    have haccepts : (∀ tag t, types.find? tag = some t → lib.Accepts tag t) ↔
        lib.checkAll origin types.entries = .ok () := by
      rw [checkAll_ok_iff]
      constructor
      · intro h e he
        exact h e.1 e.2 (Dict.mem_entries.mp he)
      · intro h tag t ht
        exact h (tag, t) (Dict.mem_entries.mpr ht)
    simp only [Except.ok.injEq, exists_eq_left', haccepts]
    cases lib.checkAll origin types.entries with
    | error err => simp
    | ok => simp [eq_comm]

/-- The error of a load is about the text, or that of the first tag in order that
the library does not accept. -/
theorem load_error {text : String} {err : LibraryError} (h : lib.load text origin = .error err) :
    (∃ fault, parseFile text = .error fault ∧ err = .source (.malformed origin fault)) ∨
      ∃ types tag t, parseFile text = .ok types ∧ types.find? tag = some t ∧
        lib.check tag t origin = .error err ∧
        ∀ tag' t', types.find? tag' = some t' → tag' < tag → lib.Accepts tag' t' := by
  unfold load at h
  split at h
  · next fault hparse =>
    cases h
    exact .inl ⟨fault, hparse, rfl⟩
  · next types hparse =>
    split at h
    · next err hcheck =>
      cases h
      obtain ⟨before, ⟨tag, t⟩, after, hentries, hbefore, hfault⟩ := checkAll_error hcheck
      have hmem : (tag, t) ∈ types.entries := by simp [hentries]
      refine .inr ⟨types, tag, t, hparse, Dict.mem_entries.mp hmem, hfault, ?_⟩
      intro tag' t' ht' hlt
      -- entries stand in the order of their tags, so smaller tags come before
      have hmem' := Dict.mem_entries.mpr ht'
      have hsorted := types.sorted
      rw [hentries] at hmem' hsorted
      rcases List.mem_append.mp hmem' with hmem' | hmem'
      · exact hbefore _ hmem'
      · have hafter := (List.pairwise_cons.mp (List.pairwise_append.mp hsorted).2.1).1
        rcases List.mem_cons.mp hmem' with heq | hmem'
        · cases heq
          exact absurd hlt (String.lt_irrefl tag)
        · exact absurd (String.lt_trans hlt (hafter _ hmem')) (String.lt_irrefl tag')
    · cases h

/-- A load succeeds exactly if the text is that of a library file and the library
accepts every type in it. If it fails, the library is as before, and an error that
is not about the text is the one of the first tag, by octets, that the library does
not accept. If it succeeds, the library has grown by the types of the file and by
nothing else. -/
theorem loadNow_allOrNothing (lib : Library) (text origin : String) :
    ((∃ count lib', (loadNow text origin).perform lib = (.ok count, lib')) ↔
      ∃ types, parseFile text = .ok types ∧
        ∀ tag t, types.find? tag = some t → lib.Accepts tag t) ∧
    (∀ err lib', (loadNow text origin).perform lib = (.error err, lib') →
      lib' = lib ∧
      ((∃ fault, parseFile text = .error fault ∧ err = .source (.malformed origin fault)) ∨
        ∃ types tag t, parseFile text = .ok types ∧ types.find? tag = some t ∧
          ¬ lib.Accepts tag t ∧ (insertNow tag t origin).perform lib = (.error err, lib) ∧
          ∀ tag' t', types.find? tag' = some t' → octetsOf tag' < octetsOf tag →
            lib.Accepts tag' t')) ∧
    (∀ count lib', (loadNow text origin).perform lib = (.ok count, lib') →
      ∃ types, parseFile text = .ok types ∧
        lib'.size = lib.size + count ∧
        (∀ tag old, lib.types.find? tag = some old → lib'.types.find? tag = some old) ∧
        (∀ tag t, types.find? tag = some t → lib'.lookup? tag = some t) ∧
        (∀ tag, lib.types.find? tag = none → types.find? tag = none →
          lib'.types.find? tag = none)) := by
  refine ⟨?_, ?_, ?_⟩
  · constructor
    · rintro ⟨count, lib', h⟩
      obtain ⟨types, hparse, haccepts, -⟩ := load_ok_iff.mp (perform_loadNow_ok.mp h)
      exact ⟨types, hparse, haccepts⟩
    · rintro ⟨types, hparse, haccepts⟩
      have hload : lib.load text origin = .ok (lib.addAll origin types.entries, types.size) :=
        load_ok_iff.mpr ⟨types, hparse, haccepts, rfl, rfl⟩
      exact ⟨_, _, perform_loadNow_ok.mpr hload⟩
  · intro err lib' h
    obtain ⟨rfl, hload⟩ := perform_loadNow_error.mp h
    refine ⟨rfl, ?_⟩
    rcases load_error hload with hfault | ⟨types, tag, t, hparse, ht, hcheck, hfirst⟩
    · exact .inl hfault
    · refine .inr ⟨types, tag, t, hparse, ht, ?_, ?_, ?_⟩
      · intro haccepts
        rw [check_ok_iff.mpr haccepts] at hcheck
        cases hcheck
      · rw [perform_insertNow, insert, hcheck]
      · intro tag' t' ht' hlt
        exact hfirst tag' t' ht' ((lt_iff_octetsOf_lt tag' tag).mpr hlt)
  · intro count lib' h
    obtain ⟨types, hparse, haccepts, rfl, rfl⟩ := load_ok_iff.mp (perform_loadNow_ok.mp h)
    have hfind : ∀ tag, (lib.addAll origin types.entries).types.find? tag =
        match types.find? tag with
        | some t => some ⟨t, origin⟩
        | none => lib.types.find? tag := find?_addAll types.sorted
    refine ⟨types, hparse, ?_, ?_, ?_, ?_⟩
    · refine size_addAll types.sorted ?_
      intro e he
      exact (haccepts e.1 e.2 (Dict.mem_entries.mp he)).notTaken
    · intro tag old hold
      cases ht : types.find? tag with
      | none => rw [hfind, ht, hold]
      | some t =>
        have hfree := (haccepts tag t ht).notTaken
        rw [hold] at hfree
        cases hfree
    · intro tag t ht
      rw [lookup?, hfind, ht]
      rfl
    · intro tag hold ht
      rw [hfind, ht, hold]

/-- A library with one type. -/
def heldLibrary : Library := empty.add "mix" .blank "a.json"

/-- A file with a type that can be added, one with the reserved tag and one whose
tag is taken. -/
def clashingFile : String :=
  "\x7b\"types\":\x7b\"mix\":\x7b\x7d,\"external\":\x7b\x7d,\"add\":\x7b\x7d\x7d\x7d"

/-- The sample goes into an empty library as a whole. The clashing file leaves the
library as it is, with the error of the reserved tag, which comes before that of the
taken one. -/
theorem loadNow_allOrNothing_sample :
    (∃ lib' types, (loadNow sampleFile "b.json").perform .empty = (.ok 2, lib') ∧
      parseFile sampleFile = .ok types ∧ lib'.size = (empty : Library).size + 2 ∧
      ∀ tag t, types.find? tag = some t → lib'.lookup? tag = some t) ∧
    (∃ types tag t, (loadNow clashingFile "b.json").perform heldLibrary =
        (.error (.reservedTag "b.json"), heldLibrary) ∧
      parseFile clashingFile = .ok types ∧ types.find? tag = some t ∧
      (insertNow tag t "b.json").perform heldLibrary =
        (.error (.reservedTag "b.json"), heldLibrary)) := by
  constructor
  · have hcount : ((loadNow sampleFile "b.json").perform .empty).1 = .ok 2 := by decide +kernel
    rcases hload : (loadNow sampleFile "b.json").perform .empty with ⟨result, lib'⟩
    rw [hload] at hcount
    cases hcount
    obtain ⟨types, hparse, hsize, -, hlookup, -⟩ :=
      (loadNow_allOrNothing .empty sampleFile "b.json").2.2 2 lib' hload
    exact ⟨lib', types, rfl, hparse, hsize, hlookup⟩
  · have hload : (loadNow clashingFile "b.json").perform heldLibrary =
        (.error (.reservedTag "b.json"), heldLibrary) := by decide +kernel
    obtain ⟨-, ⟨fault, -, herr⟩ | ⟨types, tag, t, hparse, ht, -, hinsert, -⟩⟩ :=
      (loadNow_allOrNothing heldLibrary clashingFile "b.json").2.1 _ _ hload
    · cases herr
    · exact ⟨types, tag, t, hload, hparse, ht, hinsert⟩

end Library

end ShaderGraph
