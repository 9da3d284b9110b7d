import Mathlib.Data.Finset.Card
import ShaderGraph.Proofs.Assembly

/-!
# Registering storage names

A table of storage names in use: calls that register inputs come in any number
and order, and any of them may fail.

* **a table records its calls** — after any calls, the owner of a name is the
  input that was registered under it, and there are as many names as such inputs
  (`Records.registerEach`);
* **failures** — a call fails exactly if another input has the name, reports the
  two, and changes nothing (`Records.perform_of_collide`,
  `registerEach_exact`);
* **order does not matter** — no call fails exactly if no two of the inputs
  collide (`unfailing_iff`);
* **who collides** — two inputs share a storage name exactly if the beginning of
  one input, up to an underscore, stands at the end of the other node
  (`storageName_eq_iff`), so no call fails as long as only nodes, or only inputs,
  have underscores (`storageName_collisions`).
-/

namespace ShaderGraph

namespace StorageNames

variable {names : StorageNames} {held : List InputRef}

/-! ## Calls in place -/

/-- Work that begins by looking at the table goes on with the table there is. -/
theorem perform_get_bind {α : Type} (next : StorageNames → Update α) (names : StorageNames) :
    Update.perform (do next (← get)) names = (next names).perform names := rfl

/-- Registering in place is registering, where a call that fails leaves the table
as it is. -/
theorem perform_registerNow (names : StorageNames) (node input : String) :
    (registerNow node input).perform names = match names.register node input with
      | .error err => (.error err, names)
      | .ok (names', name) => (.ok name, names') := by
  rw [registerNow, perform_get_bind, register, owner?]
  cases names.owners.find? (storageName node input) with
  | none => rfl
  | some owner =>
    simp only
    split
    · rfl
    · rfl

/-- What a table holds: the given inputs, each under its storage name, and nothing
else. -/
structure Records (names : StorageNames) (held : List InputRef) : Prop where
  owner : ∀ name ref, names.owner? name = some ref ↔ ref ∈ held ∧ name = storageName ref.1 ref.2
  size : names.size = held.toFinset.card

theorem Records.empty : StorageNames.empty.Records [] where
  owner name ref := by simp [owner?, StorageNames.empty]
  size := rfl

/-- An input that is held is the only one with its storage name. -/
theorem Records.not_collide (h : names.Records held) {a b : InputRef} (ha : a ∈ held)
    (hb : b ∈ held) : ¬ Collide a b := by
  intro hcollide
  have hownerA := (h.owner _ a).mpr ⟨ha, rfl⟩
  have hownerB := (h.owner _ b).mpr ⟨hb, rfl⟩
  rw [hcollide.same, hownerB] at hownerA
  exact hcollide.ne (Option.some.inj hownerA).symm

/-- An input that collides with one that is held is refused. -/
theorem Records.perform_of_collide (h : names.Records held) {first : InputRef}
    (hfirst : first ∈ held) {node input : String} (hcollide : Collide first (node, input)) :
    (registerNow node input).perform names =
      (.error (.nameCollision (storageName node input) first (node, input)), names) := by
  have howner : names.owners.find? (storageName node input) = some first :=
    (h.owner _ first).mpr ⟨hfirst, hcollide.same.symm⟩
  rw [perform_registerNow, register]
  simp only [howner, if_neg hcollide.ne]

/-- Only which inputs are held matters. -/
theorem Records.congr (h : names.Records held) {held' : List InputRef}
    (hmem : ∀ ref, ref ∈ held ↔ ref ∈ held') : names.Records held' where
  owner name ref := by rw [h.owner, hmem]
  size := by
    have hsame : held.toFinset = held'.toFinset := by
      ext ref
      simp [hmem]
    rw [h.size, hsame]

/-- Entering an input under a name that is free. -/
theorem Records.insert (h : names.Records held) (ref : InputRef)
    (hfree : names.owner? (storageName ref.1 ref.2) = none) :
    Records ⟨names.owners.insert (storageName ref.1 ref.2) ref⟩ (held ++ [ref]) where
  owner name other := by
    show (names.owners.insert (storageName ref.1 ref.2) ref).find? name = some other ↔ _
    rw [Dict.find?_insert, List.mem_append, List.mem_singleton]
    split
    · next hname =>
      -- whoever is held has another name, since this one was free
      subst hname
      constructor
      · intro hsome
        cases hsome
        exact ⟨.inr rfl, rfl⟩
      · rintro ⟨hheld | rfl, hname⟩
        · have howner := (h.owner _ other).mpr ⟨hheld, rfl⟩
          rw [← hname, hfree] at howner
          cases howner
        · rfl
    · next hname =>
      have howner : names.owners.find? name = some other ↔ _ := h.owner name other
      rw [howner]
      constructor
      · rintro ⟨hheld, rfl⟩
        exact ⟨.inl hheld, rfl⟩
      · rintro ⟨hheld | rfl, hname'⟩
        · exact ⟨hheld, hname'⟩
        · exact absurd hname'.symm hname
  size := by
    have hnew : ref ∉ held.toFinset := by
      intro hheld
      rw [(h.owner _ ref).mpr ⟨List.mem_toFinset.mp hheld, rfl⟩] at hfree
      cases hfree
    have hcard : (held ++ [ref]).toFinset.card = held.toFinset.card + 1 := by
      rw [List.toFinset_append, Finset.union_comm]
      exact Finset.card_insert_of_notMem hnew
    rw [hcard, ← h.size]
    exact Dict.size_insert ref hfree

/-- An input that collides with none that is held is given its name. -/
theorem Records.perform_of_not_collide (h : names.Records held) {node input : String}
    (hfree : ∀ a ∈ held, ¬ Collide a (node, input)) :
    ∃ names', (registerNow node input).perform names = (.ok (storageName node input), names') ∧
      names'.Records (held ++ [(node, input)]) := by
  rw [perform_registerNow, register]
  cases howner : names.owners.find? (storageName node input) with
  | none =>
    exact ⟨⟨names.owners.insert (storageName node input) (node, input)⟩, rfl,
      h.insert (node, input) howner⟩
  | some owner =>
    -- the name is taken, but by this input
    obtain ⟨hmem, hname⟩ := (h.owner _ owner).mp howner
    have heq : owner = (node, input) := by
      by_contra hne
      exact hfree owner hmem ⟨hne, hname.symm⟩
    subst heq
    refine ⟨names, by simp, h.congr ?_⟩
    intro ref
    rw [List.mem_append, List.mem_singleton, or_iff_left_of_imp]
    rintro rfl
    exact hmem

/-! ## Calls in a row -/

/-- The inputs of calls that have succeeded, in order. -/
def granted (calls : List Call) : List InputRef := (calls.filter (·.answer.isOk)).map (·.ref)

/-- The first of several calls is refused, and the others go on with the same
table, or it is granted, and they go on with one that holds its input as well. -/
theorem Records.registerEach_cons (h : names.Records held) (ref : InputRef) (rest : List InputRef) :
    (∃ first ∈ held, Collide first ref ∧
      names.registerEach (ref :: rest) =
        (⟨ref, .error (.nameCollision (storageName ref.1 ref.2) first ref)⟩ ::
          (names.registerEach rest).1, (names.registerEach rest).2)) ∨
    ((∀ a ∈ held, ¬ Collide a ref) ∧ ∃ names' : StorageNames, names'.Records (held ++ [ref]) ∧
      names.registerEach (ref :: rest) =
        (⟨ref, .ok (storageName ref.1 ref.2)⟩ :: (names'.registerEach rest).1,
          (names'.registerEach rest).2)) := by
  by_cases hcollide : ∃ first ∈ held, Collide first ref
  · obtain ⟨first, hfirst, hcollide⟩ := hcollide
    refine .inl ⟨first, hfirst, hcollide, ?_⟩
    rw [registerEach, h.perform_of_collide hfirst hcollide]
  · have hfree : ∀ a ∈ held, ¬ Collide a ref := fun a ha hc => hcollide ⟨a, ha, hc⟩
    obtain ⟨names', hperform, hrecords⟩ := h.perform_of_not_collide hfree
    refine .inr ⟨hfree, names', hrecords, ?_⟩
    rw [registerEach, hperform]

/-- After calls, a table holds what it held before and what they have
registered. -/
theorem Records.registerEach (h : names.Records held) (refs : List InputRef) :
    (names.registerEach refs).2.Records (held ++ granted (names.registerEach refs).1) := by
  induction refs generalizing names held with
  | nil => simpa [StorageNames.registerEach, granted] using h
  | cons ref rest ih =>
    rcases h.registerEach_cons ref rest with ⟨first, _, _, hcalls⟩ | ⟨_, names', h', hcalls⟩
    · rw [hcalls]
      exact ih h
    · rw [hcalls]
      have hrest := ih h'
      rw [List.append_assoc] at hrest
      exact hrest

/-- All calls succeed exactly if no two inputs collide, those held before
included. -/
theorem Records.all_isOk_iff (h : names.Records held) (refs : List InputRef) :
    (∀ call ∈ (names.registerEach refs).1, call.answer.isOk = true) ↔
      ∀ a ∈ held ++ refs, ∀ b ∈ held ++ refs, ¬ Collide a b := by
  induction refs generalizing names held with
  | nil =>
    simp only [StorageNames.registerEach, List.append_nil]
    constructor
    · intro _ a ha b hb
      exact h.not_collide ha hb
    · intro _ call hcall
      cases hcall
  | cons ref rest ih =>
    rcases h.registerEach_cons ref rest with
      ⟨first, hfirst, hcollide, hcalls⟩ | ⟨_, names', h', hcalls⟩
    · rw [hcalls]
      constructor
      · intro hall
        cases hall _ List.mem_cons_self
      · intro hnone
        exact absurd hcollide (hnone first (by simp [hfirst]) ref (by simp))
    · rw [hcalls, List.forall_mem_cons, ih h', List.append_assoc]
      simp [Except.isOk, Except.toBool]

/-- The inputs that are registered successfully when all of the given ones are
tried in a new table. -/
def registered (refs : List InputRef) : List InputRef := granted (empty.registerEach refs).1

/-- The table after the given inputs have been tried in a new one. -/
def tableAfter (refs : List InputRef) : StorageNames := (empty.registerEach refs).2

/-- No call fails when the given inputs are registered in a new table. -/
def Unfailing (refs : List InputRef) : Prop :=
  ∀ call ∈ (empty.registerEach refs).1, call.answer.isOk = true

theorem records_tableAfter (refs : List InputRef) : (tableAfter refs).Records (registered refs) :=
  Records.empty.registerEach refs

/-- Registering inputs in a new table fails exactly if two of them collide. -/
theorem unfailing_iff (refs : List InputRef) :
    Unfailing refs ↔ ∀ a ∈ refs, ∀ b ∈ refs, ¬ Collide a b :=
  Records.empty.all_isOk_iff refs

theorem Unfailing.perm {refs refs' : List InputRef} (h : Unfailing refs) (hperm : refs.Perm refs') :
    Unfailing refs' := by
  rw [unfailing_iff] at h ⊢
  intro a ha b hb
  exact h a (hperm.mem_iff.mpr ha) b (hperm.mem_iff.mpr hb)

/-- After any calls on a new table, some of which may have failed, a name has an
owner exactly if the owner has been registered and the name is made for it;
inputs that have been registered have different names, and the table counts
them. The next call fails exactly if another input has been registered under its
name; it reports that name, that input and its own, and changes nothing.
Whether all inputs of a list can be registered does not depend on its order. -/
theorem registerEach_exact :
    (∀ refs : List InputRef,
      (∀ name ref, (tableAfter refs).owner? name = some ref ↔
        ref ∈ registered refs ∧ name = storageName ref.1 ref.2) ∧
      (∀ a ∈ registered refs, ∀ b ∈ registered refs, a ≠ b →
        storageName a.1 a.2 ≠ storageName b.1 b.2) ∧
      (tableAfter refs).size = (registered refs).toFinset.card ∧
      ∀ node input,
        ((∃ err, ((registerNow node input).perform (tableAfter refs)).1 = .error err) ↔
          ∃ first ∈ registered refs, Collide first (node, input)) ∧
        ∀ first ∈ registered refs, Collide first (node, input) →
          (registerNow node input).perform (tableAfter refs) =
            (.error (.nameCollision (storageName node input) first (node, input)),
              tableAfter refs)) ∧
    ∀ refs refs', refs.Perm refs' → (Unfailing refs ↔ Unfailing refs') := by
  refine ⟨?_, ?_⟩
  · intro refs
    have hrecords := records_tableAfter refs
    refine ⟨hrecords.owner, ?_, hrecords.size, ?_⟩
    · intro a ha b hb hne hname
      exact hrecords.not_collide ha hb ⟨hne, hname⟩
    · intro node input
      refine ⟨⟨?_, ?_⟩, fun first hfirst => hrecords.perform_of_collide hfirst⟩
      · rintro ⟨err, herr⟩
        by_contra hnone
        have hfree : ∀ a ∈ registered refs, ¬ Collide a (node, input) :=
          fun a ha hcollide => hnone ⟨a, ha, hcollide⟩
        obtain ⟨names', hperform, _⟩ := hrecords.perform_of_not_collide hfree
        rw [hperform] at herr
        cases herr
      · rintro ⟨first, hfirst, hcollide⟩
        exact ⟨_, congrArg Prod.fst (hrecords.perform_of_collide hfirst hcollide)⟩
  · intro refs refs' hperm
    exact ⟨fun h => h.perm hperm, fun h => h.perm hperm.symm⟩

/-- Two inputs with one name, the first of which is registered twice. -/
def ambiguousInputs : List InputRef := [("a_b", "c"), ("a", "b_c"), ("a_b", "c")]

/-- The second input is refused, and the table counts the other one once. -/
theorem registerEach_exact_ambiguous :
    registered ambiguousInputs = [("a_b", "c"), ("a_b", "c")] ∧
      (tableAfter ambiguousInputs).size = 1 ∧
      (registerNow "a" "b_c").perform (tableAfter ambiguousInputs) =
        (.error (.nameCollision "inp_a_b_c" ("a_b", "c") ("a", "b_c")),
          tableAfter ambiguousInputs) ∧
      (Unfailing ambiguousInputs ↔ Unfailing ambiguousInputs.reverse) := by
  have hregistered : registered ambiguousInputs = [("a_b", "c"), ("a_b", "c")] := by
    decide +kernel
  obtain ⟨_, _, hsize, hcalls⟩ := registerEach_exact.1 ambiguousInputs
  have hcollide : Collide ("a_b", "c") ("a", "b_c") := ⟨by decide, by decide⟩
  refine ⟨hregistered, ?_, ?_, ?_⟩
  · rw [hsize, hregistered]
    decide
  · exact (hcalls "a" "b_c").2 ("a_b", "c") (by simp [hregistered]) hcollide
  · exact registerEach_exact.2 _ _ (List.reverse_perm ambiguousInputs).symm

end StorageNames

/-! ## Who collides -/

/-- The first node goes beyond the second by some part of what follows it there
exactly if the pairs are the same, or the part is an underscore and what the
second input has before one of its own. -/
theorem exists_overlap_iff {n₁ i₁ n₂ i₂ : String} :
    (∃ part, n₁.toList = n₂.toList ++ part ∧ '_' :: i₂.toList = part ++ '_' :: i₁.toList) ↔
      (n₁, i₁) = (n₂, i₂) ∨ ∃ s, n₁ = n₂ ++ "_" ++ s ∧ i₂ = s ++ "_" ++ i₁ := by
  constructor
  · rintro ⟨part, hnode, hinput⟩
    cases part with
    | nil =>
      rw [List.append_nil] at hnode
      obtain ⟨_, hinput⟩ := List.cons.inj hinput
      exact .inl (Prod.ext (String.toList_inj.mp hnode) (String.toList_inj.mp hinput.symm))
    | cons c part =>
      -- what the first node has over the second begins with the underscore of the join
      obtain ⟨rfl, hrest⟩ := List.cons.inj hinput
      have hrest : i₂.toList = part ++ '_' :: i₁.toList := hrest
      refine .inr ⟨String.ofList part, ?_, ?_⟩
      · rw [← String.toList_inj, hnode]
        simp
      · rw [← String.toList_inj, hrest]
        simp
  · rintro (heq | ⟨s, rfl, rfl⟩)
    · cases heq
      exact ⟨[], by simp, by simp⟩
    · exact ⟨'_' :: s.toList, by simp, by simp⟩

/-- Two inputs share a storage name exactly if they are the same, or one node is
the other followed by an underscore and a part with which, up to an underscore,
the input of that other begins. -/
theorem storageName_eq_iff (n₁ i₁ n₂ i₂ : String) :
    storageName n₁ i₁ = storageName n₂ i₂ ↔
      (n₁, i₁) = (n₂, i₂) ∨ (∃ s, n₁ = n₂ ++ "_" ++ s ∧ i₂ = s ++ "_" ++ i₁) ∨
        ∃ s, n₂ = n₁ ++ "_" ++ s ∧ i₁ = s ++ "_" ++ i₂ := by
  have hjoin : storageName n₁ i₁ = storageName n₂ i₂ ↔
      n₁.toList ++ '_' :: i₁.toList = n₂.toList ++ '_' :: i₂.toList := by
    rw [← String.toList_inj]
    simp [storageName]
  rw [hjoin, List.append_eq_append_iff, exists_overlap_iff, exists_overlap_iff]
  constructor
  · rintro ((heq | hsecond) | (heq | hfirst))
    · exact .inl heq.symm
    · exact .inr (.inr hsecond)
    · exact .inl heq
    · exact .inr (.inl hfirst)
  · rintro (heq | hfirst | hsecond)
    · exact .inl (.inl heq.symm)
    · exact .inr (.inr hfirst)
    · exact .inl (.inr hsecond)

/-- Inputs that collide have an underscore in one of the nodes and in one of the
inputs. -/
theorem Collide.underscores {a b : InputRef} (h : Collide a b) :
    ('_' ∈ a.1.toList ∨ '_' ∈ b.1.toList) ∧ ('_' ∈ a.2.toList ∨ '_' ∈ b.2.toList) := by
  rcases (storageName_eq_iff a.1 a.2 b.1 b.2).mp h.same with heq | ⟨s, hnode, hinput⟩ |
    ⟨s, hnode, hinput⟩
  · exact absurd heq h.ne
  · rw [hnode, hinput]
    simp
  · rw [hnode, hinput]
    simp

/-- Two pairs have one storage name exactly if they are the same, or one comes from
the other when the beginning of its input, up to an underscore, goes over to its
node. So registering never fails, in any order, where no node has an underscore,
nor where no input has one. -/
theorem storageName_collisions :
    (∀ n₁ i₁ n₂ i₂ : String, storageName n₁ i₁ = storageName n₂ i₂ ↔
      (n₁, i₁) = (n₂, i₂) ∨ (∃ s, n₁ = n₂ ++ "_" ++ s ∧ i₂ = s ++ "_" ++ i₁) ∨
        ∃ s, n₂ = n₁ ++ "_" ++ s ∧ i₁ = s ++ "_" ++ i₂) ∧
    ∀ refs : List InputRef,
      (∀ ref ∈ refs, '_' ∉ ref.1.toList) ∨ (∀ ref ∈ refs, '_' ∉ ref.2.toList) →
        StorageNames.Unfailing refs := by
  refine ⟨storageName_eq_iff, ?_⟩
  intro refs hplain
  rw [StorageNames.unfailing_iff]
  intro a ha b hb hcollide
  obtain ⟨hnodes, hinputs⟩ := hcollide.underscores
  rcases hplain with hplain | hplain
  · exact hnodes.elim (hplain a ha) (hplain b hb)
  · exact hinputs.elim (hplain a ha) (hplain b hb)

/-- Underscores on one side, also at the ends and doubled, make no trouble. -/
theorem storageName_collisions_plain_nodes :
    (∀ ref ∈ [("a", "b__c"), ("b", "_c"), ("a", "b_"), ("a", "")], '_' ∉ ref.1.toList) ∧
      StorageNames.Unfailing [("a", "b__c"), ("b", "_c"), ("a", "b_"), ("a", "")] := by
  have hplain : ∀ ref ∈ [("a", "b__c"), ("b", "_c"), ("a", "b_"), ("a", "")],
      '_' ∉ ref.1.toList := by decide
  exact ⟨hplain, storageName_collisions.2 _ (.inl hplain)⟩

end ShaderGraph
