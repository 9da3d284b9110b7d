import ShaderGraph.Program
import ShaderGraph.Proofs.Check

/-!
# Storage variables are not shared

The table of storage names only grows while the storage variables of a program
are declared, and an input that has been registered keeps its name. So when all
inputs of all nodes have been declared, no two of them share a storage variable
(`storageName_injOn`), although joining names is not injective in general.
-/

namespace ShaderGraph

/-- The inputs that the types of nodes declare. -/
def declaredInputs (lib : Library) (nodes : List Node) : List InputRef :=
  nodes.flatMap fun n => (lib.inputNames n.tag).map (n.id, ·)

theorem mem_declaredInputs {lib : Library} {nodes : List Node} {ref : InputRef} :
    ref ∈ declaredInputs lib nodes ↔
      ∃ n ∈ nodes, n.id = ref.1 ∧ ref.2 ∈ lib.inputNames n.tag := by
  obtain ⟨id, input⟩ := ref
  rw [declaredInputs, List.mem_flatMap]
  constructor
  · rintro ⟨n, hn, href⟩
    obtain ⟨i, hi, heq⟩ := List.mem_map.mp href
    cases heq
    exact ⟨n, hn, rfl, hi⟩
  · rintro ⟨n, hn, rfl, hi⟩
    exact ⟨n, hn, List.mem_map_of_mem hi⟩

/-- The type of a node is the library's type of its tag. -/
theorem typeOf_ok_iff {lib : Library} {n : Node} {t : NodeType} :
    typeOf lib n = .ok t ↔ lib.lookup? n.tag = some t := by
  unfold typeOf
  cases lib.lookup? n.tag with
  | none => simp
  | some t' => simp

namespace StorageNames

/-- An input owns the storage name that is made for it. -/
def Holds (names : StorageNames) (ref : InputRef) : Prop :=
  names.owner? (storageName ref.1 ref.2) = some ref

/-- Every name of the table `names` has the same owner in `more`. -/
def Within (names more : StorageNames) : Prop :=
  ∀ name owner, names.owner? name = some owner → more.owner? name = some owner

theorem Within.trans {names names' names'' : StorageNames} (h : names.Within names')
    (h' : names'.Within names'') : names.Within names'' := by
  intro name owner howner
  exact h' name owner (h name owner howner)

theorem Holds.within {names more : StorageNames} {ref : InputRef} (h : names.Holds ref)
    (hmore : names.Within more) : more.Holds ref :=
  hmore _ _ h

/-- Inputs of one table with one storage name are one input. -/
theorem Holds.eq {names : StorageNames} {a b : InputRef} (ha : names.Holds a)
    (hb : names.Holds b) (hname : storageName a.1 a.2 = storageName b.1 b.2) : a = b := by
  unfold Holds at ha hb
  rw [hname, hb] at ha
  exact (Option.some.inj ha).symm

/-- Registering an input gives it its name and takes no other away. -/
theorem register_ok {names names' : StorageNames} {node input name : String}
    (h : names.register node input = .ok (names', name)) :
    names'.Holds (node, input) ∧ names.Within names' := by
  unfold register at h
  simp only at h
  split at h
  · next hfree =>
    cases h
    refine ⟨by simp [Holds, owner?], ?_⟩
    -- the name is new, so it is not one that the table had
    intro other owner howner
    have hne : storageName node input ≠ other := by
      rintro rfl
      rw [owner?, hfree] at howner
      cases howner
    show (names.owners.insert _ _).find? other = some owner
    rw [Dict.find?_insert, if_neg hne]
    exact howner
  · next owner howner =>
    -- a name that is taken is only given to the input that has it
    split at h
    · next heq =>
      cases h
      refine ⟨?_, fun _ _ howner' => howner'⟩
      rw [Holds, owner?, howner, heq]
    · cases h

end StorageNames

open StorageNames

theorem declareInputs_ok {id : String} {inputs : List Socket} {storage : List Storage} :
    ∀ {names names' : StorageNames}, declareInputs id names inputs = .ok (names', storage) →
      (∀ p ∈ inputs, names'.Holds (id, p.name)) ∧ names.Within names' := by
  induction inputs generalizing storage with
  | nil =>
    intro names names' h
    cases h
    exact ⟨by simp, fun _ _ howner => howner⟩
  | cons p rest ih =>
    intro names names' h
    unfold declareInputs at h
    split at h
    · cases h
    · next names1 name hregister =>
      split at h
      · cases h
      · next names2 more hrest =>
        cases h
        obtain ⟨hfirst, hgrow⟩ := register_ok hregister
        obtain ⟨hholds, hgrow'⟩ := ih hrest
        refine ⟨?_, hgrow.trans hgrow'⟩
        intro q hq
        rcases List.mem_cons.mp hq with rfl | hq
        · exact hfirst.within hgrow'
        · exact hholds q hq

/-- Declaring the storage variables of a node and the nodes after it goes on from
a table that holds the inputs of that node. -/
theorem inputGroups_cons_ok {lib : Library} {names : StorageNames} {n : Node} {rest : List Node}
    {groups : List InputGroup} (h : inputGroups lib names (n :: rest) = .ok groups) :
    ∃ names' more, (∀ i ∈ lib.inputNames n.tag, names'.Holds (n.id, i)) ∧ names.Within names' ∧
      inputGroups lib names' rest = .ok more := by
  unfold inputGroups at h
  split at h
  · next hext =>
    refine ⟨names, groups, ?_, fun _ _ howner => howner, h⟩
    rw [Library.inputNames, if_pos (Node.isExternal_iff.mp hext)]
    simp
  · next hext =>
    split at h
    · cases h
    · next t htype =>
      rw [Library.inputNames_eq (fun heq => hext (Node.isExternal_iff.mpr heq))
        (typeOf_ok_iff.mp htype)]
      split at h
      · next hempty =>
        refine ⟨names, groups, ?_, fun _ _ howner => howner, h⟩
        rw [List.isEmpty_iff.mp hempty]
        simp
      · split at h
        · cases h
        · next names' inputs hdeclare =>
          split at h
          · cases h
          · next more hrest =>
            obtain ⟨hholds, hgrow⟩ := declareInputs_ok hdeclare
            refine ⟨names', more, ?_, hgrow, hrest⟩
            intro i hi
            obtain ⟨p, hp, rfl⟩ := List.mem_map.mp hi
            exact hholds p hp

/-- After the storage variables of nodes have been declared there is one table
that holds all of their inputs. -/
theorem inputGroups_ok {lib : Library} {nodes : List Node} :
    ∀ {names : StorageNames} {groups : List InputGroup},
      inputGroups lib names nodes = .ok groups →
      ∃ names', (∀ ref ∈ declaredInputs lib nodes, Holds names' ref) ∧ names.Within names' := by
  induction nodes with
  | nil =>
    intro names groups _
    exact ⟨names, by simp [declaredInputs], fun _ _ howner => howner⟩
  | cons n rest ih =>
    intro names groups h
    obtain ⟨names1, more, hfirst, hgrow, hrest⟩ := inputGroups_cons_ok h
    obtain ⟨names2, hholds, hgrow'⟩ := ih hrest
    refine ⟨names2, ?_, hgrow.trans hgrow'⟩
    intro ref href
    rcases List.mem_append.mp href with href | href
    · obtain ⟨i, hi, rfl⟩ := List.mem_map.mp href
      exact (hfirst i hi).within hgrow'
    · exact hholds ref href

/-- Declared inputs of a program do not share storage variables. -/
theorem storageName_injOn {lib : Library} {nodes : List Node} {groups : List InputGroup}
    (h : inputGroups lib .empty nodes = .ok groups) {a b : InputRef}
    (ha : a ∈ declaredInputs lib nodes) (hb : b ∈ declaredInputs lib nodes)
    (hname : storageName a.1 a.2 = storageName b.1 b.2) : a = b := by
  obtain ⟨names, hholds, _⟩ := inputGroups_ok h
  exact (hholds a ha).eq (hholds b hb) hname

end ShaderGraph
