import Mathlib.Data.List.Nodup
import ShaderGraph.Library

/-!
# Libraries that can be reached

A library starts without types and grows by `insert` and `load` only, which
check every type before they add it. `Reached` follows these operations, and
`Reached.sound` says what their checks are worth: the sockets of every type in a
library have distinct identifiers for names.
-/

namespace ShaderGraph

/-- The sockets of a type have distinct identifiers for names, outputs beside
inputs. -/
structure NodeType.WellNamed (t : NodeType) : Prop where
  identifiers : ∀ s ∈ t.sockets, isIdentifier s.name = true
  distinct : (t.sockets.map (·.name)).Nodup

theorem NodeType.WellNamed.inputs_nodup {t : NodeType} (h : t.WellNamed) :
    (t.inputs.map (·.name)).Nodup := by
  have hdistinct := h.distinct
  rw [NodeType.sockets, List.map_append] at hdistinct
  exact hdistinct.of_append_left

namespace Library

variable {lib lib' : Library} {tag origin : String} {t : NodeType}

/-- The libraries that the operations lead to. Files and texts that stand alone
go through `load`. -/
inductive Reached : Library → Prop
  | empty : Reached .empty
  | insert {lib lib' : Library} {tag origin : String} {t : NodeType} :
      Reached lib → lib.insert tag t origin = .ok lib' → Reached lib'
  | load {lib lib' : Library} {text origin : String} {count : Nat} :
      Reached lib → lib.load text origin = .ok (lib', count) → Reached lib'

/-- Every type that is found is well named. -/
def Sound (lib : Library) : Prop := ∀ tag t, lib.lookup? tag = some t → t.WellNamed

theorem checkSockets_ok {sockets : List Socket} :
    ∀ {seen : List String}, checkSockets tag origin seen sockets = .ok () →
      (∀ s ∈ sockets, isIdentifier s.name = true) ∧ (sockets.map (·.name)).Nodup ∧
        ∀ s ∈ sockets, s.name ∉ seen := by
  induction sockets with
  | nil =>
    intro seen _
    simp
  | cons s rest ih =>
    intro seen h
    unfold checkSockets at h
    split at h
    · cases h
    · next hname =>
      split at h
      · cases h
      · next hnew =>
        obtain ⟨hnames, hnodup, hseen⟩ := ih h
        have hs : s.name ∉ rest.map (·.name) := by
          intro hmem
          obtain ⟨s', hs', heq⟩ := List.mem_map.mp hmem
          exact hseen s' hs' (heq ▸ List.mem_cons_self)
        refine ⟨List.forall_mem_cons.mpr ⟨by simpa using hname, hnames⟩, ?_,
          List.forall_mem_cons.mpr ⟨by simpa using hnew, ?_⟩⟩
        · rw [List.map_cons]
          exact List.nodup_cons.mpr ⟨hs, hnodup⟩
        · intro s' hs' hmem
          exact hseen s' hs' (List.mem_cons_of_mem _ hmem)

theorem wellNamed_of_check (h : lib.check tag t origin = .ok ()) : t.WellNamed := by
  unfold check at h
  split at h
  · cases h
  · split at h
    · cases h
    · obtain ⟨hnames, hnodup, _⟩ := checkSockets_ok h
      exact ⟨hnames, hnodup⟩

theorem wellNamed_of_checkAll {types : List (String × NodeType)}
    (h : lib.checkAll origin types = .ok ()) : ∀ e ∈ types, e.2.WellNamed := by
  induction types with
  | nil => simp
  | cons e rest ih =>
    unfold checkAll at h
    split at h
    · cases h
    · next hcheck => exact List.forall_mem_cons.mpr ⟨wellNamed_of_check hcheck, ih h⟩

theorem lookup?_add (tag' : String) :
    (lib.add tag t origin).lookup? tag' = if tag = tag' then some t else lib.lookup? tag' := by
  unfold lookup? add
  rw [Dict.find?_insert]
  split
  · rfl
  · rfl

theorem Sound.add (h : lib.Sound) (ht : t.WellNamed) : (lib.add tag t origin).Sound := by
  intro tag' t' hlookup
  rw [lookup?_add] at hlookup
  split at hlookup
  · cases hlookup
    exact ht
  · exact h tag' t' hlookup

theorem Sound.addAll {types : List (String × NodeType)} (htypes : ∀ e ∈ types, e.2.WellNamed) :
    ∀ {lib : Library}, lib.Sound → (lib.addAll origin types).Sound := by
  induction types with
  | nil =>
    intro lib h
    exact h
  | cons e rest ih =>
    intro lib h
    rw [List.forall_mem_cons] at htypes
    exact ih htypes.2 (h.add htypes.1)

theorem Reached.add (h : lib.Reached) (hcheck : lib.check tag t origin = .ok ()) :
    (lib.add tag t origin).Reached := by
  have hinsert : lib.insert tag t origin = .ok (lib.add tag t origin) := by
    rw [Library.insert, hcheck]
  exact h.insert hinsert

/-- Whatever is added on the way, the types of a library stay well named. -/
theorem Reached.sound (h : lib.Reached) : lib.Sound := by
  induction h with
  | empty =>
    intro tag t hlookup
    cases hlookup
  | insert _ hinsert ih =>
    unfold Library.insert at hinsert
    split at hinsert
    · cases hinsert
    · next hcheck =>
      cases hinsert
      exact ih.add (wellNamed_of_check hcheck)
  | load _ hload ih =>
    unfold Library.load at hload
    split at hload
    · cases hload
    · split at hload
      · cases hload
      · next hcheck =>
        cases hload
        exact ih.addAll (wellNamed_of_checkAll hcheck)

end Library

end ShaderGraph
