import Mathlib.Data.List.Chain
import Mathlib.Data.List.Nodup
import ShaderGraph.Graph

/-!
# Who feeds whom

Edges name their targets by id. Ids are distinct, so an id stands for at most
one position, and the questions about a graph that do not depend on how it is
searched can be asked of ids alone:

* `Feeds` — a node has an edge to an id (edges to the sink do not count);
* `Closed` — every id that is fed belongs to a node;
* `Acyclic` — no id feeds itself, over any number of edges;
* `IsCycle` — a list of nodes each of which feeds the next, and the last the
  first.
-/

namespace ShaderGraph

theorem Edge.target?_of_sink {e : Edge} (h : e.target = .sink) : e.target? = none := by
  rw [Edge.target?, h]

theorem Edge.target?_of_node {e : Edge} {id : String} (h : e.target = .node id) :
    e.target? = some id := by
  rw [Edge.target?, h]

theorem Edge.target?_eq_some {e : Edge} {id : String} :
    e.target? = some id ↔ e.target = .node id := by
  cases htarget : e.target with
  | sink => simp [target?_of_sink htarget]
  | node target => simp [target?_of_node htarget]

/-- The ids that a node feeds are the targets of its edges. -/
theorem Node.mem_successors {n : Node} {id : String} :
    id ∈ n.successors ↔ ∃ e ∈ n.edges, e.target? = some id :=
  List.mem_filterMap

namespace Graph

variable {g : Graph}

/-! ## Positions and ids -/

/-- The node at a position is a node of the graph. -/
theorem node_mem (g : Graph) (i : Fin g.size) : g.node i ∈ g.nodes.toList :=
  Array.getElem_mem_toList i.isLt

/-- Every node stands at some position. -/
theorem exists_node {n : Node} (hn : n ∈ g.nodes.toList) : ∃ i, g.node i = n := by
  obtain ⟨i, hi, rfl⟩ := List.getElem_of_mem hn
  exact ⟨⟨i, by simpa using hi⟩, by simp [node]⟩

/-- A position is determined by the id of its node. -/
theorem eq_of_node_id_eq {i j : Fin g.size} (h : (g.node i).id = (g.node j).id) : i = j := by
  have hget : ∀ k : Fin g.size, (g.nodes.toList.map (·.id))[(k : Nat)]? = some (g.node k).id := by
    intro k
    simp [node]
  refine Fin.ext ((List.getElem?_inj (by simp) g.distinct).mp ?_)
  rw [hget i, hget j, h]

/-- A node is determined by its id. -/
theorem eq_of_id_eq {m n : Node} (hm : m ∈ g.nodes.toList) (hn : n ∈ g.nodes.toList)
    (h : m.id = n.id) : m = n := by
  obtain ⟨i, rfl⟩ := exists_node hm
  obtain ⟨j, rfl⟩ := exists_node hn
  rw [eq_of_node_id_eq h]

theorem mem_ids {id : String} : id ∈ g.ids ↔ ∃ i, (g.node i).id = id := by
  rw [ids, List.mem_map]
  constructor
  · rintro ⟨n, hn, rfl⟩
    obtain ⟨i, rfl⟩ := exists_node hn
    exact ⟨i, rfl⟩
  · rintro ⟨i, rfl⟩
    exact ⟨g.node i, g.node_mem i, rfl⟩

/-- The position of an id is where the node with that id stands. -/
theorem position?_eq_some {id : String} {i : Fin g.size} :
    g.position? id = some i ↔ (g.node i).id = id := by
  rw [position?, Array.findFinIdx?_eq_some_iff]
  constructor
  · rintro ⟨hid, _⟩
    simpa [node] using hid
  · rintro rfl
    refine ⟨by simp [node], ?_⟩
    -- the first node with this id is the only one
    intro j hj hid
    have : j = i := eq_of_node_id_eq (by simpa [node] using hid)
    omega

theorem position?_eq_none {id : String} : g.position? id = none ↔ id ∉ g.ids := by
  rw [mem_ids, Option.eq_none_iff_forall_not_mem, not_exists]
  exact forall_congr' fun i => not_congr position?_eq_some

theorem contains_iff {id : String} : g.contains id = true ↔ id ∈ g.ids := by
  rw [contains, Option.isSome_iff_ne_none, ne_eq, position?_eq_none, not_not]

/-- Looking an id up gives the node that has it. -/
theorem find?_eq_some {id : String} {n : Node} :
    g.find? id = some n ↔ n ∈ g.nodes.toList ∧ n.id = id := by
  rw [find?, Option.map_eq_some_iff]
  constructor
  · rintro ⟨i, hi, rfl⟩
    exact ⟨g.node_mem i, position?_eq_some.mp hi⟩
  · rintro ⟨hn, hid⟩
    obtain ⟨i, rfl⟩ := exists_node hn
    exact ⟨i, position?_eq_some.mpr hid, rfl⟩

/-! ## Feeding -/

/-- A node with the id `u` has an edge to the id `v`. -/
def Feeds (g : Graph) (u v : String) : Prop :=
  ∃ n ∈ g.nodes.toList, n.id = u ∧ v ∈ n.successors

/-- Every edge leads to a node of the graph or to the sink. -/
def Closed (g : Graph) : Prop := ∀ u v, g.Feeds u v → v ∈ g.ids

/-- No id feeds itself, directly or through others. -/
def Acyclic (g : Graph) : Prop := ∀ id, ¬ Relation.TransGen g.Feeds id id

/-- Distinct nodes that feed each other in a circle. -/
structure IsCycle (g : Graph) (cycle : List String) : Prop where
  nonempty : cycle ≠ []
  distinct : cycle.Nodup
  nodes : ∀ id ∈ cycle, id ∈ g.ids
  linked : cycle.IsChain g.Feeds
  closing : g.Feeds (cycle.getLast nonempty) (cycle.head nonempty)

theorem feeds_node {i : Fin g.size} {id : String} :
    g.Feeds (g.node i).id id ↔ id ∈ (g.node i).successors := by
  constructor
  · rintro ⟨n, hn, hid, hmem⟩
    rwa [← eq_of_id_eq hn (g.node_mem i) hid]
  · intro hmem
    exact ⟨g.node i, g.node_mem i, rfl, hmem⟩

/-- Whoever feeds is a node. -/
theorem Feeds.source {u v : String} (h : g.Feeds u v) : u ∈ g.ids := by
  obtain ⟨n, hn, rfl, _⟩ := h
  exact List.mem_map_of_mem hn

/-- A graph with a cycle is not acyclic. -/
theorem IsCycle.not_acyclic {cycle : List String} (h : g.IsCycle cycle) : ¬ g.Acyclic := by
  intro hacyclic
  have hpath := List.relationReflTransGen_of_exists_isChain cycle h.linked h.nonempty
  exact hacyclic _ (Relation.TransGen.tail' hpath h.closing)

/-- A numbering that grows along every edge rules out cycles. -/
theorem acyclic_of_rank (rank : String → Nat)
    (h : ∀ u v, g.Feeds u v → rank u < rank v) : g.Acyclic := by
  have grows : ∀ u v, Relation.TransGen g.Feeds u v → rank u < rank v := by
    intro u v huv
    induction huv with
    | single huv => exact h _ _ huv
    | tail _ hlast ih => exact Nat.lt_trans ih (h _ _ hlast)
  intro id hid
  exact Nat.lt_irrefl _ (grows id id hid)

end Graph

end ShaderGraph
