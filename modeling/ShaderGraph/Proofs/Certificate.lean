import Mathlib.Data.List.Perm.Subperm
import ShaderGraph.Graph.Certificate
import ShaderGraph.Proofs.Feeds

/-!
# What a certificate certifies

A list of ids is an order of a graph (`IsOrder`) if it lists every id of the
graph once and every edge leads from an earlier place to a later one.
`certify_passes_iff` says that this is what `certify` checks. Completeness is
checked by counting only, and places are looked up in a table that keeps the
last place of an id, so neither check says much without the other: once the list
is known to repeat nothing, the last place is the only one (`rank?_eq_some`).
`certify_exact` says it of the edges one by one, and what follows for graphs that
have no order.
-/

namespace ShaderGraph.Graph

variable {g : Graph}

/-- The ids of a graph, each once, with every edge leading forward. -/
structure IsOrder (g : Graph) (order : List String) : Prop where
  complete : order.Perm g.ids
  forward : ∀ u v, g.Feeds u v → v ∈ order ∧ order.idxOf u < order.idxOf v

theorem IsOrder.nodup {order : List String} (h : g.IsOrder order) : order.Nodup :=
  h.complete.nodup_iff.mpr g.distinct

/-- A graph that has an order leads nowhere outside itself. -/
theorem IsOrder.closed {order : List String} (h : g.IsOrder order) : g.Closed := by
  intro u v huv
  exact h.complete.mem_iff.mp (h.forward u v huv).1

/-- A graph that has an order has no cycle: places grow along every edge. -/
theorem IsOrder.acyclic {order : List String} (h : g.IsOrder order) : g.Acyclic :=
  acyclic_of_rank order.idxOf fun u v huv => (h.forward u v huv).2

/-- Feeding is well-founded in a graph that has an order. -/
theorem IsOrder.wellFounded {order : List String} (h : g.IsOrder order) : WellFounded g.Feeds :=
  Subrelation.wf (fun {u v} huv => (h.forward u v huv).2) (measure order.idxOf).wf

/-! ## Completeness -/

theorem noRepeats_iff (order : List String) : noRepeats order = true ↔ order.Nodup := by
  induction order with
  | nil => simp [noRepeats]
  | cons x rest ih =>
    rw [noRepeats, Bool.and_eq_true, ih, List.nodup_cons]
    simp

/-- As many distinct ids of the graph as it has nodes are all of them. -/
theorem isComplete_iff (order : List String) :
    g.isComplete order = true ↔ order.Perm g.ids := by
  have hlength : g.ids.length = g.size := by simp [ids]
  rw [isComplete, Bool.and_eq_true, Bool.and_eq_true, beq_iff_eq, List.all_eq_true, noRepeats_iff,
    ← hlength]
  constructor
  · rintro ⟨⟨hcount, hall⟩, hnodup⟩
    have hsubset : order ⊆ g.ids := fun id hid => contains_iff.mp (hall id hid)
    exact (hnodup.subperm hsubset).perm_of_length_le hcount.ge
  · intro hperm
    refine ⟨⟨hperm.length_eq, ?_⟩, hperm.nodup_iff.mpr g.distinct⟩
    intro id hid
    exact contains_iff.mpr (hperm.mem_iff.mp hid)

/-! ## Places -/

theorem rank?_eq_none {id : String} {order : List String} (h : id ∉ order) :
    rank? id order = none := by
  induction order with
  | nil => rfl
  | cons x rest ih =>
    rw [List.mem_cons, not_or] at h
    rw [rank?, ih h.2]
    exact if_neg (Ne.symm h.1)

/-- In a list without repeats the last place of an id is its place. -/
theorem rank?_eq_some {id : String} {order : List String} (hnodup : order.Nodup)
    (h : id ∈ order) : rank? id order = some (order.idxOf id) := by
  induction order with
  | nil => cases h
  | cons x rest ih =>
    rw [List.nodup_cons] at hnodup
    by_cases hx : x = id
    · -- the rest does not list the id again, so no later place replaces this one
      subst hx
      rw [rank?, rank?_eq_none hnodup.1]
      simp
    · have hrest : id ∈ rest := (List.mem_cons.mp h).resolve_left (Ne.symm hx)
      rw [rank?, ih hnodup.2 hrest, List.idxOf_cons_ne _ hx]

theorem leadsForward_iff {order : List String} {n : Node} {e : Edge} (hnodup : order.Nodup)
    (hn : n.id ∈ order) :
    leadsForward order n e = true ↔
      ∀ v, e.target? = some v → v ∈ order ∧ order.idxOf n.id < order.idxOf v := by
  unfold leadsForward
  split
  · next hsink => simp [hsink]
  · next v hv =>
    rw [hv, rank?_eq_some hnodup hn]
    by_cases hmem : v ∈ order
    · rw [rank?_eq_some hnodup hmem]
      simp [hmem]
    · rw [rank?_eq_none hmem]
      simp [hmem]

/-- The edges of the graph are those of its nodes. -/
theorem mem_edges {n : Node} {e : Edge} :
    (n, e) ∈ g.edges ↔ n ∈ g.nodes.toList ∧ e ∈ n.edges := by
  rw [edges, List.mem_flatMap]
  constructor
  · rintro ⟨m, hm, hpair⟩
    obtain ⟨e', he', heq⟩ := List.mem_map.mp hpair
    cases heq
    exact ⟨hm, he'⟩
  · rintro ⟨hn, he⟩
    exact ⟨n, hn, List.mem_map_of_mem he⟩

/-- In a complete list, the edges lead forward one by one exactly if feeding
does. -/
theorem isOrdered_iff {order : List String} (hperm : order.Perm g.ids) :
    g.isOrdered order = true ↔
      ∀ u v, g.Feeds u v → v ∈ order ∧ order.idxOf u < order.idxOf v := by
  have hnodup : order.Nodup := hperm.nodup_iff.mpr g.distinct
  have hmem : ∀ n ∈ g.nodes.toList, n.id ∈ order := fun n hn =>
    hperm.mem_iff.mpr (List.mem_map_of_mem hn)
  rw [isOrdered, List.all_eq_true]
  constructor
  · rintro hall u v ⟨n, hn, rfl, hv⟩
    obtain ⟨e, he, htarget⟩ := Node.mem_successors.mp hv
    exact (leadsForward_iff hnodup (hmem n hn)).mp (hall (n, e) (mem_edges.mpr ⟨hn, he⟩)) v htarget
  · rintro hforward ⟨n, e⟩ hedge
    obtain ⟨hn, he⟩ := mem_edges.mp hedge
    rw [leadsForward_iff hnodup (hmem n hn)]
    intro v htarget
    exact hforward n.id v ⟨n, hn, rfl, Node.mem_successors.mpr ⟨e, he, htarget⟩⟩

/-- A certificate passes exactly on the orders of the graph. -/
theorem certify_passes_iff (order : List String) :
    (g.certify order).passes = true ↔ g.IsOrder order := by
  show (g.isComplete order && g.isOrdered order) = true ↔ _
  rw [Bool.and_eq_true, isComplete_iff]
  constructor
  · rintro ⟨hperm, hordered⟩
    exact ⟨hperm, (isOrdered_iff hperm).mp hordered⟩
  · rintro ⟨hperm, hforward⟩
    exact ⟨hperm, (isOrdered_iff hperm).mpr hforward⟩

/-- A list of ids, of any length and with any repeats, is certified as complete
exactly if it is a permutation of the ids of the graph. The certificate passes
exactly if, besides, the source of every edge that is not to the sink has its
place before that of the target; so no list passes for a graph with a cycle or
with an edge to no node. -/
theorem certify_exact (g : Graph) (order : List String) :
    ((g.certify order).complete = true ↔ order.Perm g.ids) ∧
    ((g.certify order).passes = true ↔ order.Perm g.ids ∧
      ∀ u ∈ g.nodes.toList, ∀ e ∈ u.edges, ∀ v, e.target? = some v →
        v ∈ order ∧ order.idxOf u.id < order.idxOf v) ∧
    (¬ g.Acyclic ∨ ¬ g.Closed → (g.certify order).passes = false) := by
  refine ⟨isComplete_iff order, ?_, ?_⟩
  · rw [certify_passes_iff]
    constructor
    · intro h
      refine ⟨h.complete, ?_⟩
      intro u hu e he v htarget
      exact h.forward u.id v ⟨u, hu, rfl, Node.mem_successors.mpr ⟨e, he, htarget⟩⟩
    · rintro ⟨hperm, hforward⟩
      refine ⟨hperm, ?_⟩
      rintro _ v ⟨u, hu, rfl, hv⟩
      obtain ⟨e, he, htarget⟩ := Node.mem_successors.mp hv
      exact hforward u hu e he v htarget
  · intro hfault
    rw [Bool.eq_false_iff, ne_eq, certify_passes_iff]
    intro h
    rcases hfault with hcyclic | hopen
    · exact hcyclic h.acyclic
    · exact hopen h.closed

/-- Two nodes that feed each other. -/
def seesaw : Graph where
  nodes := #[(Node.ofType "a" "tint").addEdge "b" "x" none,
    (Node.ofType "b" "tint").addEdge "a" "x" none]
  distinct := by decide

/-- Listing both of them is complete and does not pass. -/
theorem certify_exact_seesaw :
    (seesaw.certify ["b", "a"]).complete = true ∧ ¬ seesaw.Acyclic ∧
      (seesaw.certify ["b", "a"]).passes = false := by
  have hcyclic : ¬ seesaw.Acyclic := by
    intro hacyclic
    have hforth : seesaw.Feeds "a" "b" := ⟨_, .head _, rfl, by decide⟩
    have hback : seesaw.Feeds "b" "a" := ⟨_, .tail _ (.head _), rfl, by decide⟩
    exact hacyclic "a" (.tail (.single hforth) hback)
  obtain ⟨hcomplete, _, hfails⟩ := certify_exact seesaw ["b", "a"]
  exact ⟨hcomplete.mpr (by decide), hcyclic, hfails (.inl hcyclic)⟩

end ShaderGraph.Graph
