import ShaderGraph.Graph.Order
import ShaderGraph.Proofs.Feeds

/-!
# The core of a graph

Not all that a graph file says about a node reaches the program. The core of a node
is what is left without edges to the sink, without a binding unless the node is
external, and without defines and outputs if it is.

The search for an order numbers the edges of a node, and the edges to the sink count
there. Searches of a graph and of its core are compared move by move:

* **moves** — a move along an edge to the sink leaves the core of the state as it is
  (`Search.step_sink`), and every other move is one of the core
  (`Search.core_step`);
* **searches** — so a search of the core ends as that of the graph does
  (`Search.core_run`, `Search.core_visit`).

`Graph.order_core` is the outcome: the order of the core is that of the graph.
-/

namespace ShaderGraph

/-! ## Nodes -/

/-- Whether an edge leads to a node. -/
def Edge.leads (e : Edge) : Bool := e.target != .sink

/-- An edge without an output if it leaves an external node. -/
def Edge.core (external : Bool) (e : Edge) : Edge :=
  { e with output := if external then none else e.output }

/-- A node with no more than its program depends on. -/
def Node.core (n : Node) : Node where
  id := n.id
  tag := n.tag
  defines := if n.isExternal then .empty else n.defines
  binding := if n.isExternal then n.binding else none
  edges := (n.edges.filter Edge.leads).map (Edge.core n.isExternal)

theorem Edge.leads_iff {e : Edge} : e.leads = true ↔ e.target ≠ .sink := bne_iff_ne

theorem Edge.leads_of_node {e : Edge} {id : String} (h : e.target = .node id) :
    e.leads = true := by
  rw [Edge.leads_iff, h]
  exact nofun

theorem Edge.not_leads_of_sink {e : Edge} (h : e.target = .sink) : e.leads = false := by
  rw [← Bool.not_eq_true, Edge.leads_iff, not_not]
  exact h

/-! ## Graphs -/

namespace Graph

variable {g : Graph}

/-- The graph of the cores of the nodes. -/
def core (g : Graph) : Graph where
  nodes := g.nodes.map Node.core
  distinct := by
    rw [Array.toList_map, List.map_map]
    exact g.distinct

theorem size_core (g : Graph) : g.core.size = g.size := Array.size_map

/-- The position of a node's core. -/
def toCore (g : Graph) (i : Fin g.size) : Fin g.core.size := i.cast g.size_core.symm

theorem toCore_inj {i j : Fin g.size} : g.toCore i = g.toCore j ↔ i = j := by
  simp [toCore, Fin.ext_iff]

theorem node_core (g : Graph) (i : Fin g.size) : g.core.node (g.toCore i) = (g.node i).core :=
  Array.getElem_map ..

theorem id_core (g : Graph) (i : Fin g.size) : (g.core.node (g.toCore i)).id = (g.node i).id := by
  rw [node_core]
  rfl

theorem ids_core (g : Graph) : g.core.ids = g.ids := by
  rw [ids, ids, core, Array.toList_map, List.map_map]
  rfl

theorem position?_core (g : Graph) (id : String) :
    g.core.position? id = (g.position? id).map g.toCore := by
  cases hposition : g.position? id with
  | none =>
    rw [Option.map_none, position?_eq_none, ids_core]
    exact position?_eq_none.mp hposition
  | some i =>
    rw [Option.map_some, position?_eq_some, node_core]
    exact position?_eq_some.mp hposition

theorem find?_core (g : Graph) (id : String) : g.core.find? id = (g.find? id).map Node.core := by
  rw [find?, find?, position?_core, Option.map_map, Option.map_map]
  congr 1
  funext i
  exact g.node_core i

/-! ## Frames -/

/-- A frame that counts only the edges to nodes. -/
def Frame.core (f : Frame g) : Frame g.core where
  node := g.toCore f.node
  next := ((g.node f.node).edges.take f.next).countP Edge.leads

/-- Past the first elements of a list, the next one that passes a test is found by
counting those before it. -/
theorem getElem?_filter_countP {α : Type} (p : α → Bool) (xs : List α) (k : Nat) :
    (xs.filter p)[(xs.take k).countP p]? = ((xs.drop k).filter p).head? := by
  have hsplit : xs.filter p = (xs.take k).filter p ++ (xs.drop k).filter p := by
    rw [← List.filter_append, List.take_append_drop]
  rw [hsplit, List.countP_eq_length_filter, List.getElem?_append_right (Nat.le_refl _),
    Nat.sub_self, List.head?_eq_getElem?]

theorem Frame.nextEdge_core (f : Frame g) :
    (g.core.node f.core.node).edges[f.core.next]? =
      (((g.node f.node).edges.drop f.next).filter Edge.leads).head?.map
        (Edge.core (g.node f.node).isExternal) := by
  show (g.core.node (g.toCore f.node)).edges[_]? = _
  rw [node_core]
  show (((g.node f.node).edges.filter Edge.leads).map _)[_]? = _
  rw [List.getElem?_map]
  congr 1
  exact getElem?_filter_countP Edge.leads _ f.next

theorem Frame.nextEdge_core_none {f : Frame g} (h : (g.node f.node).edges[f.next]? = none) :
    (g.core.node f.core.node).edges[f.core.next]? = none := by
  rw [nextEdge_core, List.drop_eq_nil_of_le (List.getElem?_eq_none_iff.mp h)]
  rfl

theorem Frame.nextEdge_core_some {f : Frame g} {e : Edge}
    (h : (g.node f.node).edges[f.next]? = some e) (hleads : e.leads = true) :
    (g.core.node f.core.node).edges[f.core.next]? = some (e.core (g.node f.node).isExternal) := by
  obtain ⟨hlt, rfl⟩ := List.getElem?_eq_some_iff.mp h
  rw [nextEdge_core, List.drop_eq_getElem_cons hlt, List.filter_cons_of_pos hleads]
  rfl

/-- An edge that has been followed counts in the core if it leads to a node. -/
theorem Frame.core_followed {f : Frame g} {e : Edge}
    (h : (g.node f.node).edges[f.next]? = some e) :
    (Frame.mk f.node (f.next + 1)).core =
      ⟨g.toCore f.node, f.core.next + if e.leads then 1 else 0⟩ := by
  have hcount : ((g.node f.node).edges.take (f.next + 1)).countP Edge.leads =
      ((g.node f.node).edges.take f.next).countP Edge.leads + if e.leads then 1 else 0 := by
    rw [List.take_add_one, h, List.countP_append]
    simp [List.countP_cons]
  unfold Frame.core
  rw [hcount]

/-! ## Moves -/

/-- The state of the search in the core. -/
def Search.core (s : Search g) : Search g.core where
  marks := s.marks.cast g.size_core.symm
  path := s.path.map Frame.core
  finished := s.finished.map g.toCore

theorem Search.mark_core (s : Search g) (i : Fin g.size) :
    getElem s.core.marks (g.toCore i) (g.toCore i).isLt = getElem s.marks i i.isLt := by
  simp [Search.core, toCore]

theorem Search.path_core {s : Search g} {f : Frame g} {below : List (Frame g)}
    (hpath : s.path = f :: below) : s.core.path = f.core :: below.map Frame.core := by
  rw [Search.core, hpath, List.map_cons]

theorem cycleFrom_core (path : List (Frame g)) (i : Fin g.size) :
    cycleFrom (path.map Frame.core) (g.toCore i) = cycleFrom path i := by
  have htest : ((fun f : Frame g.core => f.node != g.toCore i) ∘ Frame.core) =
      fun f : Frame g => f.node != i := by
    funext f
    show (g.toCore f.node != g.toCore i) = (f.node != i)
    rw [Bool.eq_iff_iff, bne_iff_ne, bne_iff_ne, ne_eq, ne_eq, toCore_inj]
  have hid : ((fun f : Frame g.core => (g.core.node f.node).id) ∘ Frame.core) =
      fun f : Frame g => (g.node f.node).id := by
    funext f
    exact g.id_core f.node
  unfold cycleFrom
  simp only [List.takeWhile_map, List.dropWhile_map, htest, ← List.map_take, ← List.map_append,
    ← List.map_reverse, List.map_map, hid]

/-- A move along an edge to the sink is none in the core. -/
theorem Search.step_sink {s s' : Search g} {f : Frame g} {below : List (Frame g)} {e : Edge}
    (hpath : s.path = f :: below) (he : (g.node f.node).edges[f.next]? = some e)
    (hsink : e.target = .sink) (h : s.step f below = .ok s') : s'.core = s.core := by
  have hframe : (Frame.mk f.node (f.next + 1)).core = f.core := by
    rw [Frame.core_followed he, Edge.not_leads_of_sink hsink]
    rfl
  simp only [Search.step, he, hsink] at h
  cases h
  simp only [Search.core, hpath, List.map_cons, hframe]

/-- Every other move of the search is a move in the core. -/
theorem Search.core_step (s : Search g) (f : Frame g) (below : List (Frame g))
    (hleads : ∀ e, (g.node f.node).edges[f.next]? = some e → e.target ≠ .sink) :
    s.core.step f.core (below.map Frame.core) = (s.step f below).map Search.core := by
  unfold Search.step
  cases he : (g.node f.node).edges[f.next]? with
  | none =>
    rw [Frame.nextEdge_core_none he]
    rfl
  | some e =>
    have hedge : e.leads = true := Edge.leads_iff.mpr (hleads e he)
    have hframe : (Frame.mk f.node (f.next + 1)).core = ⟨f.core.node, f.core.next + 1⟩ := by
      rw [Frame.core_followed he, hedge]
      rfl
    rw [Frame.nextEdge_core_some he hedge]
    cases htarget : e.target with
    | sink => exact absurd htarget (hleads e he)
    | node id =>
      simp only [Edge.core, htarget, position?_core]
      cases hposition : g.position? id with
      | none =>
        show Except.error (BuildError.unknownTarget (g.core.node (g.toCore f.node)).id id) = _
        rw [id_core]
        rfl
      | some target =>
        simp only [Option.map_some, s.mark_core target]
        cases s.marks[target] with
        | unvisited =>
          simp only [Except.map, Search.core, List.map_cons, hframe]
          rfl
        | inProgress =>
          rw [← hframe, ← List.map_cons, cycleFrom_core]
          rfl
        | done =>
          simp only [Except.map, Search.core, List.map_cons, hframe]

/-! ## Searches -/

theorem Search.run_of_nil {s : Search g} (hpath : s.path = []) : s.run = .ok s := by
  rw [Search.run]
  split
  · rfl
  · next hcons =>
    rw [hpath] at hcons
    cases hcons

theorem Search.run_of_cons {s : Search g} {f : Frame g} {below : List (Frame g)}
    (hpath : s.path = f :: below) : s.run = s.step f below >>= Search.run := by
  rw [Search.run]
  split
  · next hnil =>
    rw [hpath] at hnil
    cases hnil
  · next hcons =>
    cases hpath.symm.trans hcons
    split
    · next hstep => rw [hstep]; rfl
    · next hstep => rw [hstep]; rfl

/-- Running the search in the core gives the core of what the search gives. -/
theorem Search.core_run (s : Search g) : s.core.run = s.run.map Search.core := by
  -- along the moves of the graph, of which the core may have fewer
  fun_induction Search.run s with
  | case1 s hpath =>
    have hcore : s.core.path = [] := by rw [Search.core, hpath, List.map_nil]
    rw [Search.run_of_nil hcore]
    rfl
  | case2 s f below hpath err hstep =>
    have hcore := Search.path_core hpath
    have hleads : ∀ e, (g.node f.node).edges[f.next]? = some e → e.target ≠ .sink := by
      intro e he hsink
      simp [Search.step, he, hsink] at hstep
    rw [Search.run_of_cons hcore, s.core_step f below hleads, hstep]
    rfl
  | case3 s f below hpath s' hstep ih =>
    have hcore := Search.path_core hpath
    by_cases hsink : ∃ e, (g.node f.node).edges[f.next]? = some e ∧ e.target = .sink
    · -- the core stays where it is
      obtain ⟨e, he, hsink⟩ := hsink
      rw [← Search.step_sink hpath he hsink hstep]
      exact ih
    · have hleads : ∀ e, (g.node f.node).edges[f.next]? = some e → e.target ≠ .sink :=
        fun e he heq => hsink ⟨e, he, heq⟩
      rw [Search.run_of_cons hcore, s.core_step f below hleads, hstep]
      exact ih

theorem Search.core_enter (s : Search g) (root : Fin g.size) :
    (s.enter root).core = s.core.enter (g.toCore root) := rfl

theorem Search.core_visit (s : Search g) (roots : List (Fin g.size)) :
    s.core.visit (roots.map g.toCore) = (s.visit roots).map Search.core := by
  induction roots generalizing s with
  | nil => rfl
  | cons root rest ih =>
    rw [List.map_cons, Search.visit, Search.visit, s.mark_core root]
    split
    · rw [← s.core_enter root, Search.core_run]
      cases (s.enter root).run with
      | error err => rfl
      | ok s' => exact ih s'
    · exact ih s

theorem cast_replicate {α : Type} {n m : Nat} (h : n = m) (x : α) :
    (Vector.replicate n x).cast h = Vector.replicate m x := by
  subst h
  rfl

theorem Search.core_start (g : Graph) : (Search.start g).core = Search.start g.core := by
  unfold Search.start Search.core
  rw [cast_replicate]
  rfl

theorem map_finRange_cast {n m : Nat} (h : n = m) :
    (List.finRange n).map (Fin.cast h) = List.finRange m := by
  subst h
  exact List.map_id _

/-- The core of a graph has the cores of its nodes for its order, or none for the
same reason. -/
theorem order_core (g : Graph) : g.core.order = g.order.map (·.map Node.core) := by
  have hroots : List.finRange g.core.size = (List.finRange g.size).map g.toCore :=
    (map_finRange_cast g.size_core.symm).symm
  unfold order
  rw [← Search.core_start, hroots, Search.core_visit]
  cases (Search.start g).visit (List.finRange g.size) with
  | error err => rfl
  | ok s =>
    have hnodes : g.core.node ∘ g.toCore = Node.core ∘ g.node := funext g.node_core
    show Except.ok ((s.finished.map g.toCore).map g.core.node) = _
    rw [List.map_map, hnodes, ← List.map_map]
    rfl

end Graph

end ShaderGraph
