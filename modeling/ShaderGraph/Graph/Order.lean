import ShaderGraph.Graph

/-!
# Producers first

`order` lists the nodes of a graph so that each comes before the nodes it
feeds. It searches the graph in depth from every node in turn, along its edges
in order, and lists the nodes in the reverse of the order in which the search
leaves them. The search fails on an edge that leads to no node and on an edge
back to a node of the current path, which closes a cycle.

The search is a machine: its state is the marks of the nodes, the current path
with the number of edges followed from each of its nodes, and the nodes left so
far. Every move takes one unit off `Search.work`, which starts at the number of
nodes and edges.
-/

namespace ShaderGraph.Graph

variable {g : Graph}

/-- How far the search is with a node. -/
inductive Mark where
  | unvisited
  | inProgress
  | done
deriving DecidableEq, Repr

/-- A node on the current path and the number of its edges followed so far. -/
structure Frame (g : Graph) where
  node : Fin g.size
  next : Nat
deriving DecidableEq

/-- The state of the search. -/
structure Search (g : Graph) where
  marks : Vector Mark g.size
  /-- The current path, its last node first. -/
  path : List (Frame g)
  /-- The nodes left so far, the last one first. -/
  finished : List (Fin g.size)

/-- The number of edges of a node. -/
def degree (g : Graph) (i : Fin g.size) : Nat := (g.node i).edges.length

/-- The moves that a node still needs if it has not been visited. -/
def pending (marks : Vector Mark g.size) (i : Fin g.size) : Nat :=
  if marks[i] = .unvisited then g.degree i + 1 else 0

/-- The moves that a node on the path still needs. -/
def Frame.left (f : Frame g) : Nat := g.degree f.node - f.next + 1

/-- The moves that are left. -/
def Search.work (s : Search g) : Nat :=
  -- the zero is spelled out, or it would depend on which algebra is imported
  @List.sum Nat _ ⟨0⟩ ((List.finRange g.size).map (pending s.marks) ++ s.path.map Frame.left)

/-- The ids on a path from the node `i` on. -/
def cycleFrom (path : List (Frame g)) (i : Fin g.size) : List String :=
  let above := path.takeWhile (·.node != i)
  let here := (path.dropWhile (·.node != i)).take 1
  (above ++ here).reverse.map (fun f => (g.node f.node).id)

/-- One move of the search, at the end `f` of its path: follow the next edge, or
leave the node if there is none. -/
def Search.step (s : Search g) (f : Frame g) (below : List (Frame g)) :
    Except BuildError (Search g) :=
  match (g.node f.node).edges[f.next]? with
  | none => .ok ⟨s.marks.set f.node .done, below, f.node :: s.finished⟩
  | some e =>
    let path := ⟨f.node, f.next + 1⟩ :: below
    match e.target with
    | .sink => .ok { s with path := path }
    | .node id =>
      match g.position? id with
      | none => .error (.unknownTarget (g.node f.node).id id)
      | some target =>
        match s.marks[target] with
        | .unvisited => .ok ⟨s.marks.set target .inProgress, ⟨target, 0⟩ :: path, s.finished⟩
        | .inProgress => .error (.cyclic (cycleFrom path target))
        | .done => .ok { s with path := path }

/-! ## Termination -/

/-- Sums grow with their terms. -/
private theorem sum_map_mono {α : Type} {p q : α → Nat} (xs : List α) (h : ∀ x, p x ≤ q x) :
    @List.sum Nat _ ⟨0⟩ (xs.map p) ≤ @List.sum Nat _ ⟨0⟩ (xs.map q) := by
  induction xs with
  | nil => exact Nat.le_refl _
  | cons x xs ih => exact Nat.add_le_add (h x) ih

/-- Marking a node as visited adds no work. -/
theorem pending_set_le (marks : Vector Mark g.size) (i : Fin g.size) {m : Mark}
    (hm : m ≠ .unvisited) (j : Fin g.size) : pending (marks.set i m) j ≤ pending marks j := by
  unfold pending
  by_cases hij : i = j
  · subst hij
    simp [hm]
  · have : (i : Nat) ≠ j := fun h => hij (Fin.ext h)
    simp [this]

/-- Every move takes work off. -/
theorem Search.work_step_lt {s s' : Search g} {f : Frame g} {below : List (Frame g)}
    (hpath : s.path = f :: below) (h : s.step f below = .ok s') : s'.work < s.work := by
  unfold Search.step at h
  split at h
  · cases h
    have := sum_map_mono (List.finRange g.size)
      (pending_set_le s.marks f.node (m := .done) (by decide))
    simp only [work, hpath, List.sum_append_nat, List.map_cons, List.sum_cons, Frame.left]
    omega
  · next e he =>
    have hlt : f.next < g.degree f.node := (List.getElem?_eq_some_iff.mp he).1
    simp only at h
    split at h
    · cases h
      simp only [work, hpath, List.sum_append_nat, List.map_cons, List.sum_cons, Frame.left]
      omega
    · split at h
      · cases h
      · next target _ =>
        split at h
        · next hmark =>
          cases h
          have hp : pending (s.marks.set target .inProgress) target + (g.degree target + 1)
              ≤ pending s.marks target := by
            simp [pending, hmark]
          have hle := pending_set_le s.marks target (m := .inProgress) (by decide)
          -- the work of the target goes, and no other node gets more
          obtain ⟨front, back, hnodes⟩ := List.append_of_mem (List.mem_finRange target)
          have hfront := sum_map_mono front hle
          have hback := sum_map_mono back hle
          simp only [work, hpath, hnodes, List.map_append, List.sum_append_nat, List.map_cons,
            List.sum_cons, Frame.left]
          omega
        · cases h
        · cases h
          simp only [work, hpath, List.sum_append_nat, List.map_cons, List.sum_cons, Frame.left]
          omega

/-! ## The search -/

/-- Move until the path is empty. -/
def Search.run (s : Search g) : Except BuildError (Search g) :=
  match _hpath : s.path with
  | [] => .ok s
  | f :: below =>
    match _hstep : s.step f below with
    | .error e => .error e
    | .ok s' => s'.run
termination_by s.work
decreasing_by exact Search.work_step_lt _hpath _hstep

/-- The state before the search. -/
def Search.start (g : Graph) : Search g := ⟨Vector.replicate g.size .unvisited, [], []⟩

/-- Begin a path at a node. -/
def Search.enter (s : Search g) (root : Fin g.size) : Search g :=
  { s with marks := s.marks.set root .inProgress, path := [⟨root, 0⟩] }

/-- Search from each of the roots that has not been visited when its turn
comes. -/
def Search.visit (s : Search g) : List (Fin g.size) → Except BuildError (Search g)
  | [] => .ok s
  | root :: rest =>
    if s.marks[root] = .unvisited then
      match (s.enter root).run with
      | .error e => .error e
      | .ok s' => s'.visit rest
    else s.visit rest

/-- The nodes of a graph, producers first. -/
def order (g : Graph) : Except BuildError (List Node) :=
  match (Search.start g).visit (List.finRange g.size) with
  | .error e => .error e
  | .ok s => .ok (s.finished.map g.node)

end ShaderGraph.Graph
