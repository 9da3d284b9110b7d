import Mathlib.Algebra.BigOperators.Fin
import ShaderGraph.Proofs.Recursion

/-!
# The sweep over the roots

The search of a graph as it goes on turn by turn, with the roots that are still
to come and a count of its moves (`Sweep`), for any graph, whether or not its
edges lead somewhere or in circles:

* **states** — in every state that is reached, the stack, the marks and the
  nodes left so far agree (`Search.Consistent`), so that a node in progress is
  found wherever the search looks for it on the stack (`Search.Valid.step_closing`);
* **work** — every move takes exactly one unit off the work that is left
  (`Search.Valid.work_move`), which is the number of nodes and edges at the start
  (`Search.work_start`) and nothing at the end (`Search.work_eq_zero`);
* **end** — the turns are determined (`Sweep.Turn.unique`) and there is no endless
  row of them (`Sweep.wellFounded_turn`), so the search ends in one way, after a
  fixed number of moves and with the outcome of `order` (`ends_iff`).
-/

namespace ShaderGraph.Graph

variable {g : Graph}

/-! ## Turns -/

/-- The search between two turns. -/
structure Sweep (g : Graph) where
  /-- The nodes that have not had their turn as a root. -/
  roots : List (Fin g.size)
  search : Search g
  /-- The number of moves made so far. -/
  moves : Nat

/-- One turn of the search. Off the path, a root that has been visited is passed
over and any other begins a path; on the path, a move is made. -/
inductive Sweep.Turn : Sweep g → Sweep g → Prop
  | skip {root : Fin g.size} {roots : List (Fin g.size)} {s : Search g} {n : Nat} :
      s.path = [] → s.marks.get root ≠ .unvisited →
      Turn ⟨root :: roots, s, n⟩ ⟨roots, s, n⟩
  | enter {root : Fin g.size} {roots : List (Fin g.size)} {s : Search g} {n : Nat} :
      s.path = [] → s.marks.get root = .unvisited →
      Turn ⟨root :: roots, s, n⟩ ⟨roots, s.enter root, n⟩
  | move {roots : List (Fin g.size)} {s s' : Search g} {n : Nat} {f : Frame g}
      {below : List (Frame g)} :
      s.path = f :: below → s.step f below = .ok s' → Turn ⟨roots, s, n⟩ ⟨roots, s', n + 1⟩

/-- The sweep before its first turn: every node is still to come. -/
def Sweep.start (g : Graph) : Sweep g := ⟨List.finRange g.size, .start g, 0⟩

/-- The search of the graph gets to this point. -/
def Sweep.Reached (w : Sweep g) : Prop := Relation.ReflTransGen Sweep.Turn (.start g) w

/-- There are no more turns: the roots are used up, or the move that is due
fails. A move that fails counts. -/
inductive Sweep.Over : Sweep g → Nat → Except BuildError (List Node) → Prop
  | found {s : Search g} {n : Nat} : s.path = [] →
      Over ⟨[], s, n⟩ n (.ok (s.finished.map g.node))
  | failed {roots : List (Fin g.size)} {s : Search g} {n : Nat} {f : Frame g}
      {below : List (Frame g)} {err : BuildError} :
      s.path = f :: below → s.step f below = .error err → Over ⟨roots, s, n⟩ (n + 1) (.error err)

/-- The search of the graph ends with `outcome` after `n` moves. -/
def Ends (g : Graph) (n : Nat) (outcome : Except BuildError (List Node)) : Prop :=
  ∃ w : Sweep g, w.Reached ∧ w.Over n outcome

/-! ## States -/

/-- The path from its root on. -/
def Search.stack (s : Search g) : List (Frame g) := s.path.reverse

/-- The nodes left so far, the first one first. -/
def Search.postorder (s : Search g) : List (Fin g.size) := s.finished.reverse

/-- The state in the middle of a move, once the next edge has been counted as
followed. -/
def Search.advance (s : Search g) (f : Frame g) (below : List (Frame g)) : Search g :=
  { s with path := ⟨f.node, f.next + 1⟩ :: below }

/-- What ties the marks, the stack and the nodes left so far together. -/
structure Search.Consistent (s : Search g) : Prop where
  stackNodup : (s.stack.map (·.node)).Nodup
  onStack : ∀ i : Fin g.size, s.marks.get i = .inProgress ↔ i ∈ s.stack.map (·.node)
  /-- The edge last followed from a node of the stack leads to the node above it. -/
  linked : s.stack.IsChain (fun lower upper => lower.LeadsTo upper.node)
  doneNodup : s.postorder.Nodup
  isDone : ∀ i : Fin g.size, s.marks.get i = .done ↔ i ∈ s.postorder
  /-- Whatever a node that has been left feeds was left before it. -/
  settled : ∀ i : Fin g.size, s.marks.get i = .done → ∀ e ∈ (g.node i).edges, ∀ id,
    e.target? = some id → ∃ t, g.position? id = some t ∧ s.marks.get t = .done ∧
      s.postorder.idxOf t < s.postorder.idxOf i

theorem Search.map_node_stack (s : Search g) :
    s.stack.map (·.node) = (s.path.map (·.node)).reverse :=
  List.map_reverse

/-- In the reverse of a list where producers come first, they come after whatever
they feed. -/
theorem ProducersFirst.idxOf_reverse_lt {order : List (Fin g.size)} (hnodup : order.Nodup)
    (h : g.ProducersFirst order) {i : Fin g.size} (hi : i ∈ order) {id : String}
    (hid : id ∈ (g.node i).successors) :
    ∃ t ∈ order, (g.node t).id = id ∧ order.reverse.idxOf t < order.reverse.idxOf i := by
  induction order with
  | nil => cases hi
  | cons j rest ih =>
    obtain ⟨hhead, htail⟩ := h
    obtain ⟨hnew, hrest⟩ := List.nodup_cons.mp hnodup
    rw [List.reverse_cons]
    rcases List.mem_cons.mp hi with rfl | hi
    · -- the head comes behind all others in the reverse
      obtain ⟨t, ht, hid⟩ := hhead id hid
      have ht' : t ∈ rest.reverse := List.mem_reverse.mpr ht
      have hnew' : i ∉ rest.reverse := fun hmem => hnew (List.mem_reverse.mp hmem)
      refine ⟨t, List.mem_cons_of_mem _ ht, hid, ?_⟩
      rw [List.idxOf_append_of_mem ht', List.idxOf_append_of_notMem hnew']
      exact Nat.lt_add_right _ (List.idxOf_lt_length_of_mem ht')
    · obtain ⟨t, ht, hid, hlt⟩ := ih hrest htail hi
      refine ⟨t, List.mem_cons_of_mem _ ht, hid, ?_⟩
      rw [List.idxOf_append_of_mem (List.mem_reverse.mpr ht),
        List.idxOf_append_of_mem (List.mem_reverse.mpr hi)]
      exact hlt

theorem Search.Valid.consistent {s : Search g} (hv : s.Valid) : s.Consistent where
  stackNodup := by
    rw [s.map_node_stack]
    exact List.nodup_reverse.mpr hv.pathNodup
  onStack i := by
    rw [s.map_node_stack, List.mem_reverse]
    exact hv.onPath i
  linked := List.isChain_reverse.mpr hv.trail.isChain_leadsTo
  doneNodup := List.nodup_reverse.mpr hv.doneNodup
  isDone i := by
    rw [Search.postorder, List.mem_reverse]
    exact hv.isDone i
  settled := by
    intro i hi e he id hid
    have hsucc : id ∈ (g.node i).successors := Node.mem_successors.mpr ⟨e, he, hid⟩
    obtain ⟨t, ht, htid, hlt⟩ :=
      hv.producersFirst.idxOf_reverse_lt hv.doneNodup ((hv.isDone i).mp hi) hsucc
    exact ⟨t, position?_eq_some.mpr htid, (hv.isDone t).mpr ht, hlt⟩

/-- Counting an edge as followed changes neither the nodes of the stack nor the
edges that lead along it. -/
theorem Search.Consistent.advance {s : Search g} {f : Frame g} {below : List (Frame g)}
    (hc : s.Consistent) (hpath : s.path = f :: below) : (s.advance f below).Consistent := by
  have hnodes : (s.advance f below).stack.map (·.node) = s.stack.map (·.node) := by
    rw [Search.map_node_stack, Search.map_node_stack, hpath]
    rfl
  refine ⟨?_, ?_, ?_, hc.doneNodup, hc.isDone, hc.settled⟩
  · rw [hnodes]
    exact hc.stackNodup
  · intro i
    rw [hnodes]
    exact hc.onStack i
  · have hchain := List.isChain_reverse.mp hc.linked
    rw [hpath] at hchain
    refine List.isChain_reverse.mpr ?_
    cases below with
    | nil => exact .singleton _
    | cons b rest =>
      obtain ⟨hlead, hrest⟩ := List.isChain_cons_cons.mp hchain
      exact .cons_cons hlead hrest

/-- Wherever a node is found on a stack, the part of the path from it on is what
is left of the stack from there. -/
theorem cycleFrom_eq_drop {path : List (Frame g)} {t : Fin g.size} {k : Nat}
    (hnodup : (path.map (·.node)).Nodup) (hk : path.reverse.findIdx? (·.node == t) = some k) :
    cycleFrom path t = (path.reverse.drop k).map (fun f => (g.node f.node).id) := by
  obtain ⟨hlt, hfound, _⟩ := List.findIdx?_eq_some_iff_getElem.mp hk
  have hmem : t ∈ nodesOf path := by
    rw [nodesOf, ← List.map_reverse]
    exact List.mem_map.mpr ⟨path.reverse[k], List.getElem_mem hlt, by simpa using hfound⟩
  have hfirst : path.reverse.findIdx (fun f => !decide (f.node ≠ t)) = k := by
    rw [← (List.findIdx?_eq_some_iff_findIdx_eq.mp hk).2]
    simp [beq_eq_decide]
  calc
    _ = (((path.reverse).map (·.node)).dropWhile (· ≠ t)).map (fun i => (g.node i).id) := by
      rw [cycleFrom_eq_dropWhile (List.nodup_reverse.mpr hnodup) hmem, nodesOf, List.map_reverse]
    _ = (path.reverse.dropWhile (·.node ≠ t)).map (fun f => (g.node f.node).id) := by
      rw [List.dropWhile_map, List.map_map]
      rfl
    _ = _ := by rw [List.dropWhile_eq_drop_findIdx_not, hfirst]

/-- The move that is due looks for the node at `t` on the stack, from its root on,
finds it and reports the stack from there on as a cycle. -/
def Search.ClosesAt (s : Search g) (f : Frame g) (below : List (Frame g)) (t : Fin g.size) :
    Prop :=
  ∃ k, (s.advance f below).stack.findIdx? (·.node == t) = some k ∧
    s.step f below = .error (.cyclic
      (((s.advance f below).stack.drop k).map fun u => (g.node u.node).id))

/-- A move along an edge to a node in progress closes a cycle there. -/
theorem Search.Valid.step_closing {s : Search g} {f : Frame g} {below : List (Frame g)} {e : Edge}
    {id : String} {t : Fin g.size} (hv : s.Valid) (hpath : s.path = f :: below)
    (hedge : (g.node f.node).edges[f.next]? = some e) (htarget : e.target? = some id)
    (hposition : g.position? id = some t) (hmark : s.marks.get t = .inProgress) :
    s.ClosesAt f below t := by
  have hc := hv.consistent.advance hpath
  -- in progress means on the stack, so the search for the node succeeds
  obtain ⟨u, hu, hnode⟩ := List.mem_map.mp ((hc.onStack t).mp hmark)
  have hsome : ((s.advance f below).stack.findIdx? (·.node == t)).isSome := by
    rw [List.findIdx?_isSome, List.any_eq_true]
    exact ⟨u, hu, by simpa using hnode⟩
  obtain ⟨k, hk⟩ := Option.isSome_iff_exists.mp hsome
  refine ⟨k, hk, ?_⟩
  have hnodup : ((s.advance f below).path.map (·.node)).Nodup := by
    have := hv.pathNodup
    rw [hpath] at this
    exact this
  have hcycle := cycleFrom_eq_drop hnodup hk
  have hmark' : s.marks[t] = .inProgress := hmark
  unfold Search.step
  simp only [hedge, Edge.target?_eq_some.mp htarget, hposition, hmark']
  exact congrArg (fun cycle => Except.error (BuildError.cyclic cycle)) hcycle

/-! ## Work -/

theorem pending_of_unvisited {marks : Vector Mark g.size} {i : Fin g.size}
    (h : marks.get i = .unvisited) : pending marks i = g.degree i + 1 :=
  if_pos h

theorem pending_of_visited {marks : Vector Mark g.size} {i : Fin g.size}
    (h : marks.get i ≠ .unvisited) : pending marks i = 0 :=
  if_neg h

/-- Marking a node as visited takes off the moves that it needed, and no others. -/
theorem sum_pending_set (marks : Vector Mark g.size) (i : Fin g.size) {m : Mark}
    (hm : m ≠ .unvisited) :
    ∑ j, pending (marks.set i m i.isLt) j + pending marks i = ∑ j, pending marks j := by
  have hupdate : pending (marks.set i m i.isLt) = Function.update (pending marks) i 0 := by
    funext j
    show (if (marks.set i m i.isLt).get j = .unvisited then g.degree j + 1 else 0) = _
    rw [mark_set]
    by_cases hj : j = i
    · subst hj
      simp [hm]
    · rw [if_neg hj, Function.update_of_ne hj]
      rfl
  rw [hupdate, Finset.sum_update_of_mem (Finset.mem_univ i), Finset.sdiff_singleton_eq_erase,
    Nat.zero_add]
  exact Finset.sum_erase_add _ _ (Finset.mem_univ i)

theorem Search.work_eq (s : Search g) :
    s.work = ∑ i, pending s.marks i + (s.path.map Frame.left).sum := by
  rw [Search.work, Fin.sum_univ_def]
  exact List.sum_append

/-- At the start, a move is due for every node and every edge. -/
theorem Search.work_start (g : Graph) : (Search.start g).work = g.size + g.edgeCount := by
  have hpending : ∀ i : Fin g.size, pending (Search.start g).marks i = g.degree i + 1 := by
    intro i
    exact pending_of_unvisited (by simp [Search.start, Vector.get])
  have hdegrees : ∑ i, g.degree i = g.edgeCount := by
    calc
      _ = ((List.finRange g.size).map g.degree).sum := Fin.sum_univ_def _
      _ = (((List.finRange g.size).map g.node).map (·.edges.length)).sum := by
        rw [List.map_map]
        rfl
      _ = g.edgeCount := by simp [map_node_finRange, edgeCount, edges, List.length_flatMap]
  rw [Search.work_eq, Finset.sum_congr rfl fun i _ => hpending i, Finset.sum_add_distrib, hdegrees]
  simp [Search.start, Nat.add_comm]

/-- Beginning a path moves the work of its root onto the path. -/
theorem Search.work_enter {s : Search g} {root : Fin g.size} (hpath : s.path = [])
    (hmark : s.marks.get root = .unvisited) : (s.enter root).work = s.work := by
  have hsum := sum_pending_set s.marks root (m := .inProgress) (by simp)
  rw [pending_of_unvisited hmark] at hsum
  rw [Search.work_eq, Search.work_eq, hpath]
  simp only [Search.enter, List.map_cons, List.map_nil, List.sum_cons, List.sum_nil, Frame.left]
  omega

/-- Every move takes exactly one unit of work off. -/
theorem Search.Valid.work_move {s s' : Search g} {f : Frame g} {below : List (Frame g)}
    (hv : s.Valid) (hpath : s.path = f :: below) (h : s.Move f below s') :
    s'.work + 1 = s.work := by
  rw [Search.work_eq, Search.work_eq, hpath, List.map_cons, List.sum_cons, Frame.left]
  cases h with
  | leave hedge =>
    -- the node is in progress, so none of its moves is pending
    have hmark : s.marks.get f.node = .inProgress := by
      rw [hv.onPath, hpath]
      exact List.mem_cons_self
    have hsum := sum_pending_set s.marks f.node (m := .done) (by simp)
    rw [pending_of_visited (by rw [hmark]; simp)] at hsum
    have hlast : g.degree f.node ≤ f.next := List.getElem?_eq_none_iff.mp hedge
    simp only
    omega
  | pass hedge _ =>
    have hlt : f.next < g.degree f.node := (List.getElem?_eq_some_iff.mp hedge).1
    simp only [List.map_cons, List.sum_cons, Frame.left]
    omega
  | @descend e t hedge _ hmark =>
    have hlt : f.next < g.degree f.node := (List.getElem?_eq_some_iff.mp hedge).1
    have hsum := sum_pending_set s.marks t (m := .inProgress) (by simp)
    rw [pending_of_unvisited hmark] at hsum
    simp only [List.map_cons, List.sum_cons, Frame.left]
    omega

/-- There is work left as long as there is a path. -/
theorem Search.work_pos {s : Search g} {f : Frame g} {below : List (Frame g)}
    (hpath : s.path = f :: below) : 0 < s.work := by
  rw [Search.work_eq, hpath, List.map_cons, List.sum_cons, Frame.left]
  omega

/-- No work is left off the path once every node has been visited. -/
theorem Search.work_eq_zero {s : Search g} (hpath : s.path = [])
    (hall : ∀ i : Fin g.size, s.marks.get i ≠ .unvisited) : s.work = 0 := by
  rw [Search.work_eq, hpath, Finset.sum_congr rfl fun i _ => pending_of_visited (hall i)]
  simp

/-! ## What holds at every turn -/

theorem Sweep.Reached.search {w : Sweep g} (h : w.Reached) : Search.Reached g w.search := by
  induction h with
  | refl => exact .start
  | tail _ hturn ih =>
    cases hturn with
    | skip _ _ => exact ih
    | enter hpath hmark => exact ih.enter hpath hmark
    | move hpath hstep => exact ih.step hpath hstep

/-- The moves made and the work left add up to the nodes and edges. -/
theorem Sweep.Reached.moves_add_work {w : Sweep g} (h : w.Reached) :
    w.moves + w.search.work = g.size + g.edgeCount := by
  induction h with
  | refl =>
    rw [← Search.work_start]
    exact Nat.zero_add _
  | @tail w w' hw hturn ih =>
    cases hturn with
    | skip _ _ => exact ih
    | enter hpath hmark =>
      rw [Search.work_enter hpath hmark]
      exact ih
    | @move roots s s' n f below hpath hstep =>
      have hvalid : s.Valid := (Sweep.Reached.search hw).valid
      have hwork := hvalid.work_move hpath (Search.move_of_step hstep)
      simp only at ih ⊢
      omega

/-- A node that is not to come as a root has been visited. -/
theorem Sweep.Reached.visited {w : Sweep g} (h : w.Reached) (i : Fin g.size) :
    i ∈ w.roots ∨ w.search.marks.get i ≠ .unvisited := by
  induction h with
  | refl => exact .inl (List.mem_finRange i)
  | tail _ hturn ih =>
    cases hturn with
    | skip _ hmark =>
      rcases ih with hi | hi
      · rcases List.mem_cons.mp hi with rfl | hi
        · exact .inr hmark
        · exact .inl hi
      · exact .inr hi
    | @enter root roots s n _ _ =>
      rcases ih with hi | hi
      · rcases List.mem_cons.mp hi with rfl | hi
        · exact .inr (by simp [Search.enter, mark_set])
        · exact .inl hi
      · exact .inr (mark_set_visited hi root (by simp))
    | move _ hstep => exact ih.imp_right (Search.move_of_step hstep).visited

/-! ## The end -/

/-- A turn can be taken in one way only. -/
theorem Sweep.Turn.unique {w w₁ w₂ : Sweep g} (h₁ : w.Turn w₁) (h₂ : w.Turn w₂) : w₁ = w₂ := by
  cases h₁ with
  | skip hpath hmark =>
    cases h₂ with
    | skip _ _ => rfl
    | enter _ hmark' => exact absurd hmark' hmark
    | move hpath' _ => cases hpath.symm.trans hpath'
  | enter hpath hmark =>
    cases h₂ with
    | skip _ hmark' => exact absurd hmark hmark'
    | enter _ _ => rfl
    | move hpath' _ => cases hpath.symm.trans hpath'
  | move hpath hstep =>
    cases h₂ with
    | skip hpath' _ => cases hpath'.symm.trans hpath
    | enter hpath' _ => cases hpath'.symm.trans hpath
    | move hpath' hstep' =>
      cases hpath.symm.trans hpath'
      cases hstep.symm.trans hstep'
      rfl

/-- Every turn uses up work or a root. -/
theorem Sweep.Turn.decreases {w w' : Sweep g} (h : w.Turn w') :
    w'.search.work + w'.roots.length < w.search.work + w.roots.length := by
  cases h with
  | skip _ _ => simp
  | enter hpath hmark => simp [Search.work_enter hpath hmark]
  | move hpath hstep => exact Nat.add_lt_add_right (Search.work_step_lt hpath hstep) _

/-- There is no endless row of turns. -/
theorem Sweep.wellFounded_turn (g : Graph) : WellFounded fun w' w : Sweep g => w.Turn w' :=
  Subrelation.wf Sweep.Turn.decreases
    (measure fun w : Sweep g => w.search.work + w.roots.length).wf

theorem Sweep.Over.not_turn {w w' : Sweep g} {n : Nat} {outcome : Except BuildError (List Node)}
    (h : w.Over n outcome) : ¬ w.Turn w' := by
  intro hturn
  cases h with
  | found hpath =>
    cases hturn with
    | move hpath' _ => cases hpath.symm.trans hpath'
  | failed hpath hstep =>
    cases hturn with
    | skip hpath' _ => cases hpath'.symm.trans hpath
    | enter hpath' _ => cases hpath'.symm.trans hpath
    | move hpath' hstep' =>
      cases hpath.symm.trans hpath'
      cases hstep.symm.trans hstep'

theorem Sweep.turn_or_over (w : Sweep g) :
    (∃ w', w.Turn w') ∨ ∃ n outcome, w.Over n outcome := by
  obtain ⟨roots, s, n⟩ := w
  cases hpath : s.path with
  | nil =>
    cases roots with
    | nil => exact .inr ⟨_, _, .found hpath⟩
    | cons root roots =>
      by_cases hmark : s.marks.get root = .unvisited
      · exact .inl ⟨_, .enter hpath hmark⟩
      · exact .inl ⟨_, .skip hpath hmark⟩
  | cons f below =>
    cases hstep : s.step f below with
    | error err => exact .inr ⟨_, _, .failed hpath hstep⟩
    | ok s' => exact .inl ⟨_, .move hpath hstep⟩

/-- The search ends, wherever it has got to. -/
theorem Sweep.Reached.exists_ends {w : Sweep g} (h : w.Reached) :
    ∃ n outcome, g.Ends n outcome := by
  induction w using (Sweep.wellFounded_turn g).induction with
  | _ w ih =>
    rcases w.turn_or_over with ⟨w', hturn⟩ | ⟨n, outcome, hover⟩
    · exact ih w' hturn (Relation.ReflTransGen.tail h hturn)
    · exact ⟨n, outcome, w, h, hover⟩

/-- The number of moves at the end is the only one. -/
theorem Ends.moves_unique {n n' : Nat} {outcome outcome' : Except BuildError (List Node)}
    (h : g.Ends n outcome) (h' : g.Ends n' outcome') : n = n' := by
  obtain ⟨w, hw, hover⟩ := h
  obtain ⟨w', hw', hover'⟩ := h'
  have heq : w = w' := by
    -- one of the two comes after the other, and there is no turn after either
    have hunique : Relator.RightUnique (Sweep.Turn (g := g)) := fun _ _ _ => Sweep.Turn.unique
    rcases Relation.ReflTransGen.total_of_right_unique hunique hw hw' with hlater | hlater
    · rcases Relation.ReflTransGen.cases_head hlater with heq | ⟨_, hturn, _⟩
      · exact heq
      · exact absurd hturn hover.not_turn
    · rcases Relation.ReflTransGen.cases_head hlater with heq | ⟨_, hturn, _⟩
      · exact heq.symm
      · exact absurd hturn hover'.not_turn
  subst heq
  cases hover with
  | found hpath =>
    cases hover' with
    | found _ => rfl
    | failed hpath' _ => cases hpath.symm.trans hpath'
  | failed hpath _ =>
    cases hover' with
    | found hpath' => cases hpath'.symm.trans hpath
    | failed _ _ => rfl

/-- What the search has before it: the rest of the path and the roots to come. -/
def Sweep.rest (w : Sweep g) : Except BuildError (Search g) :=
  w.search.run >>= fun s => s.visit w.roots

/-- A turn leaves the outcome of the rest as it is. -/
theorem Sweep.Turn.rest_eq {w w' : Sweep g} (h : w.Turn w') : w.rest = w'.rest := by
  cases h with
  | @skip root roots s n hpath hmark =>
    unfold Sweep.rest
    rw [Search.run_of_nil hpath]
    show s.visit (root :: roots) = s.visit roots
    rw [Search.visit]
    exact if_neg hmark
  | @enter root roots s n hpath hmark =>
    unfold Sweep.rest
    rw [Search.run_of_nil hpath]
    show s.visit (root :: roots) = _
    rw [Search.visit, if_pos (show s.marks[root] = .unvisited from hmark)]
    cases (s.enter root).run with
    | error err => rfl
    | ok s' => rfl
  | move hpath hstep =>
    unfold Sweep.rest
    rw [Search.run_of_cons hpath, hstep]
    rfl

theorem Sweep.Reached.rest_eq {w : Sweep g} (h : w.Reached) :
    w.rest = (Search.start g).visit (List.finRange g.size) := by
  induction h with
  | refl =>
    unfold Sweep.rest
    rw [Search.run_of_nil rfl]
    rfl
  | tail _ hturn ih => rw [← hturn.rest_eq, ih]

/-- The search ends with the outcome of `order`. -/
theorem Ends.outcome_eq {n : Nat} {outcome : Except BuildError (List Node)}
    (h : g.Ends n outcome) : outcome = g.order := by
  obtain ⟨w, hw, hover⟩ := h
  unfold order
  rw [← hw.rest_eq, Sweep.rest]
  cases hover with
  | found hpath =>
    rw [Search.run_of_nil hpath]
    rfl
  | failed hpath hstep =>
    rw [Search.run_of_cons hpath, hstep]
    rfl

/-- There is one end, which the search comes to after a fixed number of moves. -/
theorem ends_iff (g : Graph) : ∃ n, ∀ m outcome, g.Ends m outcome ↔ m = n ∧ outcome = g.order := by
  obtain ⟨n, outcome, hends⟩ := Sweep.Reached.exists_ends (w := Sweep.start g) .refl
  have horder := hends.outcome_eq
  subst horder
  refine ⟨n, fun m outcome => ⟨fun h => ⟨h.moves_unique hends, h.outcome_eq⟩, ?_⟩⟩
  rintro ⟨rfl, rfl⟩
  exact hends

/-- A search makes no more moves than there are nodes and edges, and makes as many
if it does not fail. -/
theorem Ends.moves_le {n : Nat} {outcome : Except BuildError (List Node)}
    (h : g.Ends n outcome) : n ≤ g.size + g.edgeCount ∧
      ((∃ order, outcome = .ok order) → n = g.size + g.edgeCount) := by
  obtain ⟨w, hw, hover⟩ := h
  have hwork := hw.moves_add_work
  cases hover with
  | @found s n hpath =>
    have hall : ∀ i : Fin g.size, s.marks.get i ≠ .unvisited := by
      intro i
      exact (hw.visited i).resolve_left List.not_mem_nil
    rw [Search.work_eq_zero hpath hall] at hwork
    exact ⟨hwork.le, fun _ => hwork⟩
  | @failed roots s n f below err hpath hstep =>
    have hpos := Search.work_pos hpath
    refine ⟨by simp only at hwork; omega, ?_⟩
    rintro ⟨order, horder⟩
    cases horder

/-- The search of a graph keeps its parts together and comes to an end, for any
graph. In every state that is reached, and in the middle of every move, the nodes
on the stack are distinct and are those in progress, each is led to by the edge
last followed from the node below it, and the nodes left so far are distinct and
are those done, each after whatever it feeds; so a node in progress to which the
next edge leads is found on the stack. There is no endless row of turns and one
end, after at most as many moves as there are nodes and edges, and after as many
if an order is found. -/
theorem search_ends_consistently (g : Graph) :
    (∀ w : Sweep g, w.Reached → w.search.Consistent ∧
      ∀ f below e, w.search.path = f :: below → (g.node f.node).edges[f.next]? = some e →
        (w.search.advance f below).Consistent ∧
        ∀ id t, e.target? = some id → g.position? id = some t →
          w.search.marks.get t = .inProgress → w.search.ClosesAt f below t) ∧
    WellFounded (fun w' w : Sweep g => w.Turn w') ∧
    ∃ n, (∀ m outcome, g.Ends m outcome ↔ m = n ∧ outcome = g.order) ∧
      n ≤ g.size + g.edgeCount ∧
      ((∃ order, g.order = .ok order) → n = g.size + g.edgeCount) := by
  refine ⟨?_, Sweep.wellFounded_turn g, ?_⟩
  · intro w hw
    have hv := hw.search.valid
    refine ⟨hv.consistent, ?_⟩
    intro f below e hpath hedge
    refine ⟨hv.consistent.advance hpath, ?_⟩
    intro id t htarget hposition hmark
    exact hv.step_closing hpath hedge htarget hposition hmark
  · obtain ⟨n, hends⟩ := ends_iff g
    have hbound := ((hends n g.order).mpr ⟨rfl, rfl⟩).moves_le
    exact ⟨n, hends, hbound.1, hbound.2⟩

deriving instance DecidableEq for Search

/-- The search of the loop on its first path, which begins at `p`. -/
def loopSweep (marks : Vector Mark 4) (path : List (Fin 4 × Nat)) (left : List (Fin 4))
    (moves : Nat) : Sweep loop :=
  ⟨([1, 2, 3] : List (Fin 4)), ⟨marks, path.map fun f => ⟨f.1, f.2⟩, left⟩, moves⟩

/-- The search of the loop when it is back at `b` from `c`, with the edge to `a` next. -/
def loopReturn : Sweep loop :=
  loopSweep #v[.inProgress, .inProgress, .inProgress, .done] [(2, 1), (1, 1), (0, 1)] [3] 4

theorem loopReturn_reached : loopReturn.Reached := by
  have hp : (loopSweep #v[.inProgress, .unvisited, .unvisited, .unvisited] [(0, 0)] []
      0).Reached := .single (.enter rfl rfl)
  have ha : (loopSweep #v[.inProgress, .inProgress, .unvisited, .unvisited] [(1, 0), (0, 1)] []
      1).Reached := .tail hp (.move rfl (by decide +kernel))
  have hb : (loopSweep #v[.inProgress, .inProgress, .inProgress, .unvisited]
      [(2, 0), (1, 1), (0, 1)] [] 2).Reached := .tail ha (.move rfl (by decide +kernel))
  have hc : (loopSweep #v[.inProgress, .inProgress, .inProgress, .inProgress]
      [(3, 0), (2, 1), (1, 1), (0, 1)] [] 3).Reached := .tail hb (.move rfl (by decide +kernel))
  exact .tail hc (.move rfl (by decide +kernel))

/-- Back at `b`, the search of the loop finds `a` on the stack and fails in its fifth
move, of at most eight. That of the diamond makes all of its ten moves. -/
theorem search_ends_consistently_samples :
    (loopReturn.Reached ∧ ∃ f below t, loopReturn.search.path = f :: below ∧
      loop.position? "a" = some t ∧ loopReturn.search.marks.get t = .inProgress ∧
      (loopReturn.search.advance f below).Consistent ∧ loopReturn.search.ClosesAt f below t) ∧
    loop.Ends 5 (.error (.cyclic ["a", "b"])) ∧ loop.size + loop.edgeCount = 8 ∧
    diamond.Ends 10 diamond.order := by
  obtain ⟨hstates, _⟩ := search_ends_consistently loop
  obtain ⟨_, hedges⟩ := hstates loopReturn loopReturn_reached
  have hpath : loopReturn.search.path
      = ⟨(2 : Fin 4), 1⟩ :: [⟨(1 : Fin 4), 1⟩, ⟨(0 : Fin 4), 1⟩] := rfl
  have hposition : loop.position? "a" = some (1 : Fin 4) := position?_eq_some.mpr rfl
  obtain ⟨hconsistent, hclosing⟩ := hedges _ _ _ hpath rfl
  have hfound := hclosing "a" _ rfl hposition rfl
  obtain ⟨_, _, n, hends, _, hfull⟩ := search_ends_consistently diamond
  have horder : ∃ order, diamond.order = .ok order := by
    have hok : diamond.order.isOk = true := by decide +kernel
    cases h : diamond.order with
    | error err =>
      rw [h] at hok
      cases hok
    | ok order => exact ⟨order, rfl⟩
  have hten : 10 = n := (hfull horder).symm
  exact ⟨⟨loopReturn_reached, _, _, _, hpath, hposition, rfl, hconsistent, hfound⟩,
    ⟨loopReturn, loopReturn_reached, .failed hpath (by decide +kernel)⟩, rfl,
    (hends 10 _).mpr ⟨hten, rfl⟩⟩

end ShaderGraph.Graph
