import Mathlib.Data.Fintype.Card
import ShaderGraph.Proofs.Core
import ShaderGraph.Proofs.Order

/-!
# The search as a recursion

What the search of a graph does with marks and a path of frames can be said by a
recursive procedure (`recursiveOrder`), which has neither: a node is in progress
while it is on the path of the call, and done once it is among the nodes
visited.

* **termination** — a node is explored only if the path does not lead through it,
  so every call of `explore` leaves fewer nodes off the path
  (`offPath_concat_lt`);
* **states** — the marks of the search follow from its path and its finished
  nodes (`Search.ofPath`), and a move depends on the next edge only through its
  target (`Search.step_ofPath`);
* **refinement** — running the search from a path comes to following the targets
  left at its end and then running it from the path below (`Search.follows`), so
  the search and the procedure give the same order or the same error
  (`order_eq_recursiveOrder`).
-/

namespace ShaderGraph.Graph

variable {g : Graph}

/-! ## The procedure -/

/-- The number of nodes that a path does not lead through. -/
def offPath (g : Graph) (path : List (Fin g.size)) : Nat :=
  (Finset.univ.filter (· ∉ path)).card

/-- A path that goes on to a new node leaves fewer nodes off it. -/
theorem offPath_concat_lt {path : List (Fin g.size)} {i : Fin g.size} (hi : i ∉ path) :
    g.offPath (path ++ [i]) < g.offPath path := by
  apply Finset.card_lt_card
  rw [Finset.ssubset_iff_of_subset]
  · exact ⟨i, by simpa using hi, by simp⟩
  · intro j hj
    simp only [Finset.mem_filter, Finset.mem_univ, true_and, List.mem_append, not_or] at hj ⊢
    exact hj.1

mutual

/-- Explore a node that the path does not lead through: it is in progress until
its targets have been followed, and is then appended to the nodes visited. -/
def explore (g : Graph) (path : List (Fin g.size)) (i : Fin g.size) (_hi : i ∉ path)
    (visited : List (Fin g.size)) : Except BuildError (List (Fin g.size)) := do
  let visited ← g.follow (path ++ [i]) i (g.node i).successors visited
  return visited ++ [i]
termination_by (g.offPath path, 0)
decreasing_by exact .left _ _ (offPath_concat_lt _hi)

/-- Follow targets of the node at `i`, the end of the path, in order: one in
progress closes a cycle, one visited before is passed over, any other is
explored. -/
def follow (g : Graph) (path : List (Fin g.size)) (i : Fin g.size) (targets : List String)
    (visited : List (Fin g.size)) : Except BuildError (List (Fin g.size)) :=
  match targets with
  | [] => return visited
  | id :: rest =>
    match g.position? id with
    | none => throw (.unknownTarget (g.node i).id id)
    | some j =>
      if hj : j ∈ path then
        throw (.cyclic ((path.dropWhile (· ≠ j)).map fun k => (g.node k).id))
      else if j ∈ visited then g.follow path i rest visited
      else do
        let visited ← g.explore path j hj visited
        g.follow path i rest visited
termination_by (g.offPath path, targets.length)

end

/-- Explore each of the roots that has not been visited when its turn comes. -/
def exploreEach (g : Graph) : (roots visited : List (Fin g.size)) →
    Except BuildError (List (Fin g.size))
  | [], visited => return visited
  | root :: rest, visited =>
    if root ∈ visited then g.exploreEach rest visited
    else do
      let visited ← g.explore [] root List.not_mem_nil visited
      g.exploreEach rest visited

/-- Explore the nodes of a graph in order and reverse the list of nodes
visited. -/
def recursiveOrder (g : Graph) : Except BuildError (List Node) := do
  let visited ← g.exploreEach (List.finRange g.size) []
  return visited.reverse.map g.node

/-! ## The state of the search -/

/-- The nodes of a path of frames, from its root on. -/
def nodesOf (path : List (Frame g)) : List (Fin g.size) := (path.map (·.node)).reverse

@[simp] theorem nodesOf_nil : nodesOf ([] : List (Frame g)) = [] := rfl

@[simp] theorem nodesOf_cons (f : Frame g) (below : List (Frame g)) :
    nodesOf (f :: below) = nodesOf below ++ [f.node] := by
  simp [nodesOf]

/-- The mark of a node: in progress on the path, and done once it is finished. -/
def markOf (path finished : List (Fin g.size)) (i : Fin g.size) : Mark :=
  if i ∈ path then .inProgress else if i ∈ finished then .done else .unvisited

/-- The state of the search with the given path and finished nodes. -/
def Search.ofPath (path : List (Frame g)) (finished : List (Fin g.size)) : Search g :=
  ⟨Vector.ofFn (markOf (nodesOf path) finished), path, finished⟩

theorem Search.mark_ofPath (path : List (Frame g)) (finished : List (Fin g.size))
    (i : Fin g.size) :
    (Search.ofPath path finished).marks.get i = markOf (nodesOf path) finished i := by
  show (Vector.ofFn (markOf (nodesOf path) finished))[i] = _
  simp

/-- A state is determined by its path and its finished nodes if they account for
its marks. -/
theorem Search.eq_ofPath {marks : Vector Mark g.size} {path : List (Frame g)}
    {finished : List (Fin g.size)}
    (h : ∀ i : Fin g.size, marks.get i = markOf (nodesOf path) finished i) :
    (⟨marks, path, finished⟩ : Search g) = Search.ofPath path finished := by
  have hmarks : marks = (Search.ofPath path finished).marks := by
    apply Vector.ext
    intro k hk
    exact (h ⟨k, hk⟩).trans (Search.mark_ofPath path finished ⟨k, hk⟩).symm
  rw [hmarks]
  rfl

theorem Search.start_eq_ofPath : Search.start g = Search.ofPath [] [] := by
  apply Search.eq_ofPath
  intro i
  simp [markOf, Vector.get]

theorem Search.enter_ofPath (finished : List (Fin g.size)) (root : Fin g.size) :
    (Search.ofPath [] finished).enter root = Search.ofPath [⟨root, 0⟩] finished := by
  show (⟨(Search.ofPath [] finished).marks.set root .inProgress root.isLt, _, finished⟩ : Search g)
    = _
  apply Search.eq_ofPath
  intro i
  rw [mark_set, Search.mark_ofPath]
  simp [markOf]

/-- The node at the end of the path is finished. -/
theorem Search.ofPath_leave {f : Frame g} {below : List (Frame g)} (finished : List (Fin g.size))
    (hnew : f.node ∉ nodesOf below) :
    (⟨(Search.ofPath (f :: below) finished).marks.set f.node .done f.node.isLt, below,
        f.node :: finished⟩ : Search g)
      = Search.ofPath below (f.node :: finished) := by
  apply Search.eq_ofPath
  intro i
  rw [mark_set, Search.mark_ofPath]
  by_cases hi : i = f.node
  · subst hi
    simp [markOf, hnew]
  · simp [markOf, hi]

/-- The path goes on to another node. -/
theorem Search.ofPath_descend (f : Frame g) (below : List (Frame g)) (finished : List (Fin g.size))
    (j : Fin g.size) :
    (⟨(Search.ofPath (f :: below) finished).marks.set j .inProgress j.isLt,
        ⟨j, 0⟩ :: ⟨f.node, f.next + 1⟩ :: below, finished⟩ : Search g)
      = Search.ofPath (⟨j, 0⟩ :: ⟨f.node, f.next + 1⟩ :: below) finished := by
  apply Search.eq_ofPath
  intro i
  rw [mark_set, Search.mark_ofPath]
  by_cases hi : i = j
  · simp [markOf, hi]
  · simp [markOf, hi]

/-- The part of a path from one of its nodes on is what is left of it, from the
root on, after the nodes before that one. -/
theorem cycleFrom_eq_dropWhile {path : List (Frame g)} {j : Fin g.size}
    (hnodup : (nodesOf path).Nodup) (hj : j ∈ nodesOf path) :
    cycleFrom path j = ((nodesOf path).dropWhile (· ≠ j)).map fun k => (g.node k).id := by
  obtain ⟨before, after, hsplit⟩ := List.append_of_mem hj
  rw [hsplit] at hnodup
  have hpath : path.map (·.node) = after.reverse ++ j :: before.reverse := by
    rw [← List.reverse_reverse (path.map (·.node))]
    show (nodesOf path).reverse = _
    rw [hsplit]
    simp
  have hbefore : ∀ k ∈ before, k ≠ j := by
    intro k hk
    exact (List.nodup_append.mp hnodup).2.2 k hk j List.mem_cons_self
  have hafter : j ∉ after.reverse := by
    rw [List.mem_reverse]
    exact (List.nodup_cons.mp (List.nodup_append.mp hnodup).2.1).1
  rw [cycleFrom_eq hpath hafter, hsplit, List.dropWhile_append_of_pos (by simpa using hbefore)]
  simp

/-- What a move does to such a state: it depends on the next edge only through
its target, and on the target only through where it is listed. -/
theorem Search.step_ofPath {f : Frame g} {below : List (Frame g)} {finished : List (Fin g.size)}
    (hnodup : (nodesOf (f :: below)).Nodup) :
    (Search.ofPath (f :: below) finished).step f below =
      match (g.node f.node).edges[f.next]? with
      | none => .ok (Search.ofPath below (f.node :: finished))
      | some e =>
        match e.target? with
        | none => .ok (Search.ofPath (⟨f.node, f.next + 1⟩ :: below) finished)
        | some id =>
          match g.position? id with
          | none => .error (.unknownTarget (g.node f.node).id id)
          | some j =>
            if j ∈ nodesOf (f :: below) then
              .error (.cyclic (((nodesOf (f :: below)).dropWhile (· ≠ j)).map
                fun k => (g.node k).id))
            else if j ∈ finished then .ok (Search.ofPath (⟨f.node, f.next + 1⟩ :: below) finished)
            else .ok (Search.ofPath (⟨j, 0⟩ :: ⟨f.node, f.next + 1⟩ :: below) finished) := by
  have hnew : f.node ∉ nodesOf below := by
    rw [nodesOf_cons, List.nodup_append] at hnodup
    intro hmem
    exact hnodup.2.2 _ hmem _ List.mem_cons_self rfl
  unfold Search.step
  cases hedge : (g.node f.node).edges[f.next]? with
  | none => exact congrArg Except.ok (Search.ofPath_leave finished hnew)
  | some e =>
    simp only
    cases htarget : e.target with
    | sink =>
      rw [Edge.target?_of_sink htarget]
      rfl
    | node id =>
      rw [Edge.target?_of_node htarget]
      simp only
      cases hposition : g.position? id with
      | none => rfl
      | some j =>
        have hmark : (Search.ofPath (f :: below) finished).marks[j]
            = markOf (nodesOf (f :: below)) finished j := Search.mark_ofPath _ _ j
        simp only [hmark, markOf]
        by_cases hj : j ∈ nodesOf (f :: below)
        · -- counting one more edge of the last node changes no node of the path
          have hcycle : cycleFrom (⟨f.node, f.next + 1⟩ :: below) j
              = ((nodesOf (f :: below)).dropWhile (· ≠ j)).map fun k => (g.node k).id :=
            cycleFrom_eq_dropWhile hnodup hj
          simp only [if_pos hj, hcycle]
        · by_cases hdone : j ∈ finished
          · simp only [if_neg hj, if_pos hdone]
            rfl
          · simp only [if_neg hj, if_neg hdone]
            exact congrArg Except.ok (Search.ofPath_descend f below finished j)

/-! ## Targets that are left -/

/-- The targets of the edges of a node of the path that have not been followed. -/
def Frame.targets (f : Frame g) : List String :=
  ((g.node f.node).edges.drop f.next).filterMap Edge.target?

theorem Frame.targets_of_none {f : Frame g} (h : (g.node f.node).edges[f.next]? = none) :
    f.targets = [] := by
  rw [Frame.targets, List.drop_eq_nil_iff.mpr (List.getElem?_eq_none_iff.mp h), List.filterMap_nil]

theorem Frame.targets_of_some {f : Frame g} {e : Edge}
    (h : (g.node f.node).edges[f.next]? = some e) :
    f.targets = e.target?.toList ++ (Frame.mk f.node (f.next + 1)).targets := by
  obtain ⟨hlt, rfl⟩ := List.getElem?_eq_some_iff.mp h
  rw [Frame.targets, List.drop_eq_getElem_cons hlt, List.filterMap_cons]
  cases (g.node f.node).edges[f.next].target? with
  | none => rfl
  | some id => rfl

section Runs

variable {f : Frame g} {below : List (Frame g)}

/-- The search passes over edges to the sink. -/
theorem Search.run_ofPath_skip (finished : List (Fin g.size))
    (hnodup : (nodesOf (f :: below)).Nodup) :
    ∃ k, (Frame.mk f.node k).targets = f.targets ∧
      (∀ e, (g.node f.node).edges[k]? = some e → e.target? ≠ none) ∧
      (Search.ofPath (f :: below) finished).run
        = (Search.ofPath (⟨f.node, k⟩ :: below) finished).run := by
  -- by induction on the number of edges left
  induction hleft : (g.node f.node).edges.length - f.next generalizing f with
  | zero =>
    refine ⟨f.next, rfl, ?_, rfl⟩
    intro e he
    have hlt := (List.getElem?_eq_some_iff.mp he).1
    omega
  | succ left ih =>
    by_cases hsink : ∃ e, (g.node f.node).edges[f.next]? = some e ∧ e.target? = none
    · obtain ⟨e, he, htarget⟩ := hsink
      obtain ⟨k, htargets, hnext, hrun⟩ :=
        ih (f := ⟨f.node, f.next + 1⟩) hnodup (by simp only; omega)
      refine ⟨k, ?_, hnext, ?_⟩
      · rw [htargets, Frame.targets_of_some he, htarget]
        rfl
      · rw [Search.run_of_cons rfl, Search.step_ofPath hnodup, ← hrun]
        simp only [he, htarget]
        rfl
    · refine ⟨f.next, rfl, ?_, rfl⟩
      intro e he htarget
      exact hsink ⟨e, he, htarget⟩

/-- A node without targets left is finished. -/
theorem Search.run_of_targets_nil (finished : List (Fin g.size))
    (hnodup : (nodesOf (f :: below)).Nodup) (htargets : f.targets = []) :
    (Search.ofPath (f :: below) finished).run
      = (Search.ofPath below (f.node :: finished)).run := by
  obtain ⟨k, htargets', hnext, hrun⟩ := Search.run_ofPath_skip finished hnodup
  have hnodup' : (nodesOf (Frame.mk f.node k :: below)).Nodup := hnodup
  have hedge : (g.node f.node).edges[k]? = none := by
    cases he : (g.node f.node).edges[k]? with
    | none => rfl
    | some e =>
      rw [htargets, Frame.targets_of_some he] at htargets'
      have htarget := (List.append_eq_nil_iff.mp htargets').1
      exact absurd (Option.toList_eq_nil_iff.mp htarget) (hnext e he)
  rw [hrun, Search.run_of_cons rfl, Search.step_ofPath hnodup', hedge]
  rfl

/-- The first target that is left decides how the search goes on. -/
theorem Search.run_of_targets_cons (finished : List (Fin g.size))
    (hnodup : (nodesOf (f :: below)).Nodup) {id : String} {rest : List String}
    (htargets : f.targets = id :: rest) :
    ∃ k, (Frame.mk f.node k).targets = rest ∧
      (Search.ofPath (f :: below) finished).run =
        match g.position? id with
        | none => .error (.unknownTarget (g.node f.node).id id)
        | some j =>
          if j ∈ nodesOf (f :: below) then
            .error (.cyclic (((nodesOf (f :: below)).dropWhile (· ≠ j)).map fun k => (g.node k).id))
          else if j ∈ finished then (Search.ofPath (⟨f.node, k⟩ :: below) finished).run
          else (Search.ofPath (⟨j, 0⟩ :: ⟨f.node, k⟩ :: below) finished).run := by
  obtain ⟨k, htargets', hnext, hrun⟩ := Search.run_ofPath_skip finished hnodup
  have hnodup' : (nodesOf (Frame.mk f.node k :: below)).Nodup := hnodup
  cases he : (g.node f.node).edges[k]? with
  | none =>
    rw [htargets, Frame.targets_of_none he] at htargets'
    cases htargets'
  | some e =>
    obtain ⟨id', htarget⟩ := Option.ne_none_iff_exists'.mp (hnext e he)
    rw [htargets, Frame.targets_of_some he, htarget] at htargets'
    obtain ⟨rfl, hrest⟩ := List.cons.inj htargets'
    refine ⟨k + 1, hrest, ?_⟩
    rw [hrun, Search.run_of_cons rfl, Search.step_ofPath hnodup']
    simp only [he, htarget, nodesOf_cons]
    cases g.position? id' with
    | none => rfl
    | some j =>
      simp only
      split
      · rfl
      · split
        · rfl
        · rfl

end Runs

/-! ## Refinement -/

/-- Running the search from a path comes to following the targets left at its end
and then running it from the path below, with one more node finished. -/
def Search.Follows (path : List (Fin g.size)) (i : Fin g.size) (targets : List String)
    (visited : List (Fin g.size)) : Prop :=
  ∀ (f : Frame g) (below : List (Frame g)), nodesOf (f :: below) = path → path.Nodup →
    f.node = i → f.targets = targets →
    (Search.ofPath (f :: below) visited.reverse).run = (do
      let visited ← g.follow path i targets visited
      (Search.ofPath below (i :: visited.reverse)).run)

/-- Running the search from a path that has just come to a node comes to exploring
the node and then running it from the path below. -/
def Search.Explores (path : List (Fin g.size)) (i : Fin g.size) (hi : i ∉ path)
    (visited : List (Fin g.size)) : Prop :=
  ∀ below : List (Frame g), nodesOf below = path → path.Nodup →
    (Search.ofPath (⟨i, 0⟩ :: below) visited.reverse).run = (do
      let visited ← g.explore path i hi visited
      (Search.ofPath below visited.reverse).run)

theorem Search.Follows.explores {path : List (Fin g.size)} {i : Fin g.size} (hi : i ∉ path)
    {visited : List (Fin g.size)}
    (h : Search.Follows (path ++ [i]) i (g.node i).successors visited) :
    Search.Explores path i hi visited := by
  intro below hpath hnodup
  have hpath' : nodesOf (Frame.mk i 0 :: below) = path ++ [i] := by rw [nodesOf_cons, hpath]
  have hnodup' : (path ++ [i]).Nodup := by
    rw [← List.concat_eq_append]
    exact hnodup.concat hi
  rw [h ⟨i, 0⟩ below hpath' hnodup' rfl rfl, explore]
  simp

theorem Search.follows (path : List (Fin g.size)) (i : Fin g.size) (targets : List String)
    (visited : List (Fin g.size)) : Search.Follows path i targets visited := by
  -- along the calls of the procedure
  induction path, i, targets, visited using follow.induct g Search.Explores with
  | case1 path i hi visited ih => exact ih.explores hi
  | case2 path i visited =>
    rintro f below rfl hnodup rfl htargets
    rw [Search.run_of_targets_nil _ hnodup htargets, follow]
    rfl
  | case3 path i visited id rest hposition =>
    rintro f below rfl hnodup rfl htargets
    obtain ⟨k, hrest, hrun⟩ := Search.run_of_targets_cons visited.reverse hnodup htargets
    rw [hrun, follow, hposition]
    rfl
  | case4 path i visited id rest j hposition hj =>
    rintro f below rfl hnodup rfl htargets
    obtain ⟨k, hrest, hrun⟩ := Search.run_of_targets_cons visited.reverse hnodup htargets
    rw [hrun, follow]
    simp only [hposition, if_pos hj, dif_pos hj]
    rfl
  | case5 path i visited id rest j hposition hj hvisited ih =>
    rintro f below rfl hnodup rfl htargets
    obtain ⟨k, hrest, hrun⟩ := Search.run_of_targets_cons visited.reverse hnodup htargets
    rw [hrun, follow]
    simp only [hposition, if_neg hj, dif_neg hj, List.mem_reverse, if_pos hvisited]
    exact ih ⟨f.node, k⟩ below rfl hnodup rfl hrest
  | case6 path i visited id rest j hposition hj hvisited ihexplore ihrest =>
    rintro f below rfl hnodup rfl htargets
    obtain ⟨k, hrest, hrun⟩ := Search.run_of_targets_cons visited.reverse hnodup htargets
    rw [hrun, follow]
    simp only [hposition, if_neg hj, dif_neg hj, List.mem_reverse, if_neg hvisited]
    -- the target is explored above this frame, and the rest of its targets after that
    rw [ihexplore (⟨f.node, k⟩ :: below) rfl hnodup, bind_assoc]
    congr 1
    funext visited'
    exact ihrest visited' ⟨f.node, k⟩ below rfl hnodup rfl hrest

/-- A search from one root comes to exploring it. -/
theorem Search.run_enter (root : Fin g.size) (visited : List (Fin g.size)) :
    ((Search.ofPath [] visited.reverse).enter root).run = (do
      let visited ← g.explore [] root List.not_mem_nil visited
      return Search.ofPath [] visited.reverse) := by
  have hexplores :=
    (Search.follows _ root _ visited).explores List.not_mem_nil [] rfl List.nodup_nil
  rw [Search.enter_ofPath, hexplores]
  congr 1
  funext visited'
  exact Search.run_of_nil rfl

/-- Searching from roots in turn comes to exploring each of them. -/
theorem Search.visit_ofPath (roots visited : List (Fin g.size)) :
    (Search.ofPath [] visited.reverse).visit roots = (do
      let visited ← g.exploreEach roots visited
      return Search.ofPath [] visited.reverse) := by
  induction roots generalizing visited with
  | nil => rfl
  | cons root rest ih =>
    have hmark : (Search.ofPath [] visited.reverse).marks[root]
        = markOf [] visited.reverse root := Search.mark_ofPath _ _ root
    rw [Search.visit, exploreEach, hmark]
    by_cases hvisited : root ∈ visited
    · simp only [markOf, List.not_mem_nil, if_false, List.mem_reverse, if_pos hvisited]
      exact ih visited
    · simp only [markOf, List.not_mem_nil, if_false, List.mem_reverse, if_neg hvisited, if_true]
      rw [Search.run_enter]
      cases g.explore [] root List.not_mem_nil visited with
      | error err => rfl
      | ok visited' => exact ih visited'

/-- The search finds the order that the recursive procedure finds, and fails with
its error where that fails. -/
theorem order_eq_recursiveOrder (g : Graph) : g.order = g.recursiveOrder := by
  have hsearch := Search.visit_ofPath (g := g) (List.finRange g.size) []
  rw [List.reverse_nil, ← Search.start_eq_ofPath] at hsearch
  unfold order recursiveOrder
  rw [hsearch]
  cases g.exploreEach (List.finRange g.size) [] with
  | error err => rfl
  | ok visited => rfl

end ShaderGraph.Graph
