import ShaderGraph.Build
import ShaderGraph.Proofs.Certificate
import ShaderGraph.Proofs.Outcome
import ShaderGraph.Proofs.Search

/-!
# Orders, and why there may be none

The three sides of `Graph.order`:

* **soundness** — an order that is found has every node once and every edge
  leads forward in it, so its certificate passes and a build that checks the
  certificate is the build that does not (`order_producers_first`);
* **completeness** — an order is found exactly if every edge leads to a node
  and there is no cycle, which is exactly when some list of ids passes
  (`order_succeeds_iff`);
* **failures** — what is reported is really there: the nodes named form a
  cycle, or the edge named leads to no node (`order_fails_truly`).
-/

namespace ShaderGraph

namespace Graph

variable {g : Graph}

/-! ## Soundness -/

/-- In a list where producers come first, the places of ids grow along edges. -/
theorem ProducersFirst.idxOf_lt {order : List (Fin g.size)} (hnodup : order.Nodup)
    (h : g.ProducersFirst order) {i : Fin g.size} (hi : i ∈ order) {id : String}
    (hid : id ∈ (g.node i).successors) :
    id ∈ order.map (fun j => (g.node j).id) ∧
      (order.map (fun j => (g.node j).id)).idxOf (g.node i).id
        < (order.map (fun j => (g.node j).id)).idxOf id := by
  induction order with
  | nil => cases hi
  | cons j rest ih =>
    obtain ⟨hhead, htail⟩ := h
    obtain ⟨hnew, hrest⟩ := List.nodup_cons.mp hnodup
    -- the ids of the rest are not that of the head, which has place 0
    have hne : ∀ id' ∈ rest.map (fun j => (g.node j).id), (g.node j).id ≠ id' := by
      intro id' hid' heq
      obtain ⟨k, hk, rfl⟩ := List.mem_map.mp hid'
      exact hnew (eq_of_node_id_eq heq ▸ hk)
    rw [List.map_cons]
    rcases List.mem_cons.mp hi with rfl | hi
    · obtain ⟨t, ht, rfl⟩ := hhead id hid
      have hmem := List.mem_map_of_mem (f := fun j => (g.node j).id) ht
      refine ⟨List.mem_cons_of_mem _ hmem, ?_⟩
      rw [List.idxOf_cons_self, List.idxOf_cons_ne _ (hne _ hmem)]
      exact Nat.succ_pos _
    · obtain ⟨hmem, hlt⟩ := ih hrest htail hi
      have hmemi := List.mem_map_of_mem (f := fun j => (g.node j).id) hi
      refine ⟨List.mem_cons_of_mem _ hmem, ?_⟩
      rw [List.idxOf_cons_ne _ (hne _ hmemi), List.idxOf_cons_ne _ (hne _ hmem)]
      exact Nat.succ_lt_succ hlt

/-- The nodes at all positions are the nodes of the graph. -/
theorem map_node_finRange (g : Graph) : (List.finRange g.size).map g.node = g.nodes.toList := by
  apply List.ext_getElem?
  intro k
  by_cases hk : k < g.size
  · simp [hk, node]
  · simp [hk]

/-- An order has every node of the graph once. -/
theorem order_perm {order : List Node} (h : g.order = .ok order) :
    order.Perm g.nodes.toList := by
  obtain ⟨s, _, hperm, rfl⟩ := exists_search_of_order h
  rw [← map_node_finRange]
  exact hperm.map g.node

/-- The ids of an order are an order of the graph. -/
theorem isOrder_of_order {order : List Node} (h : g.order = .ok order) :
    g.IsOrder (order.map (·.id)) := by
  refine ⟨(order_perm h).map (·.id), ?_⟩
  obtain ⟨s, hv, hperm, rfl⟩ := exists_search_of_order h
  rintro u v ⟨n, hn, rfl, hmem⟩
  obtain ⟨i, rfl⟩ := exists_node hn
  have hi : i ∈ s.finished := hperm.mem_iff.mpr (List.mem_finRange i)
  rw [List.map_map]
  exact hv.producersFirst.idxOf_lt hv.doneNodup hi hmem

end Graph

/-- A build that also checks the order it has found, and stops without an
outcome if the certificate does not pass. -/
def assertingBuild (lib : Library) (compiler : Template.BodyCompiler) (layout : Layout)
    (nodes : List Node) : Option (Except BuildError Shader) :=
  match checkedGraph lib nodes with
  | .error e => some (.error e)
  | .ok g =>
    match g.order with
    | .error e => some (.error e)
    | .ok order =>
      if (g.certify (order.map (·.id))).passes then
        match assemble lib compiler order with
        | .error e => some (.error e)
        | .ok (program, warnings) =>
          some (.ok ⟨program.text layout, order.map (·.id), warnings⟩)
      else none

/-- The check never stops a build. -/
theorem assertingBuild_eq (lib : Library) (compiler : Template.BodyCompiler) (layout : Layout)
    (nodes : List Node) :
    assertingBuild lib compiler layout nodes = some (build lib compiler layout nodes) := by
  unfold assertingBuild build checkedOrder
  cases checkedGraph lib nodes with
  | error e => rfl
  | ok g =>
    cases horder : g.order with
    | error e => simp [horder]
    | ok order =>
      have hpasses := (Graph.certify_passes_iff _).mpr (Graph.isOrder_of_order horder)
      simp only [horder, hpasses, if_true]
      cases assemble lib compiler order with
      | error e => rfl
      | ok result => rfl

namespace Graph

variable {g : Graph}

/-- An order that is found has every node exactly once and puts the source of
every edge that is not to the sink before its target. Its certificate passes,
so the check of the certificate in a build never stops it. -/
theorem order_producers_first (g : Graph) :
    (∀ order, g.order = .ok order →
      order.Perm g.nodes.toList ∧ (order.map (·.id)).Nodup ∧
      (∀ u ∈ g.nodes.toList, ∀ e ∈ u.edges, ∀ v, e.target? = some v →
        v ∈ order.map (·.id) ∧
          (order.map (·.id)).idxOf u.id < (order.map (·.id)).idxOf v) ∧
      (g.certify (order.map (·.id))).passes = true) ∧
    ∀ lib compiler layout nodes,
      assertingBuild lib compiler layout nodes = some (build lib compiler layout nodes) := by
  refine ⟨?_, assertingBuild_eq⟩
  intro order h
  have hisOrder := isOrder_of_order h
  refine ⟨order_perm h, hisOrder.nodup, ?_, (certify_passes_iff _).mpr hisOrder⟩
  intro u hu e he v hv
  exact hisOrder.forward u.id v ⟨u, hu, rfl, Node.mem_successors.mpr ⟨e, he, hv⟩⟩

/-- A diamond with parallel edges and an edge to the sink, listed from its end. -/
def diamond : Graph where
  nodes := #[.ofType "d" "mix",
    (((Node.ofType "a" "tint").addEdge "b" "x" none).addEdge "c" "x" none).addEdge "_" "" none,
    (Node.ofType "b" "tint").addEdge "d" "x" none,
    ((Node.ofType "c" "tint").addEdge "d" "y" none).addEdge "d" "z" none]
  distinct := by decide

/-- The diamond is ordered from its start. -/
theorem order_producers_first_diamond :
    ∃ order, diamond.order = .ok order ∧ order.map (·.id) = ["a", "c", "b", "d"] ∧
      (diamond.certify (order.map (·.id))).passes = true := by
  have h : diamond.order.map (·.map (·.id)) = .ok ["a", "c", "b", "d"] := by decide +kernel
  cases horder : diamond.order with
  | error err =>
    rw [horder] at h
    cases h
  | ok order =>
    rw [horder] at h
    exact ⟨order, rfl, Except.ok.inj h,
      ((order_producers_first diamond).1 order horder).2.2.2⟩

/-! ## Failures -/

/-- Along a path, the edge last followed from a node leads to the node above it. -/
theorem Trail.isChain_leadsTo {marks : Vector Mark g.size} {path : List (Frame g)} :
    ∀ {above : Option (Fin g.size)}, Trail marks above path →
      path.IsChain (fun upper lower => lower.LeadsTo upper.node) := by
  induction path with
  | nil =>
    intro above _
    exact .nil
  | cons f below ih =>
    intro above h
    cases below with
    | nil => exact .singleton f
    | cons b rest => exact .cons_cons (h.2.2.1 f.node rfl) (ih h.2.2)

/-- Along a path, every node feeds the one above it. -/
theorem Trail.isChain {marks : Vector Mark g.size} {path : List (Frame g)}
    {above : Option (Fin g.size)} (h : Trail marks above path) :
    (path.map (·.node)).IsChain (fun i j => g.Feeds (g.node j).id (g.node i).id) := by
  rw [List.isChain_map]
  refine h.isChain_leadsTo.imp ?_
  rintro upper lower ⟨k, e, _, hedge, htarget⟩
  exact feeds_node.mpr (Node.mem_successors.mpr ⟨e, List.mem_of_getElem? hedge, htarget⟩)

/-- What is cut out of a path through the node at `i` is the part from `i` on. -/
theorem cycleFrom_eq {path : List (Frame g)} {above rest : List (Fin g.size)} {i : Fin g.size}
    (hpath : path.map (·.node) = above ++ i :: rest) (habove : i ∉ above) :
    cycleFrom path i = ((above ++ [i]).map (fun j => (g.node j).id)).reverse := by
  have hne : ∀ j ∈ above, (j != i) = true := by
    intro j hj
    rw [bne_iff_ne]
    rintro rfl
    exact habove hj
  have htake : (path.takeWhile (·.node != i)).map (·.node) = above := by
    calc
      _ = (path.map (·.node)).takeWhile (· != i) := List.takeWhile_map.symm
      _ = above := by rw [hpath, List.takeWhile_append_of_pos hne]; simp
  have hdrop : (path.dropWhile (·.node != i)).map (·.node) = i :: rest := by
    calc
      _ = (path.map (·.node)).dropWhile (· != i) := List.dropWhile_map.symm
      _ = i :: rest := by rw [hpath, List.dropWhile_append_of_pos hne]; simp
  have hhere : ((path.dropWhile (·.node != i)).take 1).map (·.node) = [i] := by
    rw [List.map_take, hdrop]
    rfl
  rw [← htake, ← hhere, ← List.map_append, List.map_map, ← List.map_reverse]
  rfl

/-- Distinct nodes, each of which is fed by the next, are a cycle backwards if
the first feeds the last. -/
theorem isCycle_reverse {part : List (Fin g.size)} (hne : part ≠ []) (hnodup : part.Nodup)
    (hchain : part.IsChain (fun i j => g.Feeds (g.node j).id (g.node i).id))
    (hclosing : g.Feeds (g.node (part.head hne)).id (g.node (part.getLast hne)).id) :
    g.IsCycle (part.map (fun i => (g.node i).id)).reverse := by
  refine ⟨by simpa using hne, ?_, ?_, ?_, ?_⟩
  · exact List.nodup_reverse.mpr (hnodup.map (fun i j => eq_of_node_id_eq))
  · intro id hid
    rw [List.mem_reverse] at hid
    obtain ⟨i, _, rfl⟩ := List.mem_map.mp hid
    exact mem_ids.mpr ⟨i, rfl⟩
  · rw [List.isChain_reverse, List.isChain_map]
    exact hchain
  · rw [List.getLast_reverse, List.head_reverse, List.head_map, List.getLast_map]
    exact hclosing

/-- An edge from the end of the path back into it closes a cycle. -/
theorem Search.Valid.isCycle {s : Search g} {f : Frame g} {below : List (Frame g)} {t : Fin g.size}
    (hv : s.Valid) (hpath : s.path = f :: below)
    (hedge : (g.node t).id ∈ (g.node f.node).successors) (hmark : s.marks.get t = .inProgress) :
    g.IsCycle (cycleFrom (⟨f.node, f.next + 1⟩ :: below) t) := by
  have hmem := (hv.onPath t).mp hmark
  have hnodup := hv.pathNodup
  have hchain := hv.trail.isChain
  rw [hpath] at hmem hnodup hchain
  -- the nodes in progress are those of the path, so it can be cut at `t`
  obtain ⟨above, rest, hsplit⟩ := List.append_of_mem hmem
  rw [hsplit] at hnodup hchain
  rw [List.append_cons] at hnodup hchain
  have hpart := hnodup.sublist (List.sublist_append_left (above ++ [t]) rest)
  have hnew : t ∉ above := by
    intro ht
    exact (List.nodup_append.mp hpart).2.2 t ht t List.mem_cons_self rfl
  have hhead : (above ++ [t]).head (by simp) = f.node := by
    cases above with
    | nil => exact (List.cons.inj hsplit).1.symm
    | cons i above => exact (List.cons.inj hsplit).1.symm
  -- counting one more edge of the last node changes no node of the path
  have hsplit' : (Frame.mk f.node (f.next + 1) :: below).map (·.node) = above ++ t :: rest := hsplit
  rw [cycleFrom_eq hsplit' hnew]
  refine isCycle_reverse (by simp) hpart hchain.left_of_append ?_
  rw [hhead, List.getLast_concat]
  exact feeds_node.mpr hedge

/-- Every failure of the search shows a cycle or an edge that leads to no node. -/
theorem exists_fault_of_order {err : BuildError} (h : g.order = .error err) :
    (∃ cycle, err = .cyclic cycle ∧ g.IsCycle cycle) ∨
      ∃ node target, err = .unknownTarget node target ∧ g.Feeds node target ∧
        target ∉ g.ids := by
  obtain ⟨s, f, below, hreached, hpath, hhalt⟩ := failsBy_of_order h
  cases hhalt with
  | dangling hedge hmissing => exact .inr ⟨_, _, rfl, feeds_node.mpr hedge, hmissing⟩
  | closing hedge hmark => exact .inl ⟨_, rfl, hreached.valid.isCycle hpath hedge hmark⟩

/-- An order is missing for a reason that can be seen in the graph: the ids
reported are pairwise distinct nodes each of which feeds the next and the last
of which feeds the first, or the edge reported leaves a node and leads to no
node. There is no other failure. -/
theorem order_fails_truly (g : Graph) (err : BuildError) (h : g.order = .error err) :
    (∃ cycle, err = .cyclic cycle ∧ g.IsCycle cycle) ∨
      ∃ node target, err = .unknownTarget node target ∧ node ∈ g.ids ∧ g.Feeds node target ∧
        target ∉ g.ids := by
  rcases exists_fault_of_order h with hcycle | ⟨node, target, herr, hfeeds, hmissing⟩
  · exact .inl hcycle
  · exact .inr ⟨node, target, herr, hfeeds.source, hfeeds, hmissing⟩

/-- A node that leads into a loop of two others. -/
def loop : Graph where
  nodes := #[(Node.ofType "p" "tint").addEdge "a" "x" none,
    (Node.ofType "a" "tint").addEdge "b" "x" none,
    ((Node.ofType "b" "mix").addEdge "c" "x" none).addEdge "a" "y" none,
    .ofType "c" "tint"]
  distinct := by decide

/-- The report on the loop leaves out how the search came to it. -/
theorem order_fails_truly_loop :
    loop.order = .error (.cyclic ["a", "b"]) ∧ loop.IsCycle ["a", "b"] := by
  have h : loop.order = .error (.cyclic ["a", "b"]) := by decide +kernel
  refine ⟨h, ?_⟩
  rcases order_fails_truly loop _ h with ⟨cycle, heq, hcycle⟩ | ⟨node, target, heq, _⟩
  · cases heq
    exact hcycle
  · cases heq

/-! ## Completeness -/

/-- An order is found exactly if every edge that is not to the sink leads to a
node and no node feeds itself over any number of edges; equivalently, if some
list of ids passes the certificate. -/
theorem order_succeeds_iff (g : Graph) :
    ((∃ order, g.order = .ok order) ↔ g.Closed ∧ g.Acyclic) ∧
      ((∃ order, g.order = .ok order) ↔ ∃ ids, (g.certify ids).passes = true) := by
  have hcertified : (∃ order, g.order = .ok order) → ∃ ids, (g.certify ids).passes = true := by
    rintro ⟨order, horder⟩
    exact ⟨_, (certify_passes_iff _).mpr (isOrder_of_order horder)⟩
  have hsound : (∃ ids, (g.certify ids).passes = true) → g.Closed ∧ g.Acyclic := by
    rintro ⟨ids, hpasses⟩
    have hisOrder := (certify_passes_iff ids).mp hpasses
    exact ⟨hisOrder.closed, hisOrder.acyclic⟩
  have hfound : g.Closed ∧ g.Acyclic → ∃ order, g.order = .ok order := by
    rintro ⟨hclosed, hacyclic⟩
    cases h : g.order with
    | ok order => exact ⟨order, rfl⟩
    | error err =>
      -- a failure would show a cycle or an edge to no node
      rcases exists_fault_of_order h with ⟨cycle, _, hcycle⟩ | ⟨node, target, _, hfeeds, hmissing⟩
      · exact absurd hacyclic hcycle.not_acyclic
      · exact absurd (hclosed node target hfeeds) hmissing
  exact ⟨⟨fun h => hsound (hcertified h), hfound⟩, ⟨hcertified, fun h => hfound (hsound h)⟩⟩

end Graph

end ShaderGraph
