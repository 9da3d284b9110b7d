import Mathlib.Data.List.FinRange
import ShaderGraph.Graph.Order
import ShaderGraph.Proofs.Feeds

/-!
# The invariant of the search

What holds of every state that the search of a graph goes through, whatever
its edges are like:

* the nodes marked as in progress are those on the path, each once, and the
  edge last followed from a node of the path leads to the node above it;
* the nodes marked as done are the finished ones, each once, and whatever a
  finished node feeds was finished before it.

`Search.Move` and `Search.Halt` say once what a move can do and how it can
fail; `Valid.move` is the step lemma and `Reached.valid` the statement about
whole runs.
-/

namespace ShaderGraph.Graph

variable {g : Graph}

/-! ## Moves -/

/-- What a move does at the end `f` of the path, if it does not fail. -/
inductive Search.Move (s : Search g) (f : Frame g) (below : List (Frame g)) : Search g → Prop
  /-- No edge is left, so the node is finished. -/
  | leave : (g.node f.node).edges[f.next]? = none →
      Move s f below ⟨s.marks.set f.node .done f.node.isLt, below, f.node :: s.finished⟩
  /-- The next edge leads to the sink or to a finished node. -/
  | pass {e : Edge} : (g.node f.node).edges[f.next]? = some e →
      (∀ id, e.target? = some id → ∃ t : Fin g.size, (g.node t).id = id ∧ s.marks.get t = .done) →
      Move s f below { s with path := ⟨f.node, f.next + 1⟩ :: below }
  /-- The next edge leads to a node that has not been visited. -/
  | descend {e : Edge} {t : Fin g.size} : (g.node f.node).edges[f.next]? = some e →
      e.target? = some (g.node t).id → s.marks.get t = .unvisited →
      Move s f below
        ⟨s.marks.set t .inProgress t.isLt, ⟨t, 0⟩ :: ⟨f.node, f.next + 1⟩ :: below, s.finished⟩

/-- How a move fails at the end `f` of the path. -/
inductive Search.Halt (s : Search g) (f : Frame g) (below : List (Frame g)) : BuildError → Prop
  /-- The next edge leads to no node. -/
  | dangling {id : String} : id ∈ (g.node f.node).successors → id ∉ g.ids →
      Halt s f below (.unknownTarget (g.node f.node).id id)
  /-- The next edge leads back into the path. -/
  | closing {t : Fin g.size} : (g.node t).id ∈ (g.node f.node).successors →
      s.marks.get t = .inProgress →
      Halt s f below (.cyclic (cycleFrom (⟨f.node, f.next + 1⟩ :: below) t))

theorem Search.move_of_step {s s' : Search g} {f : Frame g} {below : List (Frame g)}
    (h : s.step f below = .ok s') : s.Move f below s' := by
  unfold Search.step at h
  split at h
  · next hedge =>
    cases h
    exact .leave hedge
  · next e hedge =>
    simp only at h
    split at h
    · next hsink =>
      cases h
      refine .pass hedge ?_
      intro id hid
      rw [Edge.target?_of_sink hsink] at hid
      cases hid
    · next id hnode =>
      split at h
      · cases h
      · next t hpos =>
        have htarget : e.target? = some (g.node t).id := by
          rw [Edge.target?_of_node hnode, position?_eq_some.mp hpos]
        split at h
        · next hmark =>
          cases h
          exact .descend hedge htarget hmark
        · cases h
        · next hmark =>
          cases h
          refine .pass hedge ?_
          intro id' hid'
          rw [htarget] at hid'
          injection hid' with hid'
          exact ⟨t, hid', hmark⟩

theorem Search.halt_of_step {s : Search g} {f : Frame g} {below : List (Frame g)}
    {err : BuildError} (h : s.step f below = .error err) : s.Halt f below err := by
  unfold Search.step at h
  split at h
  · cases h
  · next e hedge =>
    have hmem : e ∈ (g.node f.node).edges := List.mem_of_getElem? hedge
    simp only at h
    split at h
    · cases h
    · next id hnode =>
      have hsucc : id ∈ (g.node f.node).successors :=
        Node.mem_successors.mpr ⟨e, hmem, Edge.target?_of_node hnode⟩
      split at h
      · next hpos =>
        cases h
        exact .dangling hsucc (position?_eq_none.mp hpos)
      · next t hpos =>
        rw [← position?_eq_some.mp hpos] at hsucc
        split at h
        · cases h
        · next hmark =>
          cases h
          exact .closing hsucc hmark
        · cases h

/-! ## The invariant -/

/-- The edge last followed from a node of the path leads to the node at `t`. -/
def Frame.LeadsTo (f : Frame g) (t : Fin g.size) : Prop :=
  ∃ k e, f.next = k + 1 ∧ (g.node f.node).edges[k]? = some e ∧ e.target? = some (g.node t).id

/-- Every edge followed so far leads to the sink or to a finished node, but the
last one may lead to the node above. -/
def Frame.Explored (marks : Vector Mark g.size) (above : Option (Fin g.size)) (f : Frame g) :
    Prop :=
  ∀ k e, k < f.next → (g.node f.node).edges[k]? = some e → ∀ id, e.target? = some id →
    ∃ t : Fin g.size, (g.node t).id = id ∧ (marks.get t = .done ∨ k + 1 = f.next ∧ above = some t)

/-- A path that leads to the node `above`, if there is one. -/
def Trail (marks : Vector Mark g.size) : (above : Option (Fin g.size)) → List (Frame g) → Prop
  | _, [] => True
  | above, f :: below =>
    (∀ t, above = some t → f.LeadsTo t) ∧ f.Explored marks above ∧
      Trail marks (some f.node) below

/-- Whatever a listed node feeds is listed after it. -/
def ProducersFirst (g : Graph) : List (Fin g.size) → Prop
  | [] => True
  | i :: rest =>
    (∀ id ∈ (g.node i).successors, ∃ t ∈ rest, (g.node t).id = id) ∧ g.ProducersFirst rest

/-- The invariant of the search. -/
structure Search.Valid (s : Search g) : Prop where
  onPath : ∀ i : Fin g.size, s.marks.get i = .inProgress ↔ i ∈ s.path.map (·.node)
  pathNodup : (s.path.map (·.node)).Nodup
  trail : Trail s.marks none s.path
  isDone : ∀ i : Fin g.size, s.marks.get i = .done ↔ i ∈ s.finished
  doneNodup : s.finished.Nodup
  producersFirst : g.ProducersFirst s.finished

theorem mark_set (marks : Vector Mark g.size) (i j : Fin g.size) (m : Mark) :
    (marks.set i m i.isLt).get j = if j = i then m else marks.get j := by
  show (marks.set i m)[j] = if j = i then m else marks[j]
  by_cases hij : j = i
  · subst hij
    simp
  · have hne : (i : Nat) ≠ j := fun h => hij (Fin.ext h.symm)
    simp [hij, hne]

theorem mark_set_visited {marks : Vector Mark g.size} {i : Fin g.size}
    (h : marks.get i ≠ .unvisited) (j : Fin g.size) {m : Mark} (hm : m ≠ .unvisited) :
    (marks.set j m j.isLt).get i ≠ .unvisited := by
  rw [mark_set]
  split
  · exact hm
  · exact h

/-- Explored edges stay explored while finished nodes stay finished. -/
theorem Frame.Explored.mono {marks marks' : Vector Mark g.size} {above above' : Option (Fin g.size)}
    {f : Frame g} (h : f.Explored marks above)
    (hdone : ∀ t : Fin g.size, marks.get t = .done → marks'.get t = .done)
    (habove : ∀ t : Fin g.size, above = some t → marks'.get t = .done ∨ above' = some t) :
    f.Explored marks' above' := by
  intro k e hk hedge id hid
  obtain ⟨t, ht, hcase⟩ := h k e hk hedge id hid
  refine ⟨t, ht, ?_⟩
  rcases hcase with hmark | ⟨hlast, ha⟩
  · exact .inl (hdone t hmark)
  · rcases habove t ha with hmark | ha'
    · exact .inl hmark
    · exact .inr ⟨hlast, ha'⟩

theorem Trail.mono {marks marks' : Vector Mark g.size} {path : List (Frame g)}
    (hdone : ∀ t : Fin g.size, marks.get t = .done → marks'.get t = .done) :
    ∀ {above : Option (Fin g.size)}, Trail marks above path → Trail marks' above path := by
  induction path with
  | nil =>
    intro above _
    trivial
  | cons f below ih =>
    intro above h
    obtain ⟨hlead, hexp, hrest⟩ := h
    exact ⟨hlead, hexp.mono hdone (fun t ht => .inr ht), ih hrest⟩

/-- Once the node above is finished, the path ends below it. -/
theorem Trail.settle {marks marks' : Vector Mark g.size} {t : Fin g.size} {path : List (Frame g)}
    (h : Trail marks (some t) path)
    (hdone : ∀ i : Fin g.size, marks.get i = .done → marks'.get i = .done)
    (ht : marks'.get t = .done) : Trail marks' none path := by
  cases path with
  | nil => trivial
  | cons f below =>
    obtain ⟨_, hexp, hrest⟩ := h
    refine ⟨by simp, hexp.mono hdone ?_, hrest.mono hdone⟩
    intro i hi
    injection hi with hi
    subst hi
    exact .inl ht

/-- Following one more edge keeps a node explored. -/
theorem Frame.Explored.follow {marks : Vector Mark g.size} {f : Frame g} {e : Edge}
    {above : Option (Fin g.size)} (h : f.Explored marks none)
    (hedge : (g.node f.node).edges[f.next]? = some e)
    (htarget : ∀ id, e.target? = some id →
      ∃ t : Fin g.size, (g.node t).id = id ∧ (marks.get t = .done ∨ above = some t)) :
    (Frame.mk f.node (f.next + 1)).Explored marks above := by
  intro k e' hk hedge' id hid
  simp only at hk hedge'
  -- the edge is the one followed now, or it was followed before
  by_cases hlast : k = f.next
  · subst hlast
    rw [hedge] at hedge'
    injection hedge' with he
    subst he
    obtain ⟨t, ht, hcase⟩ := htarget id hid
    exact ⟨t, ht, hcase.imp_right fun ha => ⟨rfl, ha⟩⟩
  · obtain ⟨t, ht, hcase⟩ := h k e' (by omega) hedge' id hid
    refine ⟨t, ht, .inl ?_⟩
    rcases hcase with hmark | ⟨_, ha⟩
    · exact hmark
    · cases ha

/-! ## Every move keeps it -/

theorem Search.Valid.start (g : Graph) : (Search.start g).Valid where
  onPath i := by simp [Search.start, Vector.get]
  pathNodup := List.nodup_nil
  trail := trivial
  isDone i := by simp [Search.start, Vector.get]
  doneNodup := List.nodup_nil
  producersFirst := trivial

/-- A node with no edge left feeds finished nodes only. -/
theorem Search.Valid.successors_finished {marks : Vector Mark g.size} {f : Frame g}
    {below : List (Frame g)} {finished : List (Fin g.size)}
    (hv : Search.Valid ⟨marks, f :: below, finished⟩)
    (hedge : (g.node f.node).edges[f.next]? = none) :
    ∀ id ∈ (g.node f.node).successors, ∃ t ∈ finished, (g.node t).id = id := by
  intro id hid
  obtain ⟨e, he, htarget⟩ := Node.mem_successors.mp hid
  obtain ⟨k, hk⟩ := List.getElem?_of_mem he
  -- no edge is left, so this one has been followed
  have hlt : k < f.next := by
    have h1 := (List.getElem?_eq_some_iff.mp hk).1
    have h2 := List.getElem?_eq_none_iff.mp hedge
    omega
  obtain ⟨t, ht, hcase⟩ := hv.trail.2.1 k e hlt hk id htarget
  rcases hcase with hmark | ⟨_, habove⟩
  · exact ⟨t, (hv.isDone t).mp hmark, ht⟩
  · cases habove

private theorem Search.Valid.leave {marks : Vector Mark g.size} {f : Frame g}
    {below : List (Frame g)} {finished : List (Fin g.size)}
    (hv : Search.Valid ⟨marks, f :: below, finished⟩)
    (hedge : (g.node f.node).edges[f.next]? = none) :
    Search.Valid ⟨marks.set f.node .done f.node.isLt, below, f.node :: finished⟩ := by
  obtain ⟨hnotBelow, hbelow⟩ := List.nodup_cons.mp hv.pathNodup
  have hmark : marks.get f.node = .inProgress := (hv.onPath f.node).mpr List.mem_cons_self
  refine ⟨?_, hbelow, ?_, ?_, ?_, hv.successors_finished hedge, hv.producersFirst⟩
  · intro i
    rw [mark_set]
    by_cases hi : i = f.node
    · subst hi
      simp [hnotBelow]
    · rw [if_neg hi, hv.onPath i]
      simp [hi]
  · refine hv.trail.2.2.settle ?_ (by rw [mark_set, if_pos rfl])
    intro i hi
    rw [mark_set, hi]
    simp
  · intro i
    rw [mark_set, List.mem_cons]
    by_cases hi : i = f.node
    · simp [hi]
    · rw [if_neg hi, hv.isDone i]
      simp [hi]
  · refine List.nodup_cons.mpr ⟨?_, hv.doneNodup⟩
    -- a node of the path is in progress, so it was not finished before
    intro hmem
    rw [(hv.isDone f.node).mpr hmem] at hmark
    cases hmark

private theorem Search.Valid.pass {marks : Vector Mark g.size} {f : Frame g}
    {below : List (Frame g)} {finished : List (Fin g.size)} {e : Edge}
    (hv : Search.Valid ⟨marks, f :: below, finished⟩)
    (hedge : (g.node f.node).edges[f.next]? = some e)
    (htarget : ∀ id, e.target? = some id →
      ∃ t : Fin g.size, (g.node t).id = id ∧ marks.get t = .done) :
    Search.Valid ⟨marks, ⟨f.node, f.next + 1⟩ :: below, finished⟩ := by
  refine ⟨hv.onPath, hv.pathNodup, ⟨by simp, hv.trail.2.1.follow hedge ?_, hv.trail.2.2⟩,
    hv.isDone, hv.doneNodup, hv.producersFirst⟩
  intro id hid
  obtain ⟨t, ht, hmark⟩ := htarget id hid
  exact ⟨t, ht, .inl hmark⟩

private theorem Search.Valid.descend {marks : Vector Mark g.size} {f : Frame g}
    {below : List (Frame g)} {finished : List (Fin g.size)} {e : Edge} {t : Fin g.size}
    (hv : Search.Valid ⟨marks, f :: below, finished⟩)
    (hedge : (g.node f.node).edges[f.next]? = some e)
    (htarget : e.target? = some (g.node t).id) (hmark : marks.get t = .unvisited) :
    Search.Valid
      ⟨marks.set t .inProgress t.isLt, ⟨t, 0⟩ :: ⟨f.node, f.next + 1⟩ :: below, finished⟩ := by
  -- the nodes of the path are in progress, and the node entered is not
  have hnew : t ∉ (f :: below).map (·.node) := by
    rw [← hv.onPath t, hmark]
    simp
  -- the mark that changes is not that of a finished node
  have hkeep : ∀ i : Fin g.size, marks.get i = .done →
      (marks.set t .inProgress t.isLt).get i = .done := by
    intro i hi
    rw [mark_set]
    by_cases hit : i = t
    · subst hit
      rw [hmark] at hi
      cases hi
    · rw [if_neg hit, hi]
  refine ⟨?_, List.nodup_cons.mpr ⟨hnew, hv.pathNodup⟩, ⟨by simp, ?_, ?_, ?_, ?_⟩, ?_,
    hv.doneNodup, hv.producersFirst⟩
  · intro i
    rw [mark_set]
    by_cases hit : i = t
    · simp [hit]
    · rw [if_neg hit, hv.onPath i]
      simp [hit]
  · intro k e' hk
    cases hk
  · intro i hi
    injection hi with hi
    subst hi
    exact ⟨f.next, e, rfl, hedge, htarget⟩
  · refine (hv.trail.2.1.mono hkeep (by simp)).follow hedge ?_
    intro id hid
    rw [htarget] at hid
    injection hid with hid
    exact ⟨t, hid, .inr rfl⟩
  · exact hv.trail.2.2.mono hkeep
  · intro i
    rw [mark_set]
    by_cases hit : i = t
    · subst hit
      rw [← hv.isDone i, hmark]
      simp
    · rw [if_neg hit, hv.isDone i]

/-- Every move keeps the invariant. -/
theorem Search.Valid.move {s s' : Search g} {f : Frame g} {below : List (Frame g)}
    (hv : s.Valid) (hpath : s.path = f :: below) (h : s.Move f below s') : s'.Valid := by
  obtain ⟨marks, path, finished⟩ := s
  cases hpath
  cases h with
  | leave hedge => exact hv.leave hedge
  | pass hedge htarget => exact hv.pass hedge htarget
  | descend hedge htarget hmark => exact hv.descend hedge htarget hmark

/-- Beginning a path at a node that has not been visited keeps the invariant. -/
theorem Search.Valid.enter {s : Search g} {root : Fin g.size} (hv : s.Valid)
    (hpath : s.path = []) (hmark : s.marks.get root = .unvisited) : (s.enter root).Valid := by
  have honPath := hv.onPath
  rw [hpath] at honPath
  refine ⟨?_, by simp [Search.enter], ⟨by simp, ?_, trivial⟩, ?_, hv.doneNodup, hv.producersFirst⟩
  · intro i
    show (s.marks.set root .inProgress root.isLt).get i = .inProgress ↔ i ∈ [root]
    rw [mark_set, List.mem_singleton]
    by_cases hi : i = root
    · simp [hi]
    · rw [if_neg hi, honPath i]
      simp [hi]
  · intro k e hk
    cases hk
  · intro i
    show (s.marks.set root .inProgress root.isLt).get i = .done ↔ i ∈ s.finished
    rw [mark_set, ← hv.isDone i]
    by_cases hi : i = root
    · subst hi
      simp [hmark]
    · rw [if_neg hi]

/-! ## Whole runs -/

/-- The states that the search of a graph goes through: a path is begun only
where the one before it has ended, at a node that has not been visited. -/
inductive Search.Reached (g : Graph) : Search g → Prop
  | start : Reached g (.start g)
  | enter {s : Search g} {root : Fin g.size} : Reached g s → s.path = [] →
      s.marks.get root = .unvisited → Reached g (s.enter root)
  | step {s s' : Search g} {f : Frame g} {below : List (Frame g)} : Reached g s →
      s.path = f :: below → s.step f below = .ok s' → Reached g s'

/-- The invariant holds of every state of the search. -/
theorem Search.Reached.valid {s : Search g} (h : Search.Reached g s) : s.Valid := by
  induction h with
  | start => exact .start g
  | enter _ hpath hmark ih => exact ih.enter hpath hmark
  | step _ hpath hstep ih => exact ih.move hpath (Search.move_of_step hstep)

/-- A node that has been visited stays so. -/
theorem Search.Move.visited {s s' : Search g} {f : Frame g} {below : List (Frame g)}
    (h : s.Move f below s') {i : Fin g.size} (hi : s.marks.get i ≠ .unvisited) :
    s'.marks.get i ≠ .unvisited := by
  cases h with
  | leave _ => exact mark_set_visited hi f.node (by simp)
  | pass _ _ => exact hi
  | @descend _ t _ _ _ => exact mark_set_visited hi t (by simp)

/-- The search has gone on from `s` to `s'`, and what was visited stays so. -/
structure Search.Later (s s' : Search g) : Prop where
  reached : Search.Reached g s'
  visited : ∀ i : Fin g.size, s.marks.get i ≠ .unvisited → s'.marks.get i ≠ .unvisited

theorem Search.Later.trans {s s' s'' : Search g} (h : s.Later s') (h' : s'.Later s'') :
    s.Later s'' :=
  ⟨h'.reached, fun i hi => h'.visited i (h.visited i hi)⟩

/-- The search of a graph gets to a move that fails with `err`. -/
def Search.FailsBy (g : Graph) (err : BuildError) : Prop :=
  ∃ (s : Search g) (f : Frame g) (below : List (Frame g)),
    Search.Reached g s ∧ s.path = f :: below ∧ s.Halt f below err

theorem Search.Reached.later_step {s s' : Search g} {f : Frame g} {below : List (Frame g)}
    (h : Search.Reached g s) (hpath : s.path = f :: below) (hstep : s.step f below = .ok s') :
    s.Later s' :=
  ⟨h.step hpath hstep, fun _ hi => (Search.move_of_step hstep).visited hi⟩

theorem Search.Reached.later_enter {s : Search g} {root : Fin g.size} (h : Search.Reached g s)
    (hpath : s.path = []) (hmark : s.marks.get root = .unvisited) : s.Later (s.enter root) :=
  ⟨h.enter hpath hmark, fun _ hi => mark_set_visited hi root (by simp)⟩

/-- A run that succeeds has used up its path. -/
theorem Search.Reached.run_ok {s s' : Search g} (h : Search.Reached g s)
    (hrun : s.run = .ok s') : s.Later s' ∧ s'.path = [] := by
  fun_induction Search.run s with
  | case1 s hpath =>
    cases hrun
    exact ⟨⟨h, fun _ hi => hi⟩, hpath⟩
  | case2 s f below hpath err hstep => cases hrun
  | case3 s f below hpath s1 hstep ih =>
    have hfirst := h.later_step hpath hstep
    obtain ⟨hrest, hend⟩ := ih hfirst.reached hrun
    exact ⟨hfirst.trans hrest, hend⟩

/-- A run that fails does so in one of its moves. -/
theorem Search.Reached.run_error {s : Search g} {err : BuildError} (h : Search.Reached g s)
    (hrun : s.run = .error err) : Search.FailsBy g err := by
  fun_induction Search.run s with
  | case1 s hpath => cases hrun
  | case2 s f below hpath err' hstep =>
    cases hrun
    exact ⟨s, f, below, h, hpath, Search.halt_of_step hstep⟩
  | case3 s f below hpath s1 hstep ih => exact ih (h.step hpath hstep) hrun

/-- Searching from roots in turn visits every one of them. -/
theorem Search.Reached.visit_ok {s s' : Search g} {roots : List (Fin g.size)}
    (h : Search.Reached g s) (hpath : s.path = []) (hvisit : s.visit roots = .ok s') :
    s.Later s' ∧ s'.path = [] ∧ ∀ i ∈ roots, s'.marks.get i ≠ .unvisited := by
  induction roots generalizing s with
  | nil =>
    cases hvisit
    exact ⟨⟨h, fun _ hi => hi⟩, hpath, by simp⟩
  | cons root rest ih =>
    -- whether or not the search goes through `root`, the state before the rest has visited it
    obtain ⟨s1, hlater, hpath1, hroot, hrest⟩ : ∃ s1, s.Later s1 ∧ s1.path = [] ∧
        s1.marks.get root ≠ .unvisited ∧ s1.visit rest = .ok s' := by
      rw [Search.visit] at hvisit
      split at hvisit
      · next hmark =>
        split at hvisit
        · cases hvisit
        · next s1 hrun =>
          have henter : s.Later (s.enter root) := h.later_enter hpath hmark
          have hentered : (s.enter root).marks.get root ≠ .unvisited := by
            simp [Search.enter, mark_set]
          obtain ⟨hlater, hpath1⟩ := henter.reached.run_ok hrun
          exact ⟨s1, henter.trans hlater, hpath1, hlater.visited root hentered, hvisit⟩
      · next hmark => exact ⟨s, ⟨h, fun _ hi => hi⟩, hpath, hmark, hvisit⟩
    obtain ⟨hlast, hend, hall⟩ := ih hlater.reached hpath1 hrest
    refine ⟨hlater.trans hlast, hend, ?_⟩
    intro i hi
    rcases List.mem_cons.mp hi with rfl | hi
    · exact hlast.visited i hroot
    · exact hall i hi

theorem Search.Reached.visit_error {s : Search g} {roots : List (Fin g.size)} {err : BuildError}
    (h : Search.Reached g s) (hpath : s.path = []) (hvisit : s.visit roots = .error err) :
    Search.FailsBy g err := by
  induction roots generalizing s with
  | nil => cases hvisit
  | cons root rest ih =>
    rw [Search.visit] at hvisit
    split at hvisit
    · next hmark =>
      have henter : Search.Reached g (s.enter root) := h.enter hpath hmark
      split at hvisit
      · next hrun =>
        cases hvisit
        exact henter.run_error hrun
      · next s1 hrun =>
        obtain ⟨hlater, hpath1⟩ := henter.run_ok hrun
        exact ih hlater.reached hpath1 hvisit
    · exact ih h hpath hvisit

/-- When the search is over, the finished nodes are all nodes of the graph. -/
theorem Search.Valid.finished_perm {s : Search g} (hv : s.Valid) (hpath : s.path = [])
    (hall : ∀ i : Fin g.size, s.marks.get i ≠ .unvisited) :
    s.finished.Perm (List.finRange g.size) := by
  rw [List.perm_ext_iff_of_nodup hv.doneNodup (List.nodup_finRange _)]
  intro i
  rw [← hv.isDone i]
  refine ⟨fun _ => List.mem_finRange i, fun _ => ?_⟩
  cases hmark : s.marks.get i with
  | unvisited => exact absurd hmark (hall i)
  | inProgress =>
    -- it would be on the path, which is empty
    rw [hv.onPath i, hpath] at hmark
    simp at hmark
  | done => rfl

/-- An order comes from a state in which the search is over. -/
theorem exists_search_of_order {order : List Node} (h : g.order = .ok order) :
    ∃ s : Search g, s.Valid ∧ s.finished.Perm (List.finRange g.size) ∧
      order = s.finished.map g.node := by
  unfold Graph.order at h
  split at h
  · cases h
  · next s hvisit =>
    cases h
    obtain ⟨hlater, hpath, hall⟩ := Search.Reached.visit_ok .start rfl hvisit
    have hv := hlater.reached.valid
    exact ⟨s, hv, hv.finished_perm hpath (fun i => hall i (List.mem_finRange i)), rfl⟩

/-- A graph without an order is one whose search fails. -/
theorem failsBy_of_order {err : BuildError} (h : g.order = .error err) : Search.FailsBy g err := by
  unfold Graph.order at h
  split at h
  · next hvisit =>
    cases h
    exact Search.Reached.visit_error .start rfl hvisit
  · cases h

end ShaderGraph.Graph
