import ShaderGraph.Graph.Dot
import ShaderGraph.Proofs.Check

/-!
# Drawings can be read back

A drawing keeps the ids of a graph and the ends and labels of its edges, whatever
characters they are made of. `readDrawing` reads them: the text is cut into words
(`scan`), where a quoted name ends at the first quote that no backslash stands before,
the words into statements at the semicolons outside quotes, and each statement shows a
node, the sink point, an edge, or nothing of the graph.

Both steps go piece by piece. Pieces that end outside of quotes are scanned on their own
(`words_append`), and a text in quotes is one word, whatever it holds (`words_quoted`).
Every line up to its semicolon is one statement (`shows_statement`), so the lines of a
drawing show the nodes and edges of its graph in order (`readShown_dot`).
-/

namespace ShaderGraph.Graph

/-! ## Words -/

/-- A word of a drawing. -/
inductive DotWord where
  /-- A quoted name, without its quotes and escapes. -/
  | quoted (text : List Char)
  /-- A character outside of quotes. -/
  | mark (c : Char)
deriving DecidableEq

/-- Where the scanner stands: outside of quotes, inside, or inside behind a backslash.
The characters of the name so far are in reverse. -/
inductive ScanState where
  | outside
  | inside (name : List Char)
  | escaped (name : List Char)

/-- Spaces and line feeds, which separate words. -/
def isGap (c : Char) : Bool := c == ' ' || c == '\n'

/-- The words of a text, unless it ends inside of quotes. -/
def scan : ScanState → List Char → Option (List DotWord)
  | .outside, [] => some []
  | .inside _, [] => none
  | .escaped _, [] => none
  | .outside, c :: rest =>
    if c = '"' then scan (.inside []) rest
    else if isGap c then scan .outside rest
    else (scan .outside rest).map (.mark c :: ·)
  | .inside name, c :: rest =>
    if c = '"' then (scan .outside rest).map (.quoted name.reverse :: ·)
    else if c = '\\' then scan (.escaped name) rest
    else scan (.inside (c :: name)) rest
  | .escaped name, c :: rest => scan (.inside (c :: name)) rest

/-- The words of a whole text. -/
def words (text : String) : Option (List DotWord) := scan .outside text.toList

/-! ## Statements -/

/-- An edge as a drawing shows it. -/
structure DrawnEdge where
  source : String
  target : Target
  label : String
deriving DecidableEq

/-- What a statement shows. -/
inductive Shown where
  | node (id : String)
  | sinkPoint
  | edge (e : DrawnEdge)
  /-- Nothing of the graph: a default attribute, or the end of the drawing. -/
  | nothing
deriving DecidableEq

/-- What a quoted name stands for. -/
def readName : List Char → Option Target
  | 'n' :: 'o' :: 'd' :: 'e' :: ':' :: id => some (.node (String.ofList id))
  | ['s', 'i', 'n', 'k', ':', '_'] => some .sink
  | _ => none

/-- A point that is a statement of its own. -/
def Shown.ofPoint : Target → Shown
  | .node id => .node id
  | .sink => .sinkPoint

/-- The label among the attributes of an edge. -/
def readLabel : List DotWord → Option String
  | [.mark '[', .mark 'l', .mark 'a', .mark 'b', .mark 'e', .mark 'l', .mark '=',
      .quoted label, .mark ']'] => some (String.ofList label)
  | _ => none

/-- What the words of a statement show. Statements that begin with a name show a point
or an edge. -/
def readStatement : List DotWord → Option Shown
  | .quoted name :: .mark '[' :: _ => (readName name).map .ofPoint
  | .quoted source :: .mark '-' :: .mark '>' :: .quoted target :: attributes =>
    match readName source, readName target, readLabel attributes with
    | some (.node source), some target, some label => some (.edge ⟨source, target, label⟩)
    | _, _, _ => none
  | .quoted _ :: _ => none
  | _ => some .nothing

/-- What the statements of a text show. -/
def readShown (text : String) : Option (List Shown) :=
  (words text).bind fun ws => (ws.splitOn (.mark ';')).mapM readStatement

/-! ## Drawings -/

/-- What a drawing keeps of a graph. -/
structure Drawing where
  ids : List String
  /-- Whether the sink is drawn. -/
  sink : Bool
  edges : List DrawnEdge

/-- The id of the node that a statement shows. -/
def Shown.id? : Shown → Option String
  | .node id => some id
  | _ => none

/-- The edge that a statement shows. -/
def Shown.edge? : Shown → Option DrawnEdge
  | .edge e => some e
  | _ => none

/-- The drawing that statements make. -/
def Drawing.ofShown (shown : List Shown) : Drawing :=
  ⟨shown.filterMap Shown.id?, shown.contains .sinkPoint, shown.filterMap Shown.edge?⟩

/-- The drawing that a text describes. -/
def readDrawing (text : String) : Option Drawing := (readShown text).map .ofShown

/-- An edge of the node `n` as it is drawn. -/
def drawnEdge (n : Node) (e : Edge) : DrawnEdge := ⟨n.id, e.target, dotLabel n e⟩

/-- What the drawing of a graph keeps of it. -/
def drawing (g : Graph) : Drawing :=
  ⟨g.ids, g.edges.any (·.2.target == .sink), g.edges.map fun e => drawnEdge e.1 e.2⟩

/-! ## Words of the pieces -/

/-- A text that ends outside of quotes has its words, whatever follows. -/
theorem scan_append {state : ScanState} {cs : List Char} {ws : List DotWord}
    (h : scan state cs = some ws) (rest : List Char) :
    scan state (cs ++ rest) = (scan .outside rest).map (ws ++ ·) := by
  fun_induction scan state cs generalizing ws with
  | case1 =>
    obtain rfl := Option.some.inj h
    simp
  -- a text that ends inside of quotes has no words
  | case2 => cases h
  | case3 => cases h
  | case4 cs ih => exact ih h
  | case5 c cs hquote hgap ih =>
    rw [List.cons_append, scan, if_neg hquote, if_pos hgap]
    exact ih h
  | case6 c cs hquote hgap ih =>
    obtain ⟨vs, hvs, rfl⟩ := Option.map_eq_some_iff.mp h
    rw [List.cons_append, scan, if_neg hquote, if_neg hgap, ih hvs, Option.map_map]
    rfl
  | case7 name cs ih =>
    obtain ⟨vs, hvs, rfl⟩ := Option.map_eq_some_iff.mp h
    rw [List.cons_append, scan, if_pos rfl, ih hvs, Option.map_map]
    rfl
  | case8 name cs hquote ih => exact ih h
  | case9 name c cs hquote hslash ih =>
    rw [List.cons_append, scan, if_neg hquote, if_neg hslash]
    exact ih h
  | case10 name c cs ih => exact ih h

theorem words_append_rest {a : String} {us : List DotWord} (ha : words a = some us)
    (rest : String) : words (a ++ rest) = (words rest).map (us ++ ·) := by
  show scan .outside (a ++ rest).toList = _
  rw [String.toList_append]
  exact scan_append ha rest.toList

theorem words_append {a b : String} {us vs : List DotWord} (ha : words a = some us)
    (hb : words b = some vs) : words (a ++ b) = some (us ++ vs) := by
  rw [words_append_rest ha, hb]
  rfl

/-- The words of a text without quotes. -/
def marks (s : String) : List DotWord := (s.toList.filter (!isGap ·)).map .mark

theorem words_marks {s : String} (h : '"' ∉ s.toList) : words s = some (marks s) := by
  unfold words marks
  generalize s.toList = cs at h ⊢
  induction cs with
  | nil => rfl
  | cons c cs ih =>
    obtain ⟨hc, hcs⟩ := List.ne_and_not_mem_of_not_mem_cons h
    rw [scan, if_neg (Ne.symm hc), ih hcs]
    by_cases hgap : isGap c = true
    · rw [if_pos hgap, List.filter_cons_of_neg (by simp [hgap])]
    · rw [if_neg hgap, List.filter_cons_of_pos (by simp [hgap])]
      rfl

/-- How a character is written inside a quoted name. -/
def dotEscape (c : Char) : List Char :=
  if c = '\\' then ['\\', '\\'] else if c = '"' then ['\\', '"'] else [c]

/-- The two replacements make up one pass: what the first puts in has no quotes for the
second to find. -/
theorem toList_dotEscaped (s : String) : (dotEscaped s).toList = s.toList.flatMap dotEscape := by
  rw [dotEscaped, String.toList_ofList, replaceChar, replaceChar, List.flatMap_assoc]
  congr 1
  funext c
  unfold dotEscape
  by_cases hslash : c = '\\'
  · rw [if_pos hslash, if_pos hslash]
    rfl
  · rw [if_neg hslash, if_neg hslash, List.flatMap_singleton]

/-- Inside of quotes, an escaped character is read as itself. -/
theorem scan_dotEscape (c : Char) (name rest : List Char) :
    scan (.inside name) (dotEscape c ++ rest) = scan (.inside (c :: name)) rest := by
  by_cases hslash : c = '\\'
  · subst hslash
    rfl
  · by_cases hquote : c = '"'
    · subst hquote
      rfl
    · rw [dotEscape, if_neg hslash, if_neg hquote, List.singleton_append, scan, if_neg hquote,
        if_neg hslash]

/-- An escaped text is read as itself, and the quote behind it ends the name. -/
theorem scan_escaped (text name : List Char) :
    scan (.inside name) (text.flatMap dotEscape ++ ['"'])
      = some [.quoted (name.reverse ++ text)] := by
  induction text generalizing name with
  | nil => simp [scan]
  | cons c text ih =>
    rw [List.flatMap_cons, List.append_assoc, scan_dotEscape, ih, List.reverse_cons,
      List.append_assoc]
    rfl

/-- A text in quotes. -/
def dotQuoted (s : String) : String := "\"" ++ dotEscaped s ++ "\""

theorem words_quoted (s : String) : words (dotQuoted s) = some [.quoted s.toList] := by
  have hchars : (dotQuoted s).toList = '"' :: (s.toList.flatMap dotEscape ++ ['"']) := by
    simp [dotQuoted, toList_dotEscaped]
  show scan .outside (dotQuoted s).toList = _
  rw [hchars]
  exact scan_escaped s.toList []

theorem dotEscaped_append (s t : String) :
    dotEscaped (s ++ t) = dotEscaped s ++ dotEscaped t := by
  simp [dotEscaped, replaceChar]

/-! ## Names -/

/-- The text of a name. -/
def nameText : Target → String
  | .node id => "node:" ++ id
  | .sink => "sink:_"

theorem dotTarget_eq_quoted (t : Target) : dotTarget t = dotQuoted (nameText t) := by
  cases t with
  | node id =>
    show dotName id = dotQuoted ("node:" ++ id)
    rw [dotQuoted, dotEscaped_append]
    rfl
  | sink => decide

theorem readName_nameText (t : Target) : readName (nameText t).toList = some t := by
  cases t with
  | node id =>
    show readName ("node:" ++ id).toList = _
    rw [String.toList_append]
    show some (Target.node (String.ofList id.toList)) = _
    rw [String.ofList_toList]
  | sink => rfl

theorem words_target (t : Target) :
    words (dotTarget t) = some [.quoted (nameText t).toList] := by
  rw [dotTarget_eq_quoted]
  exact words_quoted (nameText t)

/-- Targets with one name are the same, so nothing else has the name of the sink. -/
theorem dotTarget_injective : Function.Injective dotTarget := by
  intro t u h
  have hwords := words_target t
  rw [h, words_target u] at hwords
  have htext : (nameText u).toList = (nameText t).toList := by simpa using hwords
  have hread := readName_nameText t
  rw [← htext, readName_nameText u] at hread
  exact (Option.some.inj hread).symm

/-! ## What the lines show -/

theorem readStatement_point {name : List Char} {t : Target} (h : readName name = some t)
    (attributes : List DotWord) :
    readStatement (.quoted name :: .mark '[' :: attributes) = some (.ofPoint t) := by
  rw [readStatement, h]
  rfl

theorem readStatement_edge {source target : List Char} {id : String} {t : Target}
    (hsource : readName source = some (.node id)) (htarget : readName target = some t)
    (label : List Char) :
    readStatement (.quoted source :: .mark '-' :: .mark '>' :: .quoted target
        :: (marks " [label=" ++ [.quoted label, .mark ']']))
      = some (.edge ⟨id, t, String.ofList label⟩) := by
  rw [readStatement, hsource, htarget]
  rfl

/-- A text shows the given parts of a graph, and what follows is read on its own. -/
def Shows (text : String) (shown : List Shown) : Prop :=
  ∀ rest, readShown (text ++ rest) = (readShown rest).map (shown ++ ·)

theorem Shows.empty : Shows "" [] := by
  intro rest
  rw [String.empty_append]
  simp

theorem Shows.append {a b : String} {xs ys : List Shown} (ha : Shows a xs) (hb : Shows b ys) :
    Shows (a ++ b) (xs ++ ys) := by
  intro rest
  rw [String.append_assoc, ha, hb, Option.map_map]
  congr 1
  funext zs
  exact (List.append_assoc xs ys zs).symm

theorem Shows.join {α : Type} {line : α → String} {shown : α → Shown}
    (h : ∀ x, Shows (line x) [shown x]) (xs : List α) :
    Shows (String.join (xs.map line)) (xs.map shown) := by
  induction xs with
  | nil => exact Shows.empty
  | cons x xs ih =>
    rw [List.map_cons, String.join_cons]
    exact (h x).append ih

/-- Words up to a semicolon are one statement. -/
theorem shows_statement {line : String} {ws : List DotWord} {shown : Shown}
    (hwords : words line = some (ws ++ [.mark ';'])) (hsemi : .mark ';' ∉ ws)
    (hread : readStatement ws = some shown) : Shows line [shown] := by
  intro rest
  unfold readShown
  rw [words_append_rest hwords]
  cases words rest with
  | none => rfl
  | some vs =>
    -- semicolons in quotes are part of a word, so the first cut is at the line's own
    have hcut : (ws ++ [DotWord.mark ';'] ++ vs).splitOn (.mark ';')
        = ws :: vs.splitOn (.mark ';') := by
      rw [List.append_assoc, List.singleton_append]
      exact List.splitOn_append_cons_self_of_not_mem hsemi vs
    show ((ws ++ [DotWord.mark ';'] ++ vs).splitOn (.mark ';')).mapM readStatement = _
    rw [hcut, List.mapM_cons, hread]
    show _ = ((vs.splitOn (.mark ';')).mapM readStatement).map ([shown] ++ ·)
    cases (vs.splitOn (.mark ';')).mapM readStatement <;> rfl

theorem shows_blank : Shows "\n" [] := by
  intro rest
  unfold readShown
  rw [words_append_rest (show words "\n" = some [] from rfl)]
  simp

/-- Behind the label of a node there is only its shape. -/
theorem dotAttributes_eq (n : Node) :
    ∃ label shape, dotAttributes n = "label=" ++ dotQuoted label ++ shape ∧
      '"' ∉ shape.toList ∧ ';' ∉ shape.toList := by
  have hbox : "label=\"" ++ dotEscaped n.id ++ ": " ++ dotEscaped n.tag ++ "\", shape=box"
      = "label=" ++ dotQuoted (n.id ++ ": " ++ n.tag) ++ ", shape=box" := by
    simp [← String.toList_inj, dotQuoted, toList_dotEscaped, dotEscape]
  unfold dotAttributes
  cases n.binding with
  | none => exact ⟨_, ", shape=box", hbox, by simp, by simp⟩
  | some b =>
    by_cases hext : n.isExternal = true
    · refine ⟨n.id ++ ": " ++ b.qualifier ++ " " ++ b.dataType ++ " " ++ b.name,
        ", shape=ellipse", ?_, by simp, by simp⟩
      simp [← String.toList_inj, hext, dotQuoted, toList_dotEscaped, dotEscape]
    · simp only [if_neg hext]
      exact ⟨_, ", shape=box", hbox, by simp, by simp⟩

theorem words_attributes (n : Node) :
    ∃ ws, words (dotAttributes n) = some ws ∧ .mark ';' ∉ ws := by
  obtain ⟨label, shape, heq, hquote, hsemi⟩ := dotAttributes_eq n
  have hlabel : words "label=" = some (marks "label=") := words_marks (by simp)
  rw [heq, words_append (words_append hlabel (words_quoted label)) (words_marks hquote)]
  refine ⟨_, rfl, ?_⟩
  simp [marks, hsemi]

/-- A line with attributes is one statement. -/
theorem shows_line {body : String} {ws : List DotWord} {shown : Shown}
    (hwords : words body = some ws) (hsemi : .mark ';' ∉ ws)
    (hread : readStatement (ws ++ [.mark ']']) = some shown) :
    Shows ("    " ++ body ++ "];\n") [shown] := by
  have hindent : words "    " = some [] := by decide
  have hclose : words "];\n" = some ([.mark ']'] ++ [.mark ';']) := by decide
  refine shows_statement ?_ ?_ hread
  · rw [words_append (words_append hindent hwords) hclose, ← List.append_assoc]
    rfl
  · simp [hsemi]

theorem shows_nodeLine (n : Node) : Shows (dotNodeLine n) [.node n.id] := by
  have hline : dotNodeLine n
      = "    " ++ (dotTarget (.node n.id) ++ " [" ++ dotAttributes n) ++ "];\n" := by
    simp [dotNodeLine, dotTarget, String.append_assoc]
  obtain ⟨attributes, hattributes, hsemi⟩ := words_attributes n
  have hopen : words " [" = some [.mark '['] := by decide
  rw [hline]
  refine shows_line (words_append (words_append (words_target (.node n.id)) hopen) hattributes)
    ?_ ?_
  · simp [hsemi]
  · exact readStatement_point (readName_nameText (.node n.id)) _

theorem shows_edgeLine (n : Node) (e : Edge) :
    Shows (dotEdgeLine n e) [.edge (drawnEdge n e)] := by
  have hline : dotEdgeLine n e = "    " ++ (dotTarget (.node n.id) ++ " -> "
      ++ dotTarget e.target ++ " [label=" ++ dotQuoted (dotLabel n e)) ++ "];\n" := by
    simp [← String.toList_inj, dotEdgeLine, dotQuoted, dotTarget]
  have harrow : words " -> " = some [.mark '-', .mark '>'] := by decide
  have hlabel : words " [label=" = some (marks " [label=") := words_marks (by simp)
  have hends := words_append (words_append (words_target (.node n.id)) harrow)
    (words_target e.target)
  rw [hline]
  refine shows_line (words_append (words_append hends hlabel) (words_quoted (dotLabel n e)))
    ?_ ?_
  · simp [marks]
  · have hread := readStatement_edge (readName_nameText (.node n.id)) (readName_nameText e.target)
      (dotLabel n e).toList
    rwa [String.ofList_toList] at hread

theorem shows_sinkLine : Shows dotSinkLine [.sinkPoint] := by
  have hline : dotSinkLine = "    " ++ (dotTarget .sink ++ " [label=" ++ dotQuoted sinkMarker
      ++ ", shape=point, width=0.15") ++ "];\n" := by decide
  have hlabel : words " [label=" = some (marks " [label=") := words_marks (by simp)
  have hshape : words ", shape=point, width=0.15" = some (marks ", shape=point, width=0.15") :=
    words_marks (by simp)
  rw [hline]
  refine shows_line (words_append (words_append (words_append (words_target .sink) hlabel)
    (words_quoted sinkMarker)) hshape) ?_ ?_
  · simp [marks]
  · exact readStatement_point (readName_nameText .sink) _

/-- Default attributes show nothing of the graph. -/
theorem shows_header : Shows dotHeader [.nothing, .nothing, .nothing] := by
  have hlines : dotHeader = "digraph shader \x7b\n    rankdir=LR" ++ ";\n"
      ++ ("    " ++ ("node [fontname=" ++ dotQuoted "Helvetica" ++ ", fontsize=10") ++ "];\n")
      ++ ("    " ++ ("edge [fontname=" ++ dotQuoted "Helvetica" ++ ", fontsize=9") ++ "];\n")
      ++ "\n" := by decide
  have hend : words ";\n" = some [.mark ';'] := by decide
  have hrank : Shows ("digraph shader \x7b\n    rankdir=LR" ++ ";\n") [.nothing] :=
    shows_statement (words_append (words_marks (by simp)) hend) (by simp [marks]) rfl
  have hnode : Shows ("    " ++ ("node [fontname=" ++ dotQuoted "Helvetica" ++ ", fontsize=10")
      ++ "];\n") [.nothing] :=
    shows_line (words_append (words_append (words_marks (by simp)) (words_quoted _))
      (words_marks (by simp))) (by simp [marks]) rfl
  have hedge : Shows ("    " ++ ("edge [fontname=" ++ dotQuoted "Helvetica" ++ ", fontsize=9")
      ++ "];\n") [.nothing] :=
    shows_line (words_append (words_append (words_marks (by simp)) (words_quoted _))
      (words_marks (by simp))) (by simp [marks]) rfl
  rw [hlines]
  exact ((hrank.append hnode).append hedge).append shows_blank

/-! ## Drawings of graphs -/

/-- The statements of a drawing. -/
def shownOf (g : Graph) : List Shown :=
  [.nothing, .nothing, .nothing]
    ++ g.nodes.toList.map (fun n => .node n.id)
    ++ (if g.edges.any (·.2.target == .sink) then [.sinkPoint] else [])
    ++ g.edges.map (fun e => .edge (drawnEdge e.1 e.2))
    ++ [.nothing]

theorem readShown_dot (g : Graph) : readShown g.dot = some (shownOf g) := by
  have hsink : Shows (if g.edges.any (·.2.target == .sink) then dotSinkLine else "")
      (if g.edges.any (·.2.target == .sink) then [.sinkPoint] else []) := by
    split
    · exact shows_sinkLine
    · exact Shows.empty
  have hblank : Shows (if 0 < g.edgeCount then "\n" else "") [] := by
    split
    · exact shows_blank
    · exact Shows.empty
  have hnodes := Shows.join shows_nodeLine g.nodes.toList
  have hedges := Shows.join (fun e : Node × Edge => shows_edgeLine e.1 e.2) g.edges
  have hend : readShown "\x7d\n" = some [.nothing] := rfl
  have hlines := (((shows_header.append hnodes).append hsink).append hblank).append hedges
  rw [dot, hlines, hend, shownOf]
  simp

/-- A drawing is read as the nodes and edges of its graph. -/
theorem readDrawing_dot (g : Graph) : readDrawing g.dot = some g.drawing := by
  have hids : (shownOf g).filterMap Shown.id? = g.ids := by
    unfold shownOf
    split <;> simp [List.filterMap_cons, List.filterMap_map, Shown.id?, Function.comp_def, ids]
  have hsink : (shownOf g).contains .sinkPoint = g.edges.any (·.2.target == .sink) := by
    unfold shownOf
    cases g.edges.any (·.2.target == .sink) <;> simp
  have hedges : (shownOf g).filterMap Shown.edge? = g.edges.map fun e => drawnEdge e.1 e.2 := by
    unfold shownOf
    split <;> simp [List.filterMap_cons, List.filterMap_map, Shown.edge?, Function.comp_def]
  rw [readDrawing, readShown_dot, Option.map_some, Drawing.ofShown, hids, hsink, hedges]
  rfl

theorem drawing_of_dot {g g' : Graph} (h : g.dot = g'.dot) : g.drawing = g'.drawing := by
  have hread := readDrawing_dot g
  rw [h, readDrawing_dot g'] at hread
  exact (Option.some.inj hread).symm

/-- The ends of the edges, in order. -/
def ends (g : Graph) : List (String × Target) := g.edges.map fun e => (e.1.id, e.2.target)

theorem ends_of_drawing {g g' : Graph} (h : g.drawing = g'.drawing) : g.ends = g'.ends := by
  have hends (k : Graph) : k.ends = k.drawing.edges.map fun e => (e.source, e.target) := by
    simp [ends, drawing, drawnEdge]
  rw [hends g, hends g', h]

/-- **Drawings are unambiguous.** The ids of the nodes and the edges, each with its source,
its target and its label, can be read from a drawing, in order and whatever characters they
are made of. So graphs with other ids or other edges have other drawings, and no node is
drawn under the name of another one or of the sink. -/
theorem dot_unambiguous :
    (∀ nodes g, ofNodes nodes = .ok g →
      readDrawing g.dot = some ⟨nodes.map (·.id),
        nodes.any fun n => n.edges.any (·.target == .sink),
        nodes.flatMap fun n => n.edges.map fun e => ⟨n.id, e.target, dotLabel n e⟩⟩) ∧
    (∀ g g' : Graph, g.ids ≠ g'.ids ∨ g.ends ≠ g'.ends → g.dot ≠ g'.dot) ∧
    (∀ id id', dotName id = dotName id' → id = id') ∧
    (∀ id, dotName id ≠ dotSink) := by
  refine ⟨?_, ?_, ?_, ?_⟩
  · intro nodes g hgraph
    obtain rfl := nodes_of_ofNodes hgraph
    rw [readDrawing_dot]
    simp [drawing, ids, edges, drawnEdge, List.map_flatMap, List.any_flatMap, Function.comp_def]
  · intro g g' hne hdot
    have hdrawing : g.drawing = g'.drawing := drawing_of_dot hdot
    rcases hne with hids | hends
    · exact hids (congrArg Drawing.ids hdrawing)
    · exact hends (ends_of_drawing hdrawing)
  · intro id id' hname
    have htarget : Target.node id = Target.node id' := dotTarget_injective hname
    exact Target.node.inj htarget
  · intro id hname
    have htarget : Target.node id = Target.sink := dotTarget_injective hname
    cases htarget

/-- Two nodes whose ids and outputs are made of the marks of drawings. -/
def markedNodes : List Node :=
  [⟨"a\"];\n", "t\\", .empty, none,
      [⟨.sink, "", some "\" [label=\""⟩, ⟨.node "_", "in", some "-> \\"⟩]⟩,
    .ofType "_" "sink:_"]

/-- The quotes, brackets, arrows and backslashes in ids and outputs are read as they are. -/
theorem dot_unambiguous_marked :
    ∃ g g', ofNodes markedNodes = .ok g ∧ ofNodes markedNodes.reverse = .ok g' ∧
      readDrawing g.dot = some ⟨["a\"];\n", "_"], true,
        [⟨"a\"];\n", .sink, "\" [label=\""⟩, ⟨"a\"];\n", .node "_", "-> \\ → in"⟩]⟩ ∧
      g.dot ≠ g'.dot ∧ dotName "_" ≠ dotName "sink:_" ∧ dotName "sink:_" ≠ dotSink := by
  have hids : markedNodes.map (·.id) ≠ markedNodes.reverse.map (·.id) := by decide
  refine ⟨_, _, rfl, rfl, dot_unambiguous.1 markedNodes _ rfl, ?_, ?_, ?_⟩
  · exact dot_unambiguous.2.1 _ _ (.inl hids)
  · intro hname
    have hid : "_" = "sink:_" := dot_unambiguous.2.2.1 _ _ hname
    exact absurd hid (by decide)
  · exact dot_unambiguous.2.2.2 "sink:_"

end ShaderGraph.Graph
