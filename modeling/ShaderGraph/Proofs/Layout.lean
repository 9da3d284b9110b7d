import ShaderGraph.Proofs.Assembly
import ShaderGraph.Proofs.Source

/-!
# What a layout changes

A layout decides how a program is written and nothing else. The rows of a program are
made of what its nodes bring (`sourceRows`), and each of them may begin with
indentation.

* **indentation** — without the spaces and tabs that rows begin with, the rows are
  those of a layout that does not indent (`unindent_sourceRows`);
* **comments** — a comment is one row, before the declarations of a library node that
  has inputs and before the block of every node; without comments these rows are not
  there (`commentRows_of_comments`, `commentRows_of_plain`).
-/

namespace ShaderGraph

open ShaderGraph.Template ShaderGraph.Text

/-! ## The rows of a source -/

/-- The characters that lines are indented with. -/
def isIndent (c : Char) : Bool := c == ' ' || c == '\t'

/-- Rows without the indentation they begin with. -/
def unindent (rs : List Row) : List Row := rs.map (·.dropWhile isIndent)

/-- The layout indents with spaces and tabs only. -/
def Layout.IndentsByBlanks (l : Layout) : Prop := ∀ c ∈ l.indent.toList, isIndent c = true

namespace Node

/-- A node of the library whose type has at least one input. -/
def declares (lib : Library) (n : Node) : Bool := !(lib.inputsOf n.tag).isEmpty

/-- The declarations for the inputs of a node. -/
def declarationRows (lib : Library) (indent : String) (n : Node) : List Row :=
  (n.storage lib).flatMap (Storage.rows indent)

/-- The block of a node. -/
def blockRows (lib : Library) (compiler : BodyCompiler) (indent : String) (n : Node) :
    List Row :=
  (n.block lib compiler).code.rows indent

/-- The comment that names a node. -/
def comment (indent : String) (n : Node) : String :=
  indent ++ ("// node " ++ n.id ++ ", " ++ n.tag)

end Node

/-- The rows of a program of nodes, with the given rows before the declarations of each
library node that has inputs, and before the block of each node. -/
def sourceRows (lib : Library) (compiler : BodyCompiler) (entry indent : String)
    (nodes : List Node) (comments : Node → List Row) : List Row :=
  sectionRows ((nodes.filterMap Node.bridge?).map Binding.rows)
    ++ rows (entry ++ " \x7b")
    ++ sectionRows ((nodes.filter (Node.declares lib)).map fun n =>
      comments n ++ n.declarationRows lib indent)
    ++ nodes.flatMap (fun n => comments n ++ n.blockRows lib compiler indent)
    ++ [['}'], []]

section Text

variable (lib : Library) (compiler : BodyCompiler)

/-- One group for each library node that has inputs. -/
theorem groups_eq (nodes : List Node) :
    nodes.filterMap (Node.group? lib) =
      (nodes.filter (Node.declares lib)).map fun n => ⟨n.id, n.tag, n.storage lib⟩ := by
  induction nodes with
  | nil => rfl
  | cons n rest ih =>
    rw [List.filterMap_cons, List.filter_cons, ih]
    by_cases hempty : (lib.inputsOf n.tag).isEmpty = true
    · simp [Node.group?, Node.declares, hempty]
    · simp [Node.group?, Node.declares, hempty]

/-- The text of a program of nodes, row by row. -/
theorem rows_assembled (l : Layout) (nodes : List Node) :
    rows ((assembled lib compiler nodes).1.text l) =
      sourceRows lib compiler l.entry l.indent nodes (fun n => l.commentRows n.id n.tag) := by
  have hgroups : (nodes.filterMap (Node.group? lib)).map (InputGroup.rows l) =
      (nodes.filter (Node.declares lib)).map fun n =>
        l.commentRows n.id n.tag ++ n.declarationRows lib l.indent := by
    rw [groups_eq, List.map_map]
    rfl
  have hblocks : (nodes.map (Node.block lib compiler)).flatMap (Block.rows l) =
      nodes.flatMap fun n => l.commentRows n.id n.tag ++ n.blockRows lib compiler l.indent := by
    rw [List.flatMap_map]
    rfl
  rw [rows_text, sourceRows, ← hgroups, ← hblocks]
  rfl

end Text

/-! ## What assembly gives for any nodes -/

section Assembly

variable {lib : Library} {compiler : BodyCompiler} {nodes : List Node}

theorem bindings_of_ok {bindings : List Binding} (h : externalBindings nodes = .ok bindings) :
    bindings = nodes.filterMap Node.bridge? := by
  induction nodes generalizing bindings with
  | nil =>
    cases h
    rfl
  | cons n rest ih =>
    unfold externalBindings at h
    split at h
    · next hext =>
      split at h
      · cases h
      · next b hb =>
        split at h
        · cases h
        · next more hrest =>
          cases h
          simp [Node.bridge?, hext, hb, ih hrest]
    · next hext => simp [Node.bridge?, hext, ih h]

theorem name_of_register {names names' : StorageNames} {id input name : String}
    (h : names.register id input = .ok (names', name)) : name = storageName id input := by
  unfold StorageNames.register at h
  simp only at h
  split at h
  · cases h
    rfl
  · split at h
    · cases h
      rfl
    · cases h

theorem storage_of_ok {id : String} {inputs : List Socket} {names names' : StorageNames}
    {storage : List Storage} (h : declareInputs id names inputs = .ok (names', storage)) :
    storage = Node.storageOf id inputs := by
  induction inputs generalizing names storage with
  | nil =>
    cases h
    rfl
  | cons p rest ih =>
    unfold declareInputs at h
    split at h
    · cases h
    · next names1 name hregister =>
      split at h
      · cases h
      · next names2 more hrest =>
        cases h
        rw [name_of_register hregister, ih hrest]
        rfl

theorem groups_of_ok {names : StorageNames} {groups : List InputGroup}
    (h : inputGroups lib names nodes = .ok groups) :
    groups = nodes.filterMap (Node.group? lib) := by
  induction nodes generalizing names groups with
  | nil =>
    cases h
    rfl
  | cons n rest ih =>
    unfold inputGroups at h
    split at h
    · next hext =>
      have hnone : lib.inputsOf n.tag = [] := by
        rw [Library.inputsOf, if_pos (Node.isExternal_iff.mp hext)]
      simp [Node.group?, hnone, ih h]
    · next hext =>
      split at h
      · cases h
      · next t htype =>
        have hinputs := Library.inputsOf_eq
          (fun heq => hext (Node.isExternal_iff.mpr heq)) (typeOf_ok_iff.mp htype)
        split at h
        · next hempty => simp [Node.group?, hinputs, hempty, ih h]
        · next hinhabited =>
          split at h
          · cases h
          · next names' inputs hdeclare =>
            split at h
            · cases h
            · next more hrest =>
              cases h
              simp [Node.group?, Node.storage, hinputs, hinhabited, storage_of_ok hdeclare,
                ih hrest]

theorem hasCode_of_ok {result : List Block × List Diagnostic}
    (h : nodeBlocks lib compiler nodes = .ok result) : ∀ n ∈ nodes, n.HasCode lib compiler := by
  rcases hasCode_cases lib compiler nodes with hall | ⟨before, n, after, err, rfl, hbefore, hn⟩
  · exact hall
  · rw [nodeBlocks_of_error hbefore hn] at h
    cases h

/-- Whatever the nodes are, a program that is assembled is made of what they bring. -/
theorem assembled_of_ok {result : Program × List Diagnostic}
    (h : assemble lib compiler nodes = .ok result) : result = assembled lib compiler nodes := by
  unfold assemble at h
  split at h
  · cases h
  · next externals hexternals =>
    split at h
    · cases h
    · next groups hgroups =>
      split at h
      · cases h
      · next blocks warnings hblocks =>
        rw [nodeBlocks_eq (hasCode_of_ok hblocks)] at hblocks
        cases h
        cases hblocks
        rw [bindings_of_ok hexternals, groups_of_ok hgroups]
        rfl

end Assembly

/-! ## Indentation -/

theorem unindent_append (rs ss : List Row) : unindent (rs ++ ss) = unindent rs ++ unindent ss :=
  List.map_append

theorem unindent_flatMap {α : Type} (f : α → List Row) (xs : List α) :
    unindent (xs.flatMap f) = xs.flatMap fun x => unindent (f x) := List.map_flatMap

theorem unindent_sectionRows (parts : List (List Row)) :
    unindent (sectionRows parts) = sectionRows (parts.map unindent) := by
  unfold sectionRows
  cases parts with
  | nil => rfl
  | cons part parts =>
    show unindent ((part :: parts).flatten ++ [[]]) = ((part :: parts).map unindent).flatten ++ [[]]
    rw [unindent_append]
    show ((part :: parts).flatten).map _ ++ _ = _
    rw [List.map_flatten]
    rfl

/-- Indentation at the beginning of a row is taken away. -/
theorem unindent_rows {indent : String} (h : ∀ c ∈ indent.toList, isIndent c = true)
    (text : String) : unindent (rows (indent ++ text)) = unindent (rows ("" ++ text)) := by
  unfold rows
  rw [String.toList_append, String.empty_append]
  generalize indent.toList = cs at h
  induction cs with
  | nil => rfl
  | cons c cs ih =>
    rw [List.forall_mem_cons] at h
    have hfeed : ¬ (c == '\n') = true := by
      intro heq
      rw [beq_iff_eq.mp heq] at h
      exact absurd h.1 (by decide)
    rw [List.cons_append, List.splitOn_cons_eq_if_modifyHead, if_neg hfeed, ← ih h.2]
    cases List.splitOn '\n' (cs ++ text.toList) with
    | nil => rfl
    | cons row rest => simp [unindent, h.1]

section Indentation

variable {indent : String}

theorem unindent_lineRows (h : ∀ c ∈ indent.toList, isIndent c = true) (line : List Char) :
    unindent (lineRows indent line) = unindent (lineRows "" line) := by
  unfold lineRows
  split
  · rfl
  · rw [unindent_rows h, String.empty_append, unindent_rows h, String.empty_append,
      String.empty_append]

theorem unindent_codeRows (h : ∀ c ∈ indent.toList, isIndent c = true) (code : List Row) :
    unindent (codeRows indent code) = unindent (codeRows "" code) := by
  unfold codeRows
  rw [unindent_flatMap, unindent_flatMap]
  congr 1
  funext row
  exact unindent_lineRows h _

variable (lib : Library) (compiler : BodyCompiler)

theorem unindent_declarationRows (h : ∀ c ∈ indent.toList, isIndent c = true) (n : Node) :
    unindent (n.declarationRows lib indent) = unindent (n.declarationRows lib "") := by
  unfold Node.declarationRows
  rw [unindent_flatMap, unindent_flatMap]
  congr 1
  funext s
  exact unindent_rows h _

theorem unindent_blockRows (h : ∀ c ∈ indent.toList, isIndent c = true) (n : Node) :
    unindent (n.blockRows lib compiler indent) = unindent (n.blockRows lib compiler "") := by
  unfold Node.blockRows NodeCode.rows
  simp only [unindent_append, unindent_rows h, unindent_codeRows h]

/-- The rows of a source are those of one that is not indented, but for the
indentation. -/
theorem unindent_sourceRows (h : ∀ c ∈ indent.toList, isIndent c = true) (entry : String)
    (nodes : List Node) {comments comments' : Node → List Row}
    (hcomments : ∀ n, unindent (comments n) = unindent (comments' n)) :
    unindent (sourceRows lib compiler entry indent nodes comments) =
      unindent (sourceRows lib compiler entry "" nodes comments') := by
  unfold sourceRows
  simp only [unindent_append, unindent_sectionRows, unindent_flatMap, List.map_map,
    Function.comp_def, hcomments, unindent_declarationRows lib h, unindent_blockRows lib compiler h]

end Indentation

theorem unindent_commentRows {l l' : Layout} (hl : l.IndentsByBlanks)
    (hcomments : l.comments = l'.comments) (hindent : l'.indent = "") (id tag : String) :
    unindent (l.commentRows id tag) = unindent (l'.commentRows id tag) := by
  unfold Layout.commentRows
  rw [hcomments, hindent]
  split
  · exact unindent_rows hl _
  · rfl

/-! ## Comments -/

theorem commentRows_of_comments {l : Layout} (hl : l.IndentsByBlanks)
    (hcomments : l.comments = true) {n : Node} (hid : '\n' ∉ n.id.toList)
    (htag : '\n' ∉ n.tag.toList) :
    l.commentRows n.id n.tag = [(n.comment l.indent).toList] := by
  rw [Layout.commentRows, if_pos hcomments, rows, List.splitOn_eq_singleton]
  · rfl
  · intro hfeed
    have hindent : '\n' ∉ l.indent.toList := fun hmem => absurd (hl _ hmem) (by decide)
    simp [hid, htag, hindent] at hfeed

theorem commentRows_of_plain {l : Layout} (hcomments : l.comments = false) (id tag : String) :
    l.commentRows id tag = [] := by
  rw [Layout.commentRows, hcomments]
  rfl

theorem sourceRows_congr (lib : Library) (compiler : BodyCompiler) (entry indent : String)
    {nodes : List Node} {comments comments' : Node → List Row}
    (h : ∀ n ∈ nodes, comments n = comments' n) :
    sourceRows lib compiler entry indent nodes comments =
      sourceRows lib compiler entry indent nodes comments' := by
  have hdeclared : (nodes.filter (Node.declares lib)).map
        (fun n => comments n ++ n.declarationRows lib indent) =
      (nodes.filter (Node.declares lib)).map
        (fun n => comments' n ++ n.declarationRows lib indent) := by
    apply List.map_congr_left
    intro n hn
    rw [h n (List.mem_filter.mp hn).1]
  have hblocks : nodes.flatMap (fun n => comments n ++ n.blockRows lib compiler indent) =
      nodes.flatMap (fun n => comments' n ++ n.blockRows lib compiler indent) := by
    rw [List.flatMap_def, List.flatMap_def]
    congr 1
    apply List.map_congr_left
    intro n hn
    rw [h n hn]
  rw [sourceRows, sourceRows, hdeclared, hblocks]

/-! ## Two layouts of one program -/

/-- Under two layouts with one entry point, nodes are assembled with the same error or
with the same warnings. If both have comments or both have none, the rows differ in
indentation only. If only one has comments and no name breaks a line, its rows are those
of the other and one more before the declarations of each library node that has inputs,
and one more before the block of each node. -/
theorem assembleText_layouts (lib : Library) (compiler : BodyCompiler) (nodes : List Node)
    (l l' : Layout) (hentry : l.entry = l'.entry) (hl : l.IndentsByBlanks)
    (hl' : l'.IndentsByBlanks) :
    (∃ e, assembleText lib compiler l nodes = .error e ∧
      assembleText lib compiler l' nodes = .error e) ∨
    ∃ source source' warnings, assembleText lib compiler l nodes = .ok (source, warnings) ∧
      assembleText lib compiler l' nodes = .ok (source', warnings) ∧
      (l.comments = l'.comments → unindent (rows source) = unindent (rows source')) ∧
      (l.comments = true → l'.comments = false → l.indent = l'.indent →
        (∀ n ∈ nodes, '\n' ∉ n.id.toList ∧ '\n' ∉ n.tag.toList) →
        rows source = sourceRows lib compiler l.entry l.indent nodes
            (fun n => [(n.comment l.indent).toList]) ∧
          rows source' = sourceRows lib compiler l.entry l.indent nodes (fun _ => [])) := by
  cases hassemble : assemble lib compiler nodes with
  | error e =>
    left
    exact ⟨e, by rw [assembleText, hassemble], by rw [assembleText, hassemble]⟩
  | ok result =>
    right
    cases assembled_of_ok hassemble
    refine ⟨_, _, _, by rw [assembleText, hassemble], by rw [assembleText, hassemble], ?_, ?_⟩
    · intro hcomments
      let flat : Layout := ⟨l.entry, "", l.comments⟩
      have hflat : ∀ id tag, unindent (l.commentRows id tag) = unindent (flat.commentRows id tag) :=
        unindent_commentRows hl rfl rfl
      have hflat' : ∀ id tag,
          unindent (l'.commentRows id tag) = unindent (flat.commentRows id tag) :=
        unindent_commentRows hl' hcomments.symm rfl
      rw [rows_assembled, rows_assembled, ← hentry,
        unindent_sourceRows lib compiler hl _ _ fun n => hflat n.id n.tag,
        unindent_sourceRows lib compiler hl' _ _ fun n => hflat' n.id n.tag]
    · intro hcomments hplain hindent hnames
      rw [rows_assembled, rows_assembled, ← hentry, ← hindent]
      constructor
      · apply sourceRows_congr
        intro n hn
        exact commentRows_of_comments hl hcomments (hnames n hn).1 (hnames n hn).2
      · apply sourceRows_congr
        intro n _
        exact commentRows_of_plain hplain n.id n.tag

/-- A type whose body has a line with a carriage return, a blank line and an indented
line. -/
def rampLibrary : Library :=
  Library.empty.add "ramp"
    ⟨[⟨"t", "float"⟩], [⟨"o", "float"⟩], "o = t;\r\n  \n\to += 1.0;", .empty⟩ "sample"

def rampNodes : List Node := [
  (Node.ofBinding "u" ⟨"uniform", "float", "time"⟩).addEdge "n" "t" none,
  .ofType "n" "ramp"]

/-- One tab in the place of four spaces. -/
def tabLayout : Layout := { Layout.standard with indent := "\t" }

def plainLayout : Layout := { Layout.standard with comments := false }

theorem assembleText_layouts_ramp :
    Layout.standard.IndentsByBlanks ∧ tabLayout.IndentsByBlanks ∧
      ∃ source tabbed plain warnings,
        assembleText rampLibrary .template .standard rampNodes = .ok (source, warnings) ∧
        assembleText rampLibrary .template tabLayout rampNodes = .ok (tabbed, warnings) ∧
        assembleText rampLibrary .template plainLayout rampNodes = .ok (plain, warnings) ∧
        unindent (rows source) = unindent (rows tabbed) ∧
        rows source = sourceRows rampLibrary .template "void main(void)" "    " rampNodes
          (fun n => [(n.comment "    ").toList]) ∧
        rows plain = sourceRows rampLibrary .template "void main(void)" "    " rampNodes
          (fun _ => []) := by
  have hstandard : Layout.standard.IndentsByBlanks := by
    show ∀ c ∈ "    ".toList, isIndent c = true
    simp [isIndent]
  have htab : tabLayout.IndentsByBlanks := by
    show ∀ c ∈ "\t".toList, isIndent c = true
    simp [isIndent]
  have hok : (assembleText rampLibrary .template .standard rampNodes).isOk = true := by
    decide +kernel
  have hnames : ∀ n ∈ rampNodes, '\n' ∉ n.id.toList ∧ '\n' ∉ n.tag.toList := by decide +kernel
  refine ⟨hstandard, htab, ?_⟩
  rcases assembleText_layouts rampLibrary .template rampNodes .standard tabLayout rfl hstandard htab
    with ⟨e, herror, _⟩ | ⟨source, tabbed, warnings, hsource, htabbed, hsame, _⟩
  · rw [herror] at hok
    cases hok
  rcases assembleText_layouts rampLibrary .template rampNodes .standard plainLayout rfl hstandard
    hstandard with ⟨e, herror, _⟩ | ⟨source', plain, warnings', hsource', hplain, _, hremoved⟩
  · rw [herror] at hok
    cases hok
  rw [hsource] at hsource'
  cases hsource'
  obtain ⟨hrows, hrows'⟩ := hremoved rfl rfl rfl hnames
  exact ⟨source, tabbed, plain, warnings, hsource, htabbed, hplain, hsame rfl, hrows, hrows'⟩

end ShaderGraph
