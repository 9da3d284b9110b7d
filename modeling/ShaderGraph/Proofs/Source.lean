import Mathlib.Data.List.DropRight
import ShaderGraph.Program

/-!
# The source of a program, row by row

A row is what stands between two line feeds. `Program.rows` says which rows the source
of a program has, from the data of the program alone:

* **declarations** — `qualifier type name;` for each shader variable, and behind one
  indentation `type name;` for each storage variable, group by group;
* **blocks** — one for each node in order, between braces: `type name;` for each output,
  the rows of the body without the empty rows at its ends, and `storage = value;` for
  each copy, all behind two indentations unless they are blank;
* **comments** — before each group and each block, if the layout has them.

`hasSource_text` is the theorem that the text of a program has these rows. Every part of
it ends its last line, so the rows of the parts follow each other (`Rowed`).
-/

namespace ShaderGraph

open ShaderGraph.Text

/-! ## Rows -/

/-- A line without its line feed. -/
abbrev Row := List Char

/-- What stands between the line feeds of a text. Behind the last line feed there is
one more row, which may be empty. -/
def rows (text : String) : List Row := text.toList.splitOn '\n'

/-- Rows without the empty ones at both ends. -/
def trimRows (rs : List Row) : List Row :=
  (rs.dropWhile List.isEmpty).rdropWhile List.isEmpty

/-- A section of declarations, with an empty row behind it if there are any. -/
def sectionRows (parts : List (List Row)) : List Row :=
  if parts.isEmpty then [] else parts.flatten ++ [[]]

/-- A line of a block. -/
def lineRows (indent : String) (line : List Char) : List Row :=
  if allBlank line then [[]] else rows (indent ++ (indent ++ String.ofList line))

/-- Code in a block. A carriage return at the end of a row belongs to its ending. -/
def codeRows (indent : String) (code : List Row) : List Row :=
  code.flatMap fun row => lineRows indent (dropReturn row)

/-! ## The rows of a program -/

/-- The comment before what belongs to a node, if the layout has comments. -/
def Layout.commentRows (l : Layout) (id tag : String) : List Row :=
  if l.comments then rows (l.indent ++ ("// node " ++ id ++ ", " ++ tag)) else []

/-- The declaration of a shader variable. -/
def Binding.rows (b : Binding) : List Row :=
  ShaderGraph.rows (b.qualifier ++ " " ++ b.dataType ++ " " ++ b.name ++ ";")

/-- The declaration of a storage variable. -/
def Storage.rows (indent : String) (s : Storage) : List Row :=
  ShaderGraph.rows (indent ++ (s.type ++ " " ++ s.name ++ ";"))

/-- The declarations for the inputs of a node. -/
def InputGroup.rows (l : Layout) (g : InputGroup) : List Row :=
  l.commentRows g.id g.tag ++ g.inputs.flatMap (Storage.rows l.indent)

namespace NodeCode

/-- The code of a node: its outputs are declared, its body follows, and copies come
last. -/
def source (c : NodeCode) : List Row :=
  c.outputs.flatMap (fun s => ShaderGraph.rows (s.type ++ " " ++ s.name ++ ";"))
    ++ trimRows (ShaderGraph.rows c.body)
    ++ c.copies.flatMap (fun c => ShaderGraph.rows (c.storage ++ " = " ++ c.value ++ ";"))

/-- The code of a node between the braces of its block. -/
def rows (indent : String) (c : NodeCode) : List Row :=
  ShaderGraph.rows (indent ++ "\x7b") ++ codeRows indent c.source
    ++ ShaderGraph.rows (indent ++ "\x7d")

end NodeCode

/-- The block of a node. -/
def Block.rows (l : Layout) (b : Block) : List Row :=
  l.commentRows b.id b.tag ++ b.code.rows l.indent

/-- The rows of a program. -/
def Program.rows (l : Layout) (p : Program) : List Row :=
  sectionRows (p.externals.map Binding.rows)
    ++ ShaderGraph.rows (l.entry ++ " \x7b")
    ++ sectionRows (p.groups.map (InputGroup.rows l))
    ++ p.blocks.flatMap (Block.rows l)
    ++ [['}'], []]

/-- The text is the source of a program. -/
structure Program.HasSource (l : Layout) (p : Program) (source : String) : Prop where
  rows_eq : ShaderGraph.rows source = p.rows l
  /-- A block ends in its copies, one row each unless they break lines, and its brace. -/
  copies : '\n' ∉ l.indent.toList → ∀ b ∈ p.blocks,
    (∀ c ∈ b.code.copies, '\n' ∉ c.storage.toList ∧ '\n' ∉ c.value.toList) →
      ∃ front, b.rows l = front
        ++ b.code.copies.map (fun c =>
          (l.indent ++ l.indent ++ (c.storage ++ " = " ++ c.value ++ ";")).toList)
        ++ [(l.indent ++ "\x7d").toList]

/-! ## Texts made of rows -/

/-- The text is made of rows, each with its line feed, whatever follows. -/
def Rowed (text : String) (rs : List Row) : Prop :=
  ∀ rest, rows (text ++ rest) = rs ++ rows rest

theorem rowed_line (line : String) {text : String} (h : text = line ++ "\n") :
    Rowed text (rows line) := by
  intro rest
  have hchars : (text ++ rest).toList = line.toList ++ '\n' :: rest.toList := by simp [h]
  rw [rows, hchars, List.splitOn_append_cons_self]
  rfl

theorem Rowed.empty : Rowed "" [] := by
  intro rest
  rw [String.empty_append]
  rfl

theorem Rowed.append {a b : String} {rs ss : List Row} (ha : Rowed a rs) (hb : Rowed b ss) :
    Rowed (a ++ b) (rs ++ ss) := by
  intro rest
  rw [String.append_assoc, ha, hb, List.append_assoc]

theorem Rowed.join {α : Type} {f : α → String} {g : α → List Row} (h : ∀ x, Rowed (f x) (g x))
    (xs : List α) : Rowed (String.join (xs.map f)) (xs.flatMap g) := by
  induction xs with
  | nil => exact Rowed.empty
  | cons x xs ih =>
    rw [List.map_cons, String.join_cons, List.flatMap_cons]
    exact (h x).append ih

theorem Rowed.section {α : Type} {f : α → String} {g : α → List Row}
    (h : ∀ x, Rowed (f x) (g x)) (xs : List α) :
    Rowed (declarationSection (xs.map f)) (sectionRows (xs.map g)) := by
  unfold declarationSection sectionRows
  cases xs with
  | nil => exact Rowed.empty
  | cons x xs =>
    show Rowed (String.join ((x :: xs).map f) ++ "\n") (((x :: xs).map g).flatten ++ [[]])
    have hend : Rowed "\n" [[]] := rowed_line "" rfl
    rw [← List.flatMap_def]
    exact (Rowed.join h (x :: xs)).append hend

theorem Rowed.rows_eq {text : String} {rs : List Row} (h : Rowed text rs) :
    rows text = rs ++ [[]] := by
  have hrest := h ""
  rwa [String.append_empty] at hrest

/-! ## Lines -/

theorem linesFrom_of_splitOn {current text : List Char} {rs : List Row} (hcurrent : '\n' ∉ current)
    (h : (current.reverse ++ text).splitOn '\n' = rs ++ [[]]) :
    linesFrom current text = rs.map dropReturn := by
  induction text generalizing current rs with
  | nil =>
    rw [List.append_nil, List.splitOn_eq_singleton (by simpa using hcurrent)] at h
    obtain ⟨rfl, hnil⟩ : rs = [] ∧ current = [] := by simpa [List.singleton_eq_append_iff] using h
    rw [hnil]
    rfl
  | cons c text ih =>
    by_cases hc : c = '\n'
    · subst hc
      rw [List.splitOn_append_cons_self_of_not_mem (by simpa using hcurrent)] at h
      cases rs with
      | nil => exact absurd (List.cons.inj h).2 (List.splitOn_ne_nil _ _)
      | cons row rs =>
        obtain ⟨rfl, hrest⟩ := List.cons.inj h
        rw [linesFrom, if_pos rfl, ih (List.not_mem_nil) hrest]
        rfl
    · have hcurrent' : '\n' ∉ c :: current := by simp [hcurrent, Ne.symm hc]
      rw [linesFrom, if_neg hc]
      exact ih hcurrent' (by simpa using h)

/-- The lines of a text that is made of rows are these rows. -/
theorem Rowed.lines_eq {text : String} {rs : List Row} (h : Rowed text rs) :
    lines text.toList = rs.map dropReturn :=
  linesFrom_of_splitOn List.not_mem_nil h.rows_eq

theorem dropWhile_splitOn (text : List Char) :
    (text.splitOn '\n').dropWhile List.isEmpty =
      if text.dropWhile (· == '\n') = [] then []
      else (text.dropWhile (· == '\n')).splitOn '\n' := by
  induction text with
  | nil => rfl
  | cons c text ih =>
    rw [List.splitOn_cons_eq_if_modifyHead, List.dropWhile_cons]
    by_cases hc : (c == '\n') = true
    · rw [if_pos hc, if_pos hc]
      exact ih
    · rw [if_neg hc, if_neg hc, if_neg (List.cons_ne_nil c text),
        List.splitOn_cons_eq_if_modifyHead, if_neg hc]
      cases List.splitOn '\n' text with
      | nil => rfl
      | cons row rest => rfl

/-- A character that is no line feed joins the last row. -/
theorem splitOn_concat {c : Char} (hc : (c == '\n') = false) (text : List Char) :
    ∃ front last, (text ++ [c]).splitOn '\n' = front ++ [last ++ [c]] := by
  induction text with
  | nil => exact ⟨[], [], by simp [List.splitOn_cons_eq_if_modifyHead, hc]⟩
  | cons d text ih =>
    obtain ⟨front, last, hsplit⟩ := ih
    rw [List.cons_append, List.splitOn_cons_eq_if_modifyHead, hsplit]
    by_cases hd : (d == '\n') = true
    · exact ⟨[] :: front, last, by simp [hd]⟩
    · cases front with
      | nil => exact ⟨[], d :: last, by simp [hd]⟩
      | cons row front => exact ⟨(d :: row) :: front, last, by simp [hd]⟩

theorem rdropWhile_splitOn (text : List Char) :
    (text.splitOn '\n').rdropWhile List.isEmpty =
      if text.rdropWhile (· == '\n') = [] then []
      else (text.rdropWhile (· == '\n')).splitOn '\n' := by
  induction text using List.reverseRecOn with
  | nil => rfl
  | append_singleton text c ih =>
    by_cases hc : (c == '\n') = true
    · have hdrop : (text ++ [c]).rdropWhile (· == '\n') = text.rdropWhile (· == '\n') :=
        List.rdropWhile_concat_pos _ _ c hc
      rw [hdrop, ← ih, beq_iff_eq.mp hc, List.splitOn_append_cons_self, List.splitOn_nil]
      exact List.rdropWhile_concat_pos _ _ [] rfl
    · have hkeep : (text ++ [c]).rdropWhile (· == '\n') = text ++ [c] :=
        List.rdropWhile_concat_neg _ _ c hc
      obtain ⟨front, last, hsplit⟩ := splitOn_concat (Bool.eq_false_iff.mpr hc) text
      rw [hkeep, if_neg (by simp), hsplit]
      exact List.rdropWhile_concat_neg _ _ _ (by simp)

/-- The rows of a text without the line feeds at its ends are those of the text without
the empty rows at its ends. -/
theorem trimRows_rows (text : String) :
    trimRows (rows text) =
      if trimNewlines text.toList = [] then []
      else (trimNewlines text.toList).splitOn '\n' := by
  show ((text.toList.splitOn '\n').dropWhile List.isEmpty).rdropWhile List.isEmpty =
    if (text.toList.dropWhile (· == '\n')).rdropWhile (· == '\n') = [] then []
    else ((text.toList.dropWhile (· == '\n')).rdropWhile (· == '\n')).splitOn '\n'
  rw [dropWhile_splitOn]
  by_cases hnil : text.toList.dropWhile (· == '\n') = []
  · rw [if_pos hnil, hnil]
    rfl
  · rw [if_neg hnil, rdropWhile_splitOn]

/-! ## The text of a program -/

section Text

variable (l : Layout)

theorem rowed_comment (id tag : String) : Rowed (l.comment id tag) (l.commentRows id tag) := by
  unfold Layout.comment Layout.commentRows
  split
  · exact rowed_line _ (by simp [String.append_assoc])
  · exact Rowed.empty

theorem rowed_binding (b : Binding) : Rowed b.declaration b.rows :=
  rowed_line _ (by simp [Binding.declaration, String.append_assoc])

theorem rowed_storage (s : Storage) : Rowed (s.text l) (s.rows l.indent) :=
  rowed_line _ (by simp [Storage.text, String.append_assoc])

theorem rowed_group (g : InputGroup) : Rowed (g.text l) (g.rows l) :=
  (rowed_comment l g.id g.tag).append (Rowed.join (rowed_storage l) g.inputs)

theorem rowed_output (s : Socket) :
    Rowed s.declaration (rows (s.type ++ " " ++ s.name ++ ";")) :=
  rowed_line _ (by simp [Socket.declaration, String.append_assoc])

theorem rowed_copy (c : Copy) : Rowed c.text (rows (c.storage ++ " = " ++ c.value ++ ";")) :=
  rowed_line _ (by simp [Copy.text, String.append_assoc])

theorem rowed_body (body : String) : Rowed (bodyText body) (trimRows (rows body)) := by
  rw [trimRows_rows, bodyText]
  by_cases hnil : trimNewlines body.toList = []
  · rw [if_pos hnil, hnil]
    exact Rowed.empty
  · have hne : String.ofList (trimNewlines body.toList) ≠ "" := by simpa using hnil
    rw [if_neg hnil]
    simp only [if_neg hne]
    simpa [rows] using rowed_line (String.ofList (trimNewlines body.toList)) rfl

theorem rowed_code (c : NodeCode) : Rowed c.text c.source :=
  ((Rowed.join rowed_output c.outputs).append (rowed_body c.body)).append
    (Rowed.join rowed_copy c.copies)

theorem rowed_bodyLine (line : List Char) : Rowed (l.line line) (lineRows l.indent line) := by
  unfold Layout.line lineRows
  split
  · exact rowed_line "" rfl
  · exact rowed_line _ (by simp [String.append_assoc])

theorem rowed_block (b : Block) : Rowed (b.text l) (b.rows l) := by
  have hopen : Rowed (l.indent ++ "\x7b\n") (rows (l.indent ++ "\x7b")) :=
    rowed_line _ (by simp [String.append_assoc])
  have hclose : Rowed (l.indent ++ "\x7d\n") (rows (l.indent ++ "\x7d")) :=
    rowed_line _ (by simp [String.append_assoc])
  have hlines : Rowed (String.join ((b.code.source.map dropReturn).map l.line))
      (codeRows l.indent b.code.source) := by
    rw [codeRows, ← List.flatMap_map]
    exact Rowed.join (rowed_bodyLine l) _
  have hall := (rowed_comment l b.id b.tag).append ((hopen.append hlines).append hclose)
  rw [Block.text, (rowed_code b.code).lines_eq]
  simpa only [Block.rows, NodeCode.rows, String.append_assoc] using hall

/-- The text of a program, row by row. -/
theorem rows_text (p : Program) : rows (p.text l) = p.rows l := by
  have hentry : Rowed (l.entry ++ " \x7b\n") (rows (l.entry ++ " \x7b")) :=
    rowed_line _ (by simp [String.append_assoc])
  have hend : Rowed "\x7d\n" [['}']] := rowed_line "\x7d" rfl
  have hexternals := Rowed.section rowed_binding p.externals
  have hgroups := Rowed.section (rowed_group l) p.groups
  have hblocks := Rowed.join (rowed_block l) p.blocks
  have hall := (((hexternals.append hentry).append hgroups).append hblocks).append hend
  rw [← String.append_assoc] at hall
  rw [Program.text]
  refine hall.rows_eq.trans ?_
  simp [Program.rows]

end Text

/-! ## Statements -/

theorem codeRows_append (indent : String) (code more : List Row) :
    codeRows indent (code ++ more) = codeRows indent code ++ codeRows indent more :=
  List.flatMap_append

/-- A statement without a line feed is one row. -/
theorem codeRows_statement {indent statement : String} (hindent : '\n' ∉ indent.toList)
    (hstatement : '\n' ∉ statement.toList) :
    codeRows indent (rows (statement ++ ";")) =
      [(indent ++ indent ++ (statement ++ ";")).toList] := by
  have hrow : rows (statement ++ ";") = [(statement ++ ";").toList] := by
    rw [rows, List.splitOn_eq_singleton (by simpa using hstatement)]
  have hreturn : dropReturn (statement ++ ";").toList = (statement ++ ";").toList := by
    simp [dropReturn]
  have hblank : ¬ allBlank (statement ++ ";").toList = true := by
    simp [allBlank, isBlank]
  have hline : '\n' ∉ (indent ++ (indent ++ (statement ++ ";"))).toList := by
    simpa [hindent] using hstatement
  rw [codeRows, hrow, List.flatMap_singleton, hreturn, lineRows, if_neg hblank,
    String.ofList_toList, rows, List.splitOn_eq_singleton hline, String.append_assoc]

theorem codeRows_copies {indent : String} (hindent : '\n' ∉ indent.toList) {copies : List Copy}
    (h : ∀ c ∈ copies, '\n' ∉ c.storage.toList ∧ '\n' ∉ c.value.toList) :
    codeRows indent (copies.flatMap fun c => rows (c.storage ++ " = " ++ c.value ++ ";")) =
      copies.map fun c => (indent ++ indent ++ (c.storage ++ " = " ++ c.value ++ ";")).toList := by
  induction copies with
  | nil => rfl
  | cons c copies ih =>
    rw [List.forall_mem_cons] at h
    have hstatement : '\n' ∉ (c.storage ++ " = " ++ c.value).toList := by simp [h.1.1, h.1.2]
    rw [List.flatMap_cons, codeRows_append, codeRows_statement hindent hstatement, ih h.2]
    rfl

/-- The text of a program is its source. -/
theorem hasSource_text (l : Layout) (p : Program) : p.HasSource l (p.text l) where
  rows_eq := rows_text l p
  copies := by
    intro hindent b _ hcopies
    have hbrace : '\n' ∉ (l.indent ++ "\x7d").toList := by simpa using hindent
    refine ⟨l.commentRows b.id b.tag ++ rows (l.indent ++ "\x7b") ++ codeRows l.indent
      (b.code.outputs.flatMap (fun s => rows (s.type ++ " " ++ s.name ++ ";"))
        ++ trimRows (rows b.code.body)), ?_⟩
    rw [Block.rows, NodeCode.rows, NodeCode.source, codeRows_append,
      codeRows_copies hindent hcopies, show rows (l.indent ++ "\x7d") = _ from
        List.splitOn_eq_singleton hbrace]
    simp only [List.append_assoc]

end ShaderGraph
