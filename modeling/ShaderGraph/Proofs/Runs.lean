import Mathlib.Data.List.SplitBy
import ShaderGraph.Program.Code
import ShaderGraph.Proofs.Library
import ShaderGraph.Proofs.Words

/-!
# Whole words are runs of word characters

The search for whole words asks at every place whether there is a boundary and
which of the names stands there first. That comes to something simpler: cut the
text into its longest runs of word characters and what stands between them, and
replace the runs that are names.

* **the cut** — `cut` joins to the text, and its pieces alternate between word
  characters and others (`Alternates`);
* **one piece** — a name is found at the start of a run exactly if it is the
  whole run (`endsAtBoundary_iff`), and at no other place;
* **all pieces** — so the search replaces piece by piece (`replaceWords_eq`).

`substituteInputsBy_exact` says what this means for the bodies of nodes: neither
the order of the inputs nor their being parts of each other matters, what has
been put in stays as it is, and outputs keep their names.
-/

namespace ShaderGraph

namespace Program

variable {isWord : Char → Bool} {names : List (List Char)} {new : List Char → List Char}

/-! ## Cuts -/

/-- The longest runs of word characters in a text, and what stands between
them. -/
def cut (isWord : Char → Bool) (text : List Char) : List (List Char) :=
  text.splitBy fun a b => isWord a == isWord b

/-- Pieces that are made of word characters and of other characters by turns; the
first is of the given kind. -/
inductive Alternates (isWord : Char → Bool) : (kind : Bool) → List (List Char) → Prop
  | nil {kind : Bool} : Alternates isWord kind []
  | cons {kind : Bool} {piece : List Char} {rest : List (List Char)} : piece ≠ [] →
      (∀ c ∈ piece, isWord c = kind) → Alternates isWord (!kind) rest →
      Alternates isWord kind (piece :: rest)

theorem flatten_cut (isWord : Char → Bool) (text : List Char) : (cut isWord text).flatten = text :=
  List.flatten_splitBy _ _

-- along a run whose neighbours are of one kind, all are of the kind of the first
private theorem kind_of_isChain {c : Char} {piece : List Char}
    (h : (c :: piece).IsChain fun a b => (isWord a == isWord b) = true) :
    ∀ d ∈ c :: piece, isWord d = isWord c := by
  induction piece generalizing c with
  | nil => simp
  | cons d piece ih =>
    obtain ⟨hcd, hrest⟩ := List.isChain_cons_cons.mp h
    have hkind : isWord c = isWord d := by simpa using hcd
    refine List.forall_mem_cons.mpr ⟨rfl, ?_⟩
    intro e he
    rw [ih hrest e he, hkind]

private theorem alternates_of_isChain {pieces : List (List Char)} (hnil : [] ∉ pieces)
    (hruns : ∀ piece ∈ pieces, piece.IsChain fun a b => (isWord a == isWord b) = true)
    (hchange : pieces.IsChain fun piece next =>
      ∃ hp hn, (isWord (piece.getLast hp) == isWord (next.head hn)) = false) :
    ∀ kind, (∀ piece ∈ pieces.head?, ∀ c ∈ piece.head?, isWord c = kind) →
      Alternates isWord kind pieces := by
  induction pieces with
  | nil =>
    intro kind _
    exact .nil
  | cons piece rest ih =>
    intro kind hkind
    rw [List.mem_cons, not_or] at hnil
    rw [List.forall_mem_cons] at hruns
    cases piece with
    | nil => exact absurd rfl hnil.1
    | cons c piece =>
      have hfirst : isWord c = kind := hkind _ rfl c rfl
      have hpiece : ∀ d ∈ c :: piece, isWord d = kind := by
        intro d hd
        rw [kind_of_isChain hruns.1 d hd, hfirst]
      refine .cons (by simp) hpiece (ih hnil.2 hruns.2 hchange.tail (!kind) ?_)
      -- the next piece begins with a character of the other kind
      intro next hnext d hd
      cases rest with
      | nil => cases hnext
      | cons next' rest =>
        cases hnext
        obtain ⟨⟨hp, hn, hne⟩, _⟩ := List.isChain_cons_cons.mp hchange
        have hlast : isWord ((c :: piece).getLast hp) = kind := hpiece _ (List.getLast_mem hp)
        have hhead : next.head hn = d := by simpa [List.head?_eq_some_head hn] using hd
        rw [hlast, hhead] at hne
        cases kind with
        | true => simpa using hne
        | false => simpa using hne

theorem alternates_cut (isWord : Char → Bool) (text : List Char) :
    ∃ kind, Alternates isWord kind (cut isWord text) := by
  have halternates := @alternates_of_isChain isWord (cut isWord text)
    (List.nil_notMem_splitBy _ text) (fun _ => List.isChain_of_mem_splitBy)
    (List.isChain_getLast_head_splitBy (fun a b => isWord a == isWord b) text)
  cases hpieces : cut isWord text with
  | nil => exact ⟨true, .nil⟩
  | cons first rest =>
    rw [hpieces] at halternates
    refine ⟨first.head?.any isWord, halternates _ ?_⟩
    intro piece hpiece c hc
    cases hpiece
    rw [Option.mem_def.mp hc]
    rfl

theorem Alternates.head?_flatten {kind : Bool} {pieces : List (List Char)}
    (h : Alternates isWord kind pieces) : ∀ c ∈ pieces.flatten.head?, isWord c = kind := by
  cases h with
  | nil => simp
  | @cons _ piece rest hne hkind _ =>
    cases piece with
    | nil => exact absurd rfl hne
    | cons c piece =>
      intro d hd
      cases hd
      exact hkind c List.mem_cons_self

/-! ## One piece -/

/-- Names that consist of word characters, of one at least. -/
def AreWords (isWord : Char → Bool) (names : List (List Char)) : Prop :=
  ∀ name ∈ names, name ≠ [] ∧ ∀ c ∈ name, isWord c = true

/-- The character before a text that follows the characters `passed`, which in
turn follow the character `before`. -/
def lastOf (before : Option Char) (passed : List Char) : Option Char := passed.getLast?.or before

theorem lastOf_cons (before : Option Char) (c : Char) (passed : List Char) :
    lastOf before (c :: passed) = lastOf (some c) passed := by
  unfold lastOf
  rw [List.getLast?_cons]
  cases passed.getLast? with
  | none => rfl
  | some d => rfl

theorem any_lastOf {kind : Bool} {before : Option Char} {passed : List Char}
    (hbefore : before.any isWord = kind) (hpassed : ∀ c ∈ passed, isWord c = kind) :
    (lastOf before passed).any isWord = kind := by
  unfold lastOf
  cases hlast : passed.getLast? with
  | none => exact hbefore
  | some c => exact hpassed c (List.mem_of_getLast? hlast)

theorem any_lastOf_of_ne_nil {kind : Bool} {passed : List Char} (before : Option Char)
    (hne : passed ≠ []) (hpassed : ∀ c ∈ passed, isWord c = kind) :
    (lastOf before passed).any isWord = kind := by
  cases passed with
  | nil => exact absurd rfl hne
  | cons c passed =>
    rw [List.forall_mem_cons] at hpassed
    rw [lastOf_cons]
    exact any_lastOf hpassed.1 hpassed.2

/-- A word that stands at the front of a run and ends at a boundary is the whole
run. -/
theorem endsAtBoundary_iff {name run rest : List Char} (hname : name ≠ [])
    (hword : ∀ c ∈ name, isWord c = true) (hrun : ∀ c ∈ run, isWord c = true)
    (hrest : ∀ c ∈ rest.head?, isWord c = false) :
    endsAtBoundary isWord name (run ++ rest) = true ↔ name = run := by
  have hlast : name.getLast?.any isWord = true := by
    rw [List.getLast?_eq_some_getLast hname]
    exact hword _ (List.getLast_mem hname)
  have hafter : rest.head?.any isWord = false := by
    cases hhead : rest.head? with
    | none => rfl
    | some c => exact hrest c hhead
  unfold endsAtBoundary isBoundary
  rw [hlast, Bool.and_eq_true, List.isPrefixOf_iff_prefix]
  constructor
  · rintro ⟨⟨behind, hbehind⟩, hend⟩
    rcases List.append_eq_append_iff.mp hbehind with ⟨left, rfl, _⟩ | ⟨more, rfl, rfl⟩
    · -- nothing can be left of the run, since no boundary is inside of it
      rw [List.append_assoc, List.drop_left] at hend
      cases left with
      | nil => simp
      | cons c left => simp [hrun c (by simp)] at hend
    · -- the name cannot go on behind the run, where no word character stands
      cases more with
      | nil => simp
      | cons c more =>
        have hno := hrest c rfl
        rw [hword c (by simp)] at hno
        cases hno
  · rintro rfl
    rw [List.drop_left, hafter]
    exact ⟨List.prefix_append _ _, rfl⟩

/-- At the start of a run the search finds the run, if it is a name. -/
theorem wordAt?_run (hnames : AreWords isWord names) {before : Option Char} {run rest : List Char}
    (hbefore : before.any isWord = false) (hne : run ≠ []) (hrun : ∀ c ∈ run, isWord c = true)
    (hrest : ∀ c ∈ rest.head?, isWord c = false) :
    wordAt? isWord names before (run ++ rest) = if run ∈ names then some run else none := by
  have hstart : isBoundary isWord before (run ++ rest).head? = true := by
    cases run with
    | nil => exact absurd rfl hne
    | cons c run => simp [isBoundary, hbefore, hrun c (by simp)]
  have hends : ∀ name ∈ names, endsAtBoundary isWord name (run ++ rest) = true ↔ name = run :=
    fun name hname => endsAtBoundary_iff (hnames name hname).1 (hnames name hname).2 hrun hrest
  rw [wordAt?, if_pos hstart]
  cases hfind : names.find? (endsAtBoundary isWord · (run ++ rest)) with
  | none =>
    have hno : run ∉ names := by
      intro hmem
      exact List.find?_eq_none.mp hfind run hmem ((hends run hmem).mpr rfl)
    rw [if_neg hno]
  | some name =>
    have hmem := List.mem_of_find?_eq_some hfind
    have hword := List.find?_some hfind
    obtain rfl := (hends name hmem).mp hword
    rw [if_pos hmem]

/-- Inside of a run the search finds nothing. -/
theorem wordAt?_inside {before : Option Char} {c : Char} {text : List Char}
    (hbefore : before.any isWord = true) (hc : isWord c = true) :
    wordAt? isWord names before (c :: text) = none := by
  simp [wordAt?, isBoundary, hbefore, hc]

/-- Outside of runs the search finds nothing. -/
theorem wordAt?_between (hnames : AreWords isWord names) {before : Option Char} {c : Char}
    {text : List Char} (hc : isWord c = false) :
    wordAt? isWord names before (c :: text) = none := by
  unfold wordAt?
  split
  · rw [List.find?_eq_none]
    intro name hname hends
    obtain ⟨hne, hword⟩ := hnames name hname
    cases name with
    | nil => exact hne rfl
    | cons d name =>
      -- the name would begin with the character that is not a word character
      simp only [endsAtBoundary, List.isPrefixOf_cons_cons, Bool.and_eq_true, beq_iff_eq] at hends
      rw [hends.1.1.symm, hword d List.mem_cons_self] at hc
      cases hc
  · rfl

/-! ## All pieces -/

/-- Characters that are skipped leave nothing behind. -/
theorem replaceFrom_skip {rest : List Char} (passed : List Char) (before : Option Char) :
    replaceFrom isWord names new before passed.length (passed ++ rest)
      = replaceFrom isWord names new (lastOf before passed) 0 rest := by
  induction passed generalizing before with
  | nil => rfl
  | cons c passed ih =>
    rw [lastOf_cons, ← ih (some c)]
    rfl

/-- Characters are kept where the search finds nothing. -/
theorem replaceFrom_keep {rest : List Char} (passed : List Char) (before : Option Char)
    (h : ∀ ys c zs, passed = ys ++ c :: zs →
      wordAt? isWord names (lastOf before ys) (c :: (zs ++ rest)) = none) :
    replaceFrom isWord names new before 0 (passed ++ rest)
      = Prod.map (passed ++ ·) id (replaceFrom isWord names new (lastOf before passed) 0 rest) := by
  induction passed generalizing before with
  | nil => rfl
  | cons c passed ih =>
    have hhere : wordAt? isWord names before (c :: (passed ++ rest)) = none := h [] c passed rfl
    have hrest := ih (some c) (by
      intro ys d zs hsplit
      rw [← lastOf_cons before]
      exact h (c :: ys) d zs (by rw [hsplit]; rfl))
    rw [lastOf_cons, List.cons_append, replaceFrom, hhere]
    simp only [hrest]
    rfl

/-- What becomes of a piece of a text: a name is replaced, and all else stays. -/
def renamed (names : List (List Char)) (new : List Char → List Char) (piece : List Char) :
    List Char :=
  if piece ∈ names then new piece else piece

/-- A run is replaced as a whole if it is a name, and else kept. -/
theorem replaceFrom_run (hnames : AreWords isWord names) {before : Option Char}
    {run rest : List Char} (hbefore : before.any isWord = false) (hne : run ≠ [])
    (hrun : ∀ c ∈ run, isWord c = true) (hrest : ∀ c ∈ rest.head?, isWord c = false) :
    replaceFrom isWord names new before 0 (run ++ rest)
      = Prod.map (renamed names new run ++ ·) ([run].filter (· ∈ names) ++ ·)
        (replaceFrom isWord names new (lastOf before run) 0 rest) := by
  have hfind := wordAt?_run hnames hbefore hne hrun hrest
  by_cases hmem : run ∈ names
  · rw [if_pos hmem] at hfind
    cases run with
    | nil => exact absurd rfl hne
    | cons c run =>
      have hskip : replaceFrom isWord names new (some c) run.length (run ++ rest)
          = replaceFrom isWord names new (lastOf (some c) run) 0 rest :=
        replaceFrom_skip run (some c)
      rw [List.cons_append] at hfind
      rw [lastOf_cons, List.cons_append, replaceFrom, hfind]
      simp [hskip, hmem, renamed, Prod.map]
  · rw [if_neg hmem] at hfind
    rw [replaceFrom_keep run before]
    · simp [hmem, renamed, Prod.map]
    · intro ys c zs hsplit
      cases ys with
      | nil =>
        rw [← List.cons_append, ← List.nil_append (c :: zs), ← hsplit]
        exact hfind
      | cons d ys =>
        -- behind its first character the search is inside of the run
        have hpassed : ∀ e ∈ d :: ys, isWord e = true := by
          intro e he
          exact hrun e (hsplit ▸ List.mem_append_left _ he)
        refine wordAt?_inside (any_lastOf_of_ne_nil before (by simp) hpassed) ?_
        exact hrun c (by simp [hsplit])

/-- What stands between runs is kept. -/
theorem replaceFrom_between (hnames : AreWords isWord names) {before : Option Char}
    {between rest : List Char} (hbetween : ∀ c ∈ between, isWord c = false) :
    replaceFrom isWord names new before 0 (between ++ rest)
      = Prod.map (between ++ ·) id
        (replaceFrom isWord names new (lastOf before between) 0 rest) := by
  refine replaceFrom_keep between before ?_
  intro ys c zs hsplit
  exact wordAt?_between hnames (hbetween c (by simp [hsplit]))

theorem AreWords.not_mem (hnames : AreWords isWord names) {piece : List Char} (hne : piece ≠ [])
    (hpiece : ∀ c ∈ piece, isWord c = false) : piece ∉ names := by
  intro hmem
  cases piece with
  | nil => exact hne rfl
  | cons c piece =>
    have hword := (hnames _ hmem).2 c List.mem_cons_self
    rw [hpiece c List.mem_cons_self] at hword
    cases hword

/-- The search goes through a text piece by piece. -/
theorem replaceFrom_alternates (hnames : AreWords isWord names) {kind : Bool}
    {pieces : List (List Char)} (h : Alternates isWord kind pieces) :
    ∀ before : Option Char, (kind = true → before.any isWord = false) →
      replaceFrom isWord names new before 0 pieces.flatten
        = (pieces.flatMap (renamed names new), pieces.filter (· ∈ names)) := by
  induction h with
  | nil =>
    intro before _
    rfl
  | @cons kind piece rest hne hkind hrest ih =>
    intro before hbefore
    rw [List.flatten_cons, List.flatMap_cons]
    cases kind with
    | true =>
      rw [replaceFrom_run hnames (hbefore rfl) hne hkind hrest.head?_flatten, ih _ nofun,
        ← List.singleton_append (l := rest), List.filter_append]
      rfl
    | false =>
      have hpiece : piece ∉ names := hnames.not_mem hne hkind
      rw [replaceFrom_between hnames hkind, ih _ fun _ => any_lastOf_of_ne_nil before hne hkind]
      simp [renamed, hpiece]

/-- Replacing whole words is replacing the runs that are names. -/
theorem replaceWords_eq (hnames : AreWords isWord names) (new : List Char → List Char)
    (text : List Char) :
    replaceWords isWord names new text
      = ((cut isWord text).flatMap (renamed names new), (cut isWord text).filter (· ∈ names)) := by
  obtain ⟨kind, halternates⟩ := alternates_cut isWord text
  rw [replaceWords, ← replaceFrom_alternates hnames halternates none fun _ => rfl, flatten_cut]

end Program

/-! ## Texts -/

open ShaderGraph.Text

/-- The longest runs of word characters in a text, and what stands between
them. -/
def textPieces (isWord : Char → Bool) (text : String) : List String :=
  (Program.cut isWord text.toList).map String.ofList

/-- The words of a text: its longest runs of word characters. -/
def textWords (isWord : Char → Bool) (text : String) : List String :=
  (textPieces isWord text).filter (·.toList.all isWord)

/-- Pieces that a text is made of, word characters and others by turns. -/
structure IsCut (isWord : Char → Bool) (text : String) (pieces : List String) : Prop where
  joined : String.join pieces = text
  alternates : ∃ kind, Program.Alternates isWord kind (pieces.map String.toList)

theorem toList_textPieces (isWord : Char → Bool) (text : String) :
    (textPieces isWord text).map String.toList = Program.cut isWord text.toList := by
  simp [textPieces, Function.comp_def]

theorem textPieces_isCut (isWord : Char → Bool) (text : String) :
    IsCut isWord text (textPieces isWord text) where
  joined := by
    apply String.toList_injective
    rw [String.toList_join, List.flatMap_def, toList_textPieces, Program.flatten_cut]
  alternates := by
    rw [toList_textPieces]
    exact Program.alternates_cut isWord text.toList

/-- ASCII letters, digits and the underscore are word characters. -/
def HasNameChars (isWord : Char → Bool) : Prop :=
  ∀ c, IsLetter c ∨ IsDigit c ∨ c = '_' → isWord c = true

theorem isWordChar_hasNameChars : HasNameChars isWordChar := by
  intro c hc
  have hle : c ≤ 'z' := by
    rcases hc with (⟨_, hc⟩ | ⟨_, hc⟩) | ⟨_, hc⟩ | rfl
    · exact Char.le_trans hc (by decide)
    · exact hc
    · exact Char.le_trans hc (by decide)
    · decide
  have hsmall : c.toNat < 0x80 := Nat.lt_of_le_of_lt (Char.le_def.mp hle) (by decide)
  rw [isWordChar, if_pos hsmall]
  exact (isNameChar_iff c).mpr hc

/-! ## Bodies -/

/-- A body with storage variables for the inputs of a node, for any notion of
word characters. -/
def substituteInputsBy (isWord : Char → Bool) (body id : String) (t : NodeType) :
    String × List String :=
  let names := t.inputs.map (·.name.toList)
  let storage := fun name => (storageName id (String.ofList name)).toList
  let (text, used) := Program.replaceWords isWord names storage body.toList
  (String.ofList text, used.map String.ofList)

theorem substituteInputs_eq (body id : String) (t : NodeType) :
    substituteInputs body id t = substituteInputsBy isWordChar body id t := rfl

/-- What becomes of a piece of a node's body: the name of an input becomes its
storage variable, and all else stays. -/
def NodeType.stored (t : NodeType) (id piece : String) : String :=
  if piece ∈ t.inputs.map (·.name) then storageName id piece else piece

/-- The inputs of a type are named by identifiers. -/
def NodeType.InputsNamed (t : NodeType) : Prop := ∀ p ∈ t.inputs, IsName p.name.toList

section Bodies

variable {isWord : Char → Bool} {t t' : NodeType} {body id : String}

theorem NodeType.InputsNamed.areWords (h : t.InputsNamed) (hword : HasNameChars isWord) :
    Program.AreWords isWord (t.inputs.map (·.name.toList)) := by
  intro name hname
  obtain ⟨p, hp, rfl⟩ := List.mem_map.mp hname
  have hidentifier := h p hp
  cases hchars : p.name.toList with
  | nil =>
    rw [hchars] at hidentifier
    exact hidentifier.elim
  | cons c rest =>
    rw [hchars] at hidentifier
    obtain ⟨hc, hrest⟩ := hidentifier
    refine ⟨by simp, List.forall_mem_cons.mpr ⟨?_, fun d hd => hword d (hrest d hd)⟩⟩
    rcases hc with hletter | hunderscore
    · exact hword c (.inl hletter)
    · exact hword c (.inr (.inr hunderscore))

theorem mem_inputNames_iff {piece : List Char} :
    piece ∈ t.inputs.map (·.name.toList) ↔ String.ofList piece ∈ t.inputs.map (·.name) := by
  constructor
  · intro hpiece
    obtain ⟨p, hp, rfl⟩ := List.mem_map.mp hpiece
    simpa using ⟨p, hp, rfl⟩
  · intro hpiece
    obtain ⟨p, hp, hname⟩ := List.mem_map.mp hpiece
    exact List.mem_map.mpr ⟨p, hp, by simp [hname]⟩

theorem toList_stored (piece : List Char) :
    (t.stored id (String.ofList piece)).toList
      = Program.renamed (t.inputs.map (·.name.toList))
        (fun name => (storageName id (String.ofList name)).toList) piece := by
  simp only [NodeType.stored, Program.renamed, mem_inputNames_iff]
  split
  · rfl
  · exact String.toList_ofList

/-- Substituting inputs goes through the pieces of a body. -/
theorem substituteInputsBy_eq (h : t.InputsNamed) (hword : HasNameChars isWord) (body id : String) :
    substituteInputsBy isWord body id t
      = (String.join ((textPieces isWord body).map (t.stored id)),
        (textPieces isWord body).filter (· ∈ t.inputs.map (·.name))) := by
  have hpieces := Program.replaceWords_eq (h.areWords hword)
    (fun name => (storageName id (String.ofList name)).toList) body.toList
  unfold substituteInputsBy
  simp only [hpieces]
  refine Prod.ext ?_ ?_
  · apply String.toList_injective
    simp only [String.toList_join, textPieces, String.toList_ofList, List.flatMap_map,
      toList_stored]
  · simp only [textPieces, List.filter_map, mem_inputNames_iff]
    rfl

/-- An input is a piece of a body exactly if it is a word of it. -/
theorem mem_textWords_iff (h : t.InputsNamed) (hword : HasNameChars isWord) {i : String}
    (hi : i ∈ t.inputs.map (·.name)) : i ∈ textWords isWord body ↔ i ∈ textPieces isWord body := by
  obtain ⟨p, hp, rfl⟩ := List.mem_map.mp hi
  have hchars := (h.areWords hword p.name.toList (List.mem_map_of_mem hp)).2
  rw [textWords, List.mem_filter, and_iff_left_iff_imp]
  intro _
  exact List.all_eq_true.mpr hchars

/-- A piece that is not a word is no input. -/
theorem not_mem_of_not_word (h : t.InputsNamed) (hword : HasNameChars isWord) {piece : String}
    (hpiece : piece ∈ textPieces isWord body) (hno : piece ∉ textWords isWord body) :
    piece ∉ t.inputs.map (·.name) :=
  fun hmem => hno ((mem_textWords_iff h hword hmem).mpr hpiece)

/-- Only which words of a body are inputs matters. -/
theorem substituteInputsBy_congr (h : t.InputsNamed) (h' : t'.InputsNamed)
    (hword : HasNameChars isWord) (hsame : ∀ w ∈ textWords isWord body,
      w ∈ t'.inputs.map (·.name) ↔ w ∈ t.inputs.map (·.name)) :
    substituteInputsBy isWord body id t' = substituteInputsBy isWord body id t := by
  have hpieces : ∀ piece ∈ textPieces isWord body,
      piece ∈ t'.inputs.map (·.name) ↔ piece ∈ t.inputs.map (·.name) := by
    intro piece hpiece
    by_cases hmem : piece ∈ textWords isWord body
    · exact hsame piece hmem
    · exact iff_of_false (not_mem_of_not_word h' hword hpiece hmem)
        (not_mem_of_not_word h hword hpiece hmem)
  rw [substituteInputsBy_eq h hword, substituteInputsBy_eq h' hword]
  refine Prod.ext ?_ ?_
  · refine congrArg String.join (List.map_congr_left ?_)
    intro piece hpiece
    simp only [NodeType.stored, hpieces piece hpiece]
  · refine List.filter_congr ?_
    intro piece hpiece
    simp only [hpieces piece hpiece]

theorem NodeType.WellNamed.inputsNamed (h : t.WellNamed) : t.InputsNamed := by
  intro p hp
  exact (isNameList_iff _).mp (h.identifiers p (List.mem_append_left _ hp))

theorem NodeType.WellNamed.output_not_mem (h : t.WellNamed) {o : Socket} (ho : o ∈ t.outputs) :
    o.name ∉ t.inputs.map (·.name) := by
  have hdistinct := h.distinct
  rw [NodeType.sockets, List.map_append] at hdistinct
  intro hmem
  exact (List.nodup_append.mp hdistinct).2.2 _ hmem _ (List.mem_map_of_mem ho) rfl

end Bodies

/-- A body and the inputs that have been used, as the whole words of the body
tell. Every piece of the body has its own place in the new one. -/
structure NodeType.Rewrites (t : NodeType) (isWord : Char → Bool) (body id : String)
    (result : String × List String) : Prop where
  cut : IsCut isWord body (textPieces isWord body)
  text : result.1 = String.join ((textPieces isWord body).map (t.stored id))
  used : ∀ i, i ∈ result.2 ↔ i ∈ t.inputs.map (·.name) ∧ i ∈ textWords isWord body
  /-- What has been put in for an input stays, even if it is an input again. -/
  inserted : ∀ before i after, textPieces isWord body = before ++ i :: after →
    i ∈ t.inputs.map (·.name) → result.1 = String.join (before.map (t.stored id))
      ++ storageName id i ++ String.join (after.map (t.stored id))
  outputs : ∀ o ∈ t.outputs, o.name ∉ t.inputs.map (·.name) → ∀ before after,
    textPieces isWord body = before ++ o.name :: after →
      result.1 = String.join (before.map (t.stored id)) ++ o.name
        ++ String.join (after.map (t.stored id))

theorem substituteInputsBy_rewrites {t : NodeType} (h : t.InputsNamed) {isWord : Char → Bool}
    (hword : HasNameChars isWord) (body id : String) :
    t.Rewrites isWord body id (substituteInputsBy isWord body id t) := by
  rw [substituteInputsBy_eq h hword]
  -- what is made of the pieces around a piece and of the piece itself
  have hplace : ∀ before piece after, textPieces isWord body = before ++ piece :: after →
      String.join ((textPieces isWord body).map (t.stored id))
        = String.join (before.map (t.stored id)) ++ t.stored id piece
          ++ String.join (after.map (t.stored id)) := by
    intro before piece after hsplit
    apply String.toList_injective
    simp [hsplit, String.toList_join]
  refine ⟨textPieces_isCut isWord body, rfl, ?_, ?_, ?_⟩
  · intro i
    rw [List.mem_filter, decide_eq_true_iff, and_comm]
    exact and_congr_right fun hi => (mem_textWords_iff h hword hi).symm
  · intro before i after hsplit hi
    rw [hplace before i after hsplit, NodeType.stored, if_pos hi]
  · intro o _ hno before after hsplit
    rw [hplace before o.name after hsplit, NodeType.stored, if_neg hno]

theorem substituteInputs_rewrites {t : NodeType} (h : t.InputsNamed) (body id : String) :
    t.Rewrites isWordChar body id (substituteInputs body id t) := by
  rw [substituteInputs_eq]
  exact substituteInputsBy_rewrites h isWordChar_hasNameChars body id

/-- Substituting inputs replaces the words of a body that are inputs and keeps
all else, for any word characters that names are made of. Only which words of the
body are inputs matters, not in which order they are declared or which are parts
of others. Types in a library have no output that is an input as well. -/
theorem substituteInputsBy_exact (t : NodeType) (hnames : t.InputsNamed) (isWord : Char → Bool)
    (hword : HasNameChars isWord) (body id : String) :
    t.Rewrites isWord body id (substituteInputsBy isWord body id t) ∧
      t.Rewrites isWordChar body id (substituteInputs body id t) ∧
      (∀ t' : NodeType, t'.InputsNamed → (∀ w ∈ textWords isWord body,
          w ∈ t'.inputs.map (·.name) ↔ w ∈ t.inputs.map (·.name)) →
        substituteInputsBy isWord body id t' = substituteInputsBy isWord body id t) ∧
      (t.WellNamed → ∀ o ∈ t.outputs, o.name ∉ t.inputs.map (·.name)) := by
  refine ⟨substituteInputsBy_rewrites hnames hword body id,
    substituteInputs_rewrites hnames body id, ?_, ?_⟩
  · intro t' hnames' hsame
    exact substituteInputsBy_congr hnames hnames' hword hsame
  · intro hwell o ho
    exact hwell.output_not_mem ho

/-- Inputs that are parts of each other, and one that looks as if it had been put
in. -/
def overlappingType : NodeType :=
  ⟨[⟨"x", "float"⟩, ⟨"xOffset", "float"⟩, ⟨"inp_n_x", "float"⟩], [⟨"Offset", "float"⟩],
    "Offset = x + xOffset*inp_n_x;", .empty⟩

theorem substituteInputsBy_exact_overlapping :
    overlappingType.InputsNamed ∧ HasNameChars isWordChar ∧
      substituteInputs overlappingType.body "n" overlappingType
        = ("Offset = inp_n_x + inp_n_xOffset*inp_n_inp_n_x;", ["x", "xOffset", "inp_n_x"]) ∧
      overlappingType.Rewrites isWordChar overlappingType.body "n"
        (substituteInputs overlappingType.body "n" overlappingType) := by
  have hnames : overlappingType.InputsNamed := by
    unfold NodeType.InputsNamed
    decide
  have hexact := substituteInputsBy_exact overlappingType hnames isWordChar isWordChar_hasNameChars
    overlappingType.body "n"
  exact ⟨hnames, isWordChar_hasNameChars, by decide +kernel, hexact.2.1⟩

end ShaderGraph
