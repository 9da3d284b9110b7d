import ShaderGraph.Program.Words

/-!
# What replacing words changes

Replacing whole words cuts a text into characters that are kept and names that
are replaced, and nothing else happens to it (`replaceWords_replaced`). The cut
is said by `Replaced`, which does not ask where words begin and end.
-/

namespace ShaderGraph.Program

/-- The second text is the first with some of the names replaced; these are
listed in the order of their places. -/
inductive Replaced (names : List (List Char)) (new : List Char → List Char) :
    List Char → List Char → List (List Char) → Prop
  | nil : Replaced names new [] [] []
  | keep {c : Char} {text out : List Char} {used : List (List Char)} :
      Replaced names new text out used → Replaced names new (c :: text) (c :: out) used
  | replace {name text out : List Char} {used : List (List Char)} : name ∈ names →
      Replaced names new text out used →
      Replaced names new (name ++ text) (new name ++ out) (name :: used)

variable {isWord : Char → Bool} {names : List (List Char)} {new : List Char → List Char}

/-- Only listed names are replaced. -/
theorem Replaced.used_mem {text out : List Char} {used : List (List Char)}
    (h : Replaced names new text out used) : ∀ name ∈ used, name ∈ names := by
  induction h with
  | nil => simp
  | keep _ ih => exact ih
  | replace hname _ ih => exact List.forall_mem_cons.mpr ⟨hname, ih⟩

/-- A word that is found is one of the names and stands at the front. -/
theorem wordAt?_some {before : Option Char} {text name : List Char}
    (h : wordAt? isWord names before text = some name) :
    name ∈ names ∧ ∃ rest, text = name ++ rest := by
  unfold wordAt? at h
  split at h
  · refine ⟨List.mem_of_find?_eq_some h, ?_⟩
    have hends := List.find?_some h
    simp only [endsAtBoundary, Bool.and_eq_true, List.isPrefixOf_iff_prefix] at hends
    obtain ⟨rest, hrest⟩ := hends.1
    exact ⟨rest, hrest.symm⟩
  · cases h

theorem replaceFrom_replaced (hnames : ∀ name ∈ names, name ≠ []) (text : List Char) :
    ∀ before skip, Replaced names new (text.drop skip)
      (replaceFrom isWord names new before skip text).1
      (replaceFrom isWord names new before skip text).2 := by
  induction text with
  | nil =>
    intro before skip
    simpa [replaceFrom] using Replaced.nil
  | cons c text ih =>
    intro before skip
    cases skip with
    | succ skip => simpa [replaceFrom] using ih (some c) skip
    | zero =>
      unfold replaceFrom
      split
      · next name hword =>
        obtain ⟨hmem, rest, htext⟩ := wordAt?_some hword
        cases name with
        | nil => exact absurd rfl (hnames [] hmem)
        | cons c' name =>
          -- the rest of the name is skipped, so the search goes on right behind it
          rw [List.cons_append] at htext
          obtain ⟨rfl, rfl⟩ := List.cons.inj htext
          have hrest := ih (some c) name.length
          rw [List.drop_left] at hrest
          exact .replace hmem hrest
      · exact .keep (ih (some c) 0)

/-- Replacing words keeps all that is not replaced. -/
theorem replaceWords_replaced (isWord : Char → Bool) (new : List Char → List Char)
    (hnames : ∀ name ∈ names, name ≠ []) (text : List Char) :
    Replaced names new text (replaceWords isWord names new text).1
      (replaceWords isWord names new text).2 :=
  replaceFrom_replaced hnames text none 0

end ShaderGraph.Program
