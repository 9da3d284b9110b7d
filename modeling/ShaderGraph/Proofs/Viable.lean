import ShaderGraph.Proofs.Grammar
import ShaderGraph.Proofs.Placement

/-!
# Where a template text goes wrong

Tokens are `Viable` as long as something can follow that makes them a block. The
reader of templates goes on exactly as long as what it has read is viable
(`viable_iff_steps`): while it has not stopped, the tags that close the open
conditionals are such a continuation (`Reading.steps_completion`), and a block is
read to its end.

So the fault of a text is its first token that nothing can follow up to a block, or
the end of the text if there is no such token (`compile_error_located`).
-/

namespace ShaderGraph.Template

/-- More tokens can make these tokens a block. -/
def Viable (ls : List Lexeme) : Prop := ∃ more, Derivable (ls ++ more)

/-! ## What can follow -/

/-- Tags that close the open conditionals. -/
def Reading.completion (r : Reading) : List Lexeme :=
  List.replicate r.opened.length (Token.closeIf.over ⟨0, 0⟩)

theorem Reading.steps_completion (r : Reading) :
    ∃ r', r.steps r.completion = .ok r' ∧ r'.opened = [] := by
  obtain ⟨opened, block⟩ := r
  induction opened generalizing block with
  | nil => exact ⟨_, rfl, rfl⟩
  | cons o outer ih =>
    obtain ⟨r', hsteps, hopened⟩ := ih _
    exact ⟨r', hsteps, hopened⟩

/-- The reader goes on as long as the tokens are viable. -/
theorem viable_iff_steps {ls : List Lexeme} :
    Viable ls ↔ ∃ r, Reading.start.steps ls = .ok r := by
  constructor
  · rintro ⟨more, h⟩
    obtain ⟨r, hsteps, -⟩ := derivable_iff_steps.mp h
    obtain ⟨r₁, hls, -⟩ := Reading.steps_append_ok hsteps
    exact ⟨r₁, hls⟩
  · rintro ⟨r, hls⟩
    obtain ⟨r', hmore, hopened⟩ := r.steps_completion
    refine ⟨r.completion, derivable_iff_steps.mpr ⟨r', ?_, hopened⟩⟩
    rw [Reading.steps_append, hls]
    exact hmore

theorem Viable.front {front ls : List Lexeme} (h : Viable ls) (hfront : front <+: ls) :
    Viable front := by
  obtain ⟨back, rfl⟩ := hfront
  obtain ⟨more, hmore⟩ := h
  exact ⟨back ++ more, by rwa [← List.append_assoc]⟩

/-! ## Where the reader stops -/

theorem Reading.step_error {r : Reading} {l : Lexeme} {f : Fault} (h : r.step l = .error f) :
    f.span = l.span := by
  obtain ⟨token, start, stop⟩ := l
  obtain ⟨opened, block⟩ := r
  cases token with
  | text | brace | interp | openIf => cases h
  | openTag =>
    cases h
    rfl
  | elseMark =>
    rcases opened with _ | ⟨⟨name, start, before, _ | branch⟩, outer⟩
    · cases h
      rfl
    · cases h
    · cases h
      rfl
  | closeIf =>
    rcases opened with _ | ⟨o, outer⟩
    · cases h
      rfl
    · cases h

theorem Reading.steps_error {r : Reading} {ls : List Lexeme} {f : Fault}
    (h : r.steps ls = .error f) : ∃ front l back r', ls = front ++ l :: back ∧
      r.steps front = .ok r' ∧ r'.step l = .error f := by
  induction ls generalizing r with
  | nil => cases h
  | cons l ls ih =>
    cases hstep : r.step l with
    | error f' =>
      rw [Reading.steps, hstep] at h
      cases h
      exact ⟨[], l, ls, r, rfl, rfl, hstep⟩
    | ok r₁ =>
      rw [Reading.steps, hstep] at h
      obtain ⟨front, l', back, r', rfl, hfront, hl'⟩ := ih h
      refine ⟨l :: front, l', back, r', rfl, ?_, hl'⟩
      rw [Reading.steps, hstep]
      exact hfront

/-! ## The fault of a text -/

/-- `front ++ [l]` is the shortest front of the tokens that is not viable. -/
structure FirstImpossible (ls front : List Lexeme) (l : Lexeme) : Prop where
  isFront : front ++ [l] <+: ls
  impossible : ¬ Viable (front ++ [l])
  shortest : ∀ other, other <+: ls → ¬ Viable other → (front ++ [l]).length ≤ other.length

/-- The token that the reader stops at is the first impossible one. -/
theorem firstImpossible_of_step {front back : List Lexeme} {l : Lexeme} {r : Reading} {f : Fault}
    (hfront : Reading.start.steps front = .ok r) (hl : r.step l = .error f) :
    FirstImpossible (front ++ l :: back) front l where
  isFront := ⟨back, by simp⟩
  impossible := by
    rw [viable_iff_steps]
    rintro ⟨r', hsteps⟩
    rw [Reading.steps_append, hfront] at hsteps
    simp [Reading.steps, hl] at hsteps
  shortest := by
    intro other hother hnot
    by_contra hlt
    -- what is shorter is a front of what has been read
    have hle : other.length ≤ front.length := by
      rw [List.length_append, List.length_singleton] at hlt
      omega
    have hshorter := List.prefix_of_prefix_length_le hother (List.prefix_append front _) hle
    exact hnot ((viable_iff_steps.mpr ⟨r, hfront⟩).front hshorter)

/-- A text that is no template has one fault. It is the first token that makes it
impossible to go on to a block, if there is one; otherwise a conditional is open at
the end of the text, and the fault is there. -/
theorem compile_error_located (source : String) (e : BodyError) (h : compile source = .error e) :
    ∃ fault, e = .malformed [fault] ∧
      ((∃ front, front <+: lex source ∧ ¬ Viable front) →
        ∃ front l, FirstImpossible (lex source) front l ∧ fault.span = l.span) ∧
      ((∀ front, front <+: lex source → Viable front) →
        ¬ Derivable (lex source) ∧ closings (lex source) < openings (lex source) ∧
          fault.span = ⟨source.utf8ByteSize, source.utf8ByteSize⟩) := by
  have hnot : ¬ Derivable (lex source) := by
    rintro ⟨block, hblock⟩
    rw [(compile_ok_iff source _).mpr ⟨block, hblock, rfl⟩] at h
    cases h
  unfold compile parse ofLexemes at h
  cases hsteps : Reading.start.steps (lex source) with
  | error f =>
    rw [hsteps] at h
    cases h
    obtain ⟨front, l, back, r, hlex, hfront, hl⟩ := Reading.steps_error hsteps
    have himpossible : FirstImpossible (lex source) front l := by
      rw [hlex]
      exact firstImpossible_of_step hfront hl
    refine ⟨f, rfl, fun _ => ⟨front, l, himpossible, Reading.step_error hl⟩, ?_⟩
    intro hviable
    exact absurd (hviable _ himpossible.isFront) himpossible.impossible
  | ok r =>
    rw [hsteps] at h
    have hviable : Viable (lex source) := viable_iff_steps.mpr ⟨r, hsteps⟩
    have hlength := Reading.opened_length hsteps
    obtain ⟨opened, block⟩ := r
    cases opened with
    | nil => cases h
    | cons o outer =>
      cases h
      refine ⟨_, rfl, ?_, fun _ => ⟨hnot, ?_, rfl⟩⟩
      · rintro ⟨front, hfront, himpossible⟩
        exact absurd (hviable.front hfront) himpossible
      · simp only [Reading.start, List.length_cons, List.length_nil] at hlength
        omega

/-- A conditional with a second `else`, which is the fault although the conditional
is also left open. -/
def doubledElse : String :=
  "\x7b\x7b#if A\x7d\x7dé\x7b\x7belse\x7d\x7d\x7b\x7b/if\x7d\x7d\x7b\x7b#if B\x7d\x7d"
    ++ "\x7b\x7belse\x7d\x7db\x7b\x7b else \x7d\x7d"

def doubledFault : Fault :=
  ⟨"found '\x7b\x7belse\x7d\x7d' expected something else, or '\x7b\x7b/if\x7d\x7d'", ⟨44, 54⟩⟩

theorem compile_error_located_doubled :
    compile doubledElse = .error (.malformed [doubledFault]) ∧
      ∃ front l, FirstImpossible (lex doubledElse) front l ∧ doubledFault.span = l.span := by
  have hlex : lex doubledElse = [⟨.openIf "A", 0, 9⟩, ⟨.text "é", 9, 11⟩, ⟨.elseMark, 11, 19⟩,
      ⟨.closeIf, 19, 26⟩, ⟨.openIf "B", 26, 35⟩, ⟨.elseMark, 35, 43⟩, ⟨.text "b", 43, 44⟩,
      ⟨.elseMark, 44, 54⟩] := by decide +kernel
  have hcompile : compile doubledElse = .error (.malformed [doubledFault]) := by
    unfold compile parse
    rw [hlex]
    rfl
  obtain ⟨fault, hfault, himpossible, -⟩ := compile_error_located _ _ hcompile
  cases hfault
  refine ⟨hcompile, himpossible ⟨_, List.prefix_refl _, ?_⟩⟩
  rw [viable_iff_steps, hlex]
  rintro ⟨r, hr⟩
  cases hr

end ShaderGraph.Template
