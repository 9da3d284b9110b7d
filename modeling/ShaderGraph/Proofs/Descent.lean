import ShaderGraph.Proofs.Grammar

/-!
# Reading templates by recursive descent

The grammar of templates can be read with one function for each of its rules. A block
tries its alternatives in order and ends where none of them fits. A conditional that
cannot be read to its closing tag is not read at all: its block backs out of it and ends
before its opening tag, and whatever was read inside is given up.

What goes wrong is therefore not found where the reading ends. Each time a rule does not
find the token it wants, the place is compared with the furthest place so far (`furthest`),
and a fault is about the furthest miss, with all that was wanted there.

The stack machine of `ofLexemes` never backs out: it reports the first token that cannot
stand where it stands. `descend_eq_ofLexemes` says that the two give the same template and
the same fault:

* **clean** — a block that ends at a token that begins no segment has taken the machine on
  by its segments;
* **backed out** — a block that ends before a conditional has its furthest miss inside, and
  that is the fault of the machine, however many conditionals are open.

`BlockRead.Agrees` is the invariant that says so; each rule keeps it (`readBlock_agrees`).
-/

namespace ShaderGraph.Template

/-! ## Misses -/

/-- What a rule looks for. -/
inductive Wanted where
  /-- One of several tokens, which are not named. -/
  | something
  | elseMark
  | closeIf
  | ending
deriving DecidableEq, Repr

/-- How it is named in a message. -/
def Wanted.display : Wanted → String
  | .something => "something else"
  | .elseMark => "'" ++ Token.elseMark.display ++ "'"
  | .closeIf => "'" ++ Token.closeIf.display ++ "'"
  | .ending => "end of input"

/-- Two or more that are wanted, in words. -/
def listed : List Wanted → String
  | [] => ""
  | [w] => "or " ++ w.display
  | w :: rest => w.display ++ ", " ++ listed rest

/-- What is wanted, in words. -/
def wantedText : List Wanted → String
  | [] => Wanted.something.display
  | [w] => w.display
  | ws => listed ws

/-- A place where rules did not find what they wanted. -/
structure Miss where
  /-- The tokens from that place on. -/
  left : List Lexeme
  wanted : List Wanted

/-- The fault of a text of `length` octets with this miss. -/
def Miss.fault (length : Nat) (m : Miss) : Fault :=
  match m.left with
  | [] => ⟨"found end of input expected " ++ wantedText m.wanted, ⟨length, length⟩⟩
  | l :: _ =>
    ⟨"found '" ++ l.token.display ++ "' expected " ++ wantedText m.wanted, ⟨l.start, l.stop⟩⟩

/-- The furthest of the misses so far and one more. At one place, all that is wanted
is collected. -/
def furthest (old : Option Miss) (left : List Lexeme) (w : Wanted) : Miss :=
  match old with
  | none => ⟨left, [w]⟩
  | some m =>
    if left.length < m.left.length then ⟨left, [w]⟩
    else if m.left.length < left.length then m
    else if w ∈ m.wanted then m
    else ⟨m.left, m.wanted ++ [w]⟩

/-! ## The rules -/

/-- A block as far as it could be read. -/
structure BlockRead where
  segments : List Segment
  /-- The number of tokens that have been taken. -/
  taken : Nat
  miss : Option Miss

/-- What has come of trying to read a segment. -/
structure Attempt where
  /-- The segment, and the number of tokens it takes behind its first. -/
  found : Option (Segment × Nat)
  miss : Option Miss

/-- The token that comes next. -/
def nextToken? (ls : List Lexeme) : Option Token := ls.head?.map (·.token)

/-- Text that stands for itself. -/
def textOf? (l : Lexeme) : Option Segment :=
  match l.token with
  | .text content => some (.text content)
  | .brace => some (.text "\x7b")
  | _ => none

/-- The value of a define. -/
def interpOf? (l : Lexeme) : Option Segment :=
  match l.token with
  | .interp name => some (.interp name ⟨l.start, l.stop⟩)
  | _ => none

/-- The define of an opening tag. -/
def conditionOf? (l : Lexeme) : Option String :=
  match l.token with
  | .openIf name => some name
  | _ => none

/-- The end of a conditional that starts at octet `start`, `taken` tokens behind its
opening tag. -/
def closing (name : String) (start : Nat) (thenPart elsePart : List Segment)
    (rest : List Lexeme) (taken : Nat) (miss : Option Miss) : Attempt :=
  match rest.drop taken with
  | ⟨.closeIf, _, stop⟩ :: _ =>
    ⟨some (.cond name ⟨start, stop⟩ thenPart elsePart, taken + 1), miss⟩
  | left => ⟨none, some (furthest miss left .closeIf)⟩

mutual

/-- A block: segments, as long as there is one to be read. -/
def readBlock (miss : Option Miss) : List Lexeme → BlockRead
  | [] => ⟨[], 0, some (furthest miss [] .something)⟩
  | l :: rest =>
    let attempt := readSegment miss l rest
    match attempt.found with
    | none => ⟨[], 0, attempt.miss⟩
    | some (s, k) =>
      let more := readBlock attempt.miss (rest.drop k)
      ⟨s :: more.segments, k + 1 + more.taken, more.miss⟩
termination_by ls => (ls.length, 0)

/-- A segment: text, or else the value of a define, or else a conditional. -/
def readSegment (miss : Option Miss) (l : Lexeme) (rest : List Lexeme) : Attempt :=
  match textOf? l with
  | some s => ⟨some (s, 0), miss⟩
  | none =>
    let miss := some (furthest miss (l :: rest) .something)
    match interpOf? l with
    | some s => ⟨some (s, 0), miss⟩
    | none =>
      let miss := some (furthest miss (l :: rest) .something)
      match conditionOf? l with
      | some name => readConditional miss name l.start rest
      | none => ⟨none, some (furthest miss (l :: rest) .something)⟩
termination_by (rest.length, 2)

/-- A conditional behind its opening tag: a block, perhaps a second one, and the closing
tag. -/
def readConditional (miss : Option Miss) (name : String) (start : Nat) (rest : List Lexeme) :
    Attempt :=
  let first := readBlock miss rest
  let left := rest.drop first.taken
  if nextToken? left = some .elseMark then
    let second := readBlock first.miss (rest.drop (first.taken + 1))
    closing name start first.segments second.segments rest (first.taken + 1 + second.taken)
      second.miss
  else
    closing name start first.segments [] rest first.taken
      (some (furthest first.miss left .elseMark))
termination_by (rest.length, 1)
decreasing_by all_goals exact .right' _ (by simp) Nat.one_pos

end

/-- The template that a token list spells, where the text has `length` octets, read by
recursive descent. -/
def descend (tokens : List Lexeme) (length : Nat) : Except Fault Template :=
  let read := readBlock none tokens
  match tokens.drop read.taken with
  | [] => .ok ⟨read.segments⟩
  | left => .error ((furthest read.miss left .ending).fault length)

/-! ## The furthest miss -/

/-- All misses so far are before these tokens. -/
def Behind (miss : Option Miss) (ls : List Lexeme) : Prop :=
  ∀ m, miss = some m → ls.length < m.left.length

theorem Behind.mono {miss : Option Miss} {ls more : List Lexeme} (h : Behind miss more)
    (hle : ls.length ≤ more.length) : Behind miss ls := by
  intro m hm
  have hlt := h m hm
  omega

theorem behind_some {m : Miss} {ls : List Lexeme} (h : ls.length < m.left.length) :
    Behind (some m) ls := by
  intro m' hm'
  cases hm'
  exact h

section Furthest

variable {ls : List Lexeme} {w : Wanted}

theorem furthest_of_behind {miss : Option Miss} (h : Behind miss ls) (w : Wanted) :
    furthest miss ls w = ⟨ls, [w]⟩ := by
  cases miss with
  | none => rfl
  | some m => exact if_pos (h m rfl)

theorem furthest_again {ws : List Wanted} (h : w ∈ ws) :
    furthest (some ⟨ls, ws⟩) ls w = ⟨ls, ws⟩ := by
  simp [furthest, h]

theorem furthest_here {ws : List Wanted} (h : w ∉ ws) :
    furthest (some ⟨ls, ws⟩) ls w = ⟨ls, ws ++ [w]⟩ := by
  simp [furthest, h]

theorem furthest_of_far {m : Miss} (h : m.left.length < ls.length) (w : Wanted) :
    furthest (some m) ls w = m := by
  have hnot : ¬ ls.length < m.left.length := by omega
  simp [furthest, h, hnot]

end Furthest

/-! ## Where the machine stops -/

/-- Read the rest of a text of `length` octets and end the reading. -/
def Reading.conclude (r : Reading) (ls : List Lexeme) (length : Nat) : Except Fault Template :=
  match r.steps ls with
  | .error f => .error f
  | .ok r' => r'.finish length

theorem Reading.conclude_congr {r r' : Reading} {ls ls' : List Lexeme}
    (h : r.steps ls = r'.steps ls') (length : Nat) :
    r.conclude ls length = r'.conclude ls' length := by
  rw [conclude, h]
  rfl

/-- What the rules want where the machine stands. -/
def Place.wanted : Place → List Wanted
  | .top => [.something, .ending]
  | .inThen => [.something, .elseMark, .closeIf]
  | .inElse => [.something, .closeIf]

theorem wantedText_wanted (p : Place) : wantedText p.wanted = p.expected := by
  cases p with
  | top => rfl
  | inThen => rfl
  | inElse => rfl

/-- The machine does not get past these tokens. -/
def Reading.Halts (r : Reading) : List Lexeme → Prop
  | [] => r.opened ≠ []
  | l :: _ => r.step l = .error (.unexpected l r.place)

theorem Reading.Halts.conclude {r : Reading} {ls : List Lexeme} (h : r.Halts ls) (length : Nat) :
    r.conclude ls length = .error (Miss.fault length ⟨ls, r.place.wanted⟩) := by
  cases ls with
  | nil =>
    show r.finish length = _
    rw [Miss.fault, wantedText_wanted, finish]
    cases hopened : r.opened with
    | nil => exact absurd hopened h
    | cons o outer => rfl
  | cons l rest =>
    have hstep : r.step l = _ := h
    rw [Reading.conclude, steps, hstep, Miss.fault, wantedText_wanted]
    rfl

/-- A token that a segment can begin with. -/
def Token.begins : Token → Bool
  | .text _ | .brace | .interp _ | .openIf _ => true
  | .elseMark | .closeIf | .openTag => false

/-- No segment begins with these tokens. -/
def Stuck (ls : List Lexeme) : Prop := ∀ t, nextToken? ls = some t → t.begins = false

theorem exists_of_nextToken? {ls : List Lexeme} {t : Token} (h : nextToken? ls = some t) :
    ∃ l tail, ls = l :: tail ∧ l.token = t := by
  obtain ⟨l, hl, htoken⟩ := Option.map_eq_some_iff.mp h
  obtain ⟨tail, htail⟩ := List.head?_eq_some_iff.mp hl
  exact ⟨l, tail, htail, htoken⟩

theorem ne_of_begins {ls : List Lexeme} {t : Token}
    (h : ∃ t, nextToken? ls = some t ∧ t.begins = true) (ht : t.begins = false) :
    nextToken? ls ≠ some t := by
  obtain ⟨t', hnext, hbegins⟩ := h
  rw [hnext]
  rintro ⟨⟩
  rw [ht] at hbegins
  cases hbegins

theorem halts_top {block : List Segment} {ls : List Lexeme} (hstuck : Stuck ls) (hne : ls ≠ []) :
    Reading.Halts ⟨[], block⟩ ls := by
  rcases ls with _ | ⟨⟨token, start, stop⟩, rest⟩
  · exact absurd rfl hne
  · have hbegins := hstuck token rfl
    cases token with
    | text | brace | interp | openIf => cases hbegins
    | elseMark | closeIf | openTag => rfl

/-- In a conditional, the closing tag gets the machine on, and `else` does so once. -/
theorem halts_inside {o : OpenIf} {block : List Segment} {outer : List OpenIf} {ls : List Lexeme}
    (hstuck : Stuck ls) (helse : o.thenPart = none → nextToken? ls ≠ some .elseMark)
    (hclose : nextToken? ls ≠ some .closeIf) : Reading.Halts ⟨o :: outer, block⟩ ls := by
  rcases ls with _ | ⟨⟨token, start, stop⟩, rest⟩
  · exact List.cons_ne_nil _ _
  · have hbegins := hstuck token rfl
    cases token with
    | text | brace | interp | openIf => cases hbegins
    | closeIf => exact absurd rfl hclose
    | openTag => rfl
    | elseMark =>
      obtain ⟨name, start, before, _ | branch⟩ := o
      · exact absurd rfl (helse rfl)
      · rfl

/-! ## The descent beside the machine -/

/-- What a block has come to, beside the machine. -/
inductive BlockRead.Agrees (ls : List Lexeme) : BlockRead → Prop
  /-- It has ended at tokens that no segment begins with. -/
  | clean {segments : List Segment} {k : Nat}
      (steps : ∀ r : Reading, r.steps ls = (r.pushAll segments).steps (ls.drop k))
      (stuck : Stuck (ls.drop k)) :
      Agrees ls ⟨segments, k, some ⟨ls.drop k, [.something]⟩⟩
  /-- It has ended before a segment that could not be read. -/
  | backedOut {segments : List Segment} {k : Nat} {far : Miss}
      (begins : ∃ t, nextToken? (ls.drop k) = some t ∧ t.begins = true)
      (further : far.left.length < (ls.drop k).length)
      (fault : ∀ (r : Reading) length, r.conclude ls length = .error (far.fault length)) :
      Agrees ls ⟨segments, k, some far⟩

/-- What trying to read a segment has come to, beside the machine. -/
inductive Attempt.Agrees (l : Lexeme) (rest : List Lexeme) : Attempt → Prop
  | found {s : Segment} {k : Nat} {miss : Option Miss}
      (steps : ∀ r : Reading, r.steps (l :: rest) = (r.push s).steps (rest.drop k))
      (behind : Behind miss (rest.drop k)) :
      Agrees l rest ⟨some (s, k), miss⟩
  | stuck (begins : l.token.begins = false) :
      Agrees l rest ⟨none, some ⟨l :: rest, [.something]⟩⟩
  | backedOut {far : Miss} (begins : l.token.begins = true)
      (further : far.left.length < (l :: rest).length)
      (fault : ∀ (r : Reading) length, r.conclude (l :: rest) length = .error (far.fault length)) :
      Agrees l rest ⟨none, some far⟩

section Closing

variable {name : String} {start : Nat} {thenPart elsePart : List Segment} {rest : List Lexeme}
  {k : Nat}

theorem closing_of_ne {miss : Option Miss} (h : nextToken? (rest.drop k) ≠ some .closeIf) :
    closing name start thenPart elsePart rest k miss =
      ⟨none, some (furthest miss (rest.drop k) .closeIf)⟩ := by
  unfold closing
  split
  · next hdrop =>
    rw [hdrop] at h
    exact absurd rfl h
  · rfl

theorem closing_of_close {m : Lexeme} {tail : List Lexeme} (hdrop : rest.drop k = m :: tail)
    (htoken : m.token = .closeIf) (miss : Option Miss) :
    closing name start thenPart elsePart rest k miss =
      ⟨some (.cond name ⟨start, m.stop⟩ thenPart elsePart, k + 1), miss⟩ := by
  obtain ⟨token, mstart, mstop⟩ := m
  cases htoken
  rw [closing, hdrop]

/-- Behind a branch that has been read, the conditional is closed, or the machine stops
where the closing tag is missed. -/
theorem closing_clean {l : Lexeme} (part : Option (List Segment)) {body : List Segment}
    {wanted : List Wanted} (hbegins : l.token.begins = true)
    (hsteps : ∀ r : Reading, r.steps (l :: rest) =
      Reading.steps ⟨⟨name, l.start, r.block, part⟩ :: r.opened, body.reverse⟩ (rest.drop k))
    (hstuck : Stuck (rest.drop k)) (helse : part = none → nextToken? (rest.drop k) ≠ some .elseMark)
    (hwanted : wanted ++ [.closeIf] = (if part.isNone then Place.inThen else .inElse).wanted)
    (hnew : .closeIf ∉ wanted) :
    Attempt.Agrees l rest (closing name l.start (part.getD body)
      (if part.isNone then [] else body) rest k (some ⟨rest.drop k, wanted⟩)) := by
  by_cases hclose : nextToken? (rest.drop k) = some .closeIf
  · obtain ⟨m, tail, hdrop, htoken⟩ := exists_of_nextToken? hclose
    have htail : tail = rest.drop (k + 1) := by
      rw [← List.tail_drop, hdrop, List.tail_cons]
    rw [closing_of_close hdrop htoken]
    refine .found ?_ ?_
    · intro r
      rw [hsteps, hdrop, ← htail, Reading.steps, Reading.step, htoken]
      cases part with
      | none => simp [Reading.push]
      | some branch => simp [Reading.push]
    · apply behind_some
      simp only [← htail, hdrop, List.length_cons]
      omega
  · rw [closing_of_ne hclose, furthest_here hnew, hwanted]
    refine .backedOut hbegins ?_ ?_
    · simp only [List.length_drop, List.length_cons]
      omega
    · intro r length
      rw [Reading.conclude_congr (hsteps r), (halts_inside hstuck helse hclose).conclude]
      rfl

/-- Behind a branch that its block has backed out of, the closing tag is missed before the
furthest miss. -/
theorem closing_backedOut {l : Lexeme} {far : Miss} (hbegins : l.token.begins = true)
    (hnext : ∃ t, nextToken? (rest.drop k) = some t ∧ t.begins = true)
    (hfar : far.left.length < (rest.drop k).length)
    (hfault : ∀ (r : Reading) length,
      r.conclude (l :: rest) length = .error (far.fault length)) :
    Attempt.Agrees l rest (closing name start thenPart elsePart rest k (some far)) := by
  have hclose := ne_of_begins hnext (show Token.closeIf.begins = false from rfl)
  rw [closing_of_ne hclose, furthest_of_far hfar]
  refine .backedOut hbegins ?_ hfault
  rw [List.length_drop] at hfar
  rw [List.length_cons]
  omega

end Closing

theorem Reading.pushAll_cons (r : Reading) (s : Segment) (segments : List Segment) :
    r.pushAll (s :: segments) = (r.push s).pushAll segments := by
  simp [pushAll, push]

theorem length_drop_succ_lt {ls : List Lexeme} {k : Nat} {t : Token}
    (h : nextToken? (ls.drop k) = some t) : (ls.drop (k + 1)).length < (ls.drop k).length := by
  obtain ⟨l, tail, hdrop, -⟩ := exists_of_nextToken? h
  rw [← List.tail_drop, hdrop]
  exact Nat.lt_succ_self _

-- the recursion is that of the three rules
mutual

theorem readBlock_agrees (miss : Option Miss) (ls : List Lexeme) (h : Behind miss ls) :
    (readBlock miss ls).Agrees ls := by
  cases ls with
  | nil =>
    rw [readBlock, furthest_of_behind h]
    exact .clean (fun r => rfl) (by rintro t ⟨⟩)
  | cons l rest =>
    have hattempt := readSegment_agrees miss l rest h
    rw [readBlock]
    generalize readSegment miss l rest = attempt at hattempt ⊢
    cases hattempt with
    | stuck hbegins =>
      refine .clean (fun r => rfl) ?_
      rintro t ⟨⟩
      exact hbegins
    | backedOut hbegins hfar hfault => exact .backedOut ⟨_, rfl, hbegins⟩ hfar hfault
    | @found s k miss₁ hsteps hbehind =>
      have hmore := readBlock_agrees miss₁ (rest.drop k) hbehind
      have hdrop : ∀ k', (rest.drop k).drop k' = (l :: rest).drop (k + 1 + k') := by
        intro k'
        rw [List.drop_drop, Nat.add_right_comm, List.drop_succ_cons]
      simp only
      generalize readBlock miss₁ (rest.drop k) = more at hmore ⊢
      cases hmore with
      | clean hsteps' hstuck =>
        simp only [hdrop] at hsteps' hstuck ⊢
        refine .clean ?_ hstuck
        intro r
        rw [hsteps, hsteps', Reading.pushAll_cons]
      | backedOut hbegins hfar hfault =>
        simp only [hdrop] at hbegins hfar
        refine .backedOut hbegins hfar ?_
        intro r length
        rw [Reading.conclude_congr (hsteps r), hfault]
termination_by (ls.length, 0)

theorem readSegment_agrees (miss : Option Miss) (l : Lexeme) (rest : List Lexeme)
    (h : Behind miss (l :: rest)) : (readSegment miss l rest).Agrees l rest := by
  obtain ⟨token, start, stop⟩ := l
  have hrest : Behind miss rest := h.mono (Nat.le_succ _)
  rw [readSegment]
  -- the alternatives before the one that fits miss at this token
  cases token with
  | text content => exact .found (fun r => rfl) hrest
  | brace => exact .found (fun r => rfl) hrest
  | interp name =>
    rw [furthest_of_behind h]
    exact .found (fun r => rfl) (behind_some (Nat.lt_succ_self _))
  | openIf name =>
    rw [furthest_of_behind h]
    simp only [textOf?, interpOf?, conditionOf?]
    rw [furthest_again (by simp)]
    exact readConditional_agrees _ ⟨.openIf name, start, stop⟩ rest rfl
      (behind_some (Nat.lt_succ_self _))
  | elseMark | closeIf | openTag =>
    rw [furthest_of_behind h]
    simp only [textOf?, interpOf?, conditionOf?]
    rw [furthest_again (by simp), furthest_again (by simp)]
    exact .stuck rfl
termination_by (rest.length, 2)

theorem readConditional_agrees (miss : Option Miss) {name : String} (l : Lexeme)
    (rest : List Lexeme) (hl : l.token = .openIf name) (h : Behind miss rest) :
    (readConditional miss name l.start rest).Agrees l rest := by
  have hbegins : l.token.begins = true := by
    rw [hl]
    rfl
  have hopen : ∀ r : Reading, r.steps (l :: rest) =
      Reading.steps ⟨⟨name, l.start, r.block, none⟩ :: r.opened, []⟩ rest := by
    intro r
    rw [Reading.steps, Reading.step, hl]
  have hfirst := readBlock_agrees miss rest h
  rw [readConditional]
  generalize readBlock miss rest = first at hfirst ⊢
  cases hfirst with
  | backedOut hnext hfar hfault =>
    have helse := ne_of_begins hnext (show Token.elseMark.begins = false from rfl)
    simp only [if_neg helse, furthest_of_far hfar]
    refine closing_backedOut hbegins hnext hfar ?_
    intro r length
    rw [Reading.conclude_congr (hopen r), hfault]
  | @clean thenPart k hsteps hstuck =>
    by_cases helse : nextToken? (rest.drop k) = some .elseMark
    · -- `else` takes the machine from the first branch to the second
      have hbranch : ∀ r : Reading, r.steps (l :: rest) =
          Reading.steps ⟨⟨name, l.start, r.block, some thenPart⟩ :: r.opened, []⟩
            (rest.drop (k + 1)) := by
        intro r
        obtain ⟨m, tail, hleft, htoken⟩ := exists_of_nextToken? helse
        rw [hopen, hsteps, ← List.tail_drop, hleft, Reading.steps, Reading.step, htoken]
        simp [Reading.pushAll]
      have hsecond := readBlock_agrees (some ⟨rest.drop k, [.something]⟩) (rest.drop (k + 1))
        (behind_some (length_drop_succ_lt helse))
      simp only [if_pos helse]
      generalize readBlock (some ⟨rest.drop k, [.something]⟩) (rest.drop (k + 1)) = second
        at hsecond ⊢
      cases hsecond with
      | backedOut hnext hfar hfault =>
        rw [List.drop_drop] at hnext hfar
        refine closing_backedOut hbegins hnext hfar ?_
        intro r length
        rw [Reading.conclude_congr (hbranch r), hfault]
      | clean hsteps' hstuck' =>
        simp only [List.drop_drop] at hsteps' hstuck' ⊢
        refine closing_clean (some thenPart) hbegins ?_ hstuck' (by simp) rfl (by simp)
        intro r
        rw [hbranch, hsteps']
        simp [Reading.pushAll]
    · simp only [if_neg helse]
      rw [furthest_here (by simp)]
      refine closing_clean none hbegins ?_ hstuck (fun _ => helse) rfl (by simp)
      intro r
      rw [hopen, hsteps]
      simp [Reading.pushAll]
termination_by (rest.length, 1)
decreasing_by all_goals exact .right' _ (by simp) Nat.one_pos

end

/-! ## The two readers -/

/-- Recursive descent gives the template of the machine, or else the fault of the machine. -/
theorem descend_eq_ofLexemes (tokens : List Lexeme) (length : Nat) :
    descend tokens length = ofLexemes tokens length := by
  show _ = Reading.start.conclude tokens length
  have hblock := readBlock_agrees none tokens (by rintro m ⟨⟩)
  unfold descend
  generalize readBlock none tokens = read at hblock ⊢
  cases hblock with
  | @clean segments k hsteps hstuck =>
    rw [Reading.conclude_congr (hsteps Reading.start)]
    simp only
    generalize tokens.drop k = left at hstuck ⊢
    cases left with
    | nil => simp [Reading.conclude, Reading.steps, Reading.finish, Reading.pushAll, Reading.start]
    | cons l rest =>
      show Except.error (Miss.fault length (furthest (some ⟨l :: rest, _⟩) (l :: rest) .ending)) = _
      rw [furthest_here (by simp)]
      exact ((halts_top hstuck (List.cons_ne_nil l rest)).conclude length).symm
  | @backedOut segments k far hnext hfar hfault =>
    rw [hfault]
    simp only
    generalize tokens.drop k = left at hfar ⊢
    cases left with
    | nil => exact absurd hfar (Nat.not_lt_zero _)
    | cons l rest =>
      show Except.error (Miss.fault length (furthest (some far) (l :: rest) .ending)) = _
      rw [furthest_of_far hfar]

/-- A text is a template for the one reader exactly if it is for the other, and both find
the same fault in it if it is not. -/
theorem descend_lex (source : String) :
    descend (lex source) source.utf8ByteSize = parse source :=
  descend_eq_ofLexemes (lex source) source.utf8ByteSize

end ShaderGraph.Template
