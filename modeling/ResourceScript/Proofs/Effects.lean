import ResourceScript.Proofs.Locations
import ResourceScript.Run.Build

namespace ResourceScript

/-- The failures of a reporter that cannot report an event. -/
def Reporter.FailsWith (e : Failure) : Prop :=
  ∃ event r fault r', Reporter.report event r = .error fault r' ∧ e = .fault fault

namespace Reporter

theorem ends_report (event : Event) (r : Reporter) :
    Ends (report event) r (fun _ _ => True) fun fault _ => FailsWith (.fault fault) := by
  unfold Ends
  cases h : report event r with
  | ok _ _ => trivial
  | error fault r' => exact ⟨event, r, fault, r', h, rfl⟩

theorem ends_log (severity : Severity) (line : Text) (r : Reporter) :
    Ends (log severity line) r (fun _ _ => True) fun fault _ => FailsWith (.fault fault) := by
  apply Ends.get_bind
  split
  · exact Ends.pure trivial
  · split
    · exact Ends.pure trivial
    · exact ends_report _ r

end Reporter

namespace Run

variable {m : Run α} {files : FileTree} {P : α → FileTree → Prop} {Q : Failure → FileTree → Prop}

/-- In a workspace with the files the run ends in a value and files with `P`, or in a failure and
files with `Q`, whatever the reporter. -/
def EndsIn (m : Run α) (files : FileTree) (P : α → FileTree → Prop)
    (Q : Failure → FileTree → Prop) :
    Prop :=
  ∀ w, w.files = files → Ends m w (fun a w' => P a w'.files) fun e w' => Q e w'.files

namespace EndsIn

theorem of_ok (h : EndsIn m files P Q) {w : Workspace} (hw : w.files = files)
    (hm : m w = .ok a w') : P a w'.files :=
  (h w hw).of_ok hm

theorem of_error (h : EndsIn m files P Q) {w : Workspace} (hw : w.files = files)
    (hm : m w = .error e w') : Q e w'.files :=
  (h w hw).of_error hm

theorem mono (h : EndsIn m files P Q) (hP : ∀ a f, P a f → P' a f) (hQ : ∀ e f, Q e f → Q' e f) :
    EndsIn m files P' Q' := by
  intro w hw
  exact (h w hw).mono (fun a w' => hP a w'.files) fun e w' => hQ e w'.files

theorem pure (h : P a files) : EndsIn (Pure.pure a) files P Q := by
  intro w hw
  rw [← hw] at h
  exact h

theorem bind {g : α → Run β} {P : β → FileTree → Prop} (h : EndsIn m files M Q)
    (hg : ∀ a f, M a f → EndsIn (g a) f P Q) : EndsIn (m >>= g) files P Q := by
  intro w hw
  apply (h w hw).bind
  intro a w' ha
  exact hg a w'.files ha w' rfl

theorem get_bind {g : Workspace → Run α} (h : ∀ w, w.files = files → EndsIn (g w) files P Q) :
    EndsIn (get >>= g) files P Q := by
  intro w hw
  exact h w hw w hw

theorem ofExcept {e : Except Failure α} (hok : ∀ a, e = .ok a → P a files)
    (herror : ∀ failure, e = .error failure → Q failure files) :
    EndsIn (Run.ofExcept e) files P Q := by
  intro w hw
  rw [← hw] at hok herror
  cases e with
  | ok a => exact hok a rfl
  | error failure => exact herror failure rfl

theorem throw (h : Q e files) : EndsIn (MonadExcept.throw e : Run α) files P Q := by
  intro w hw
  rw [← hw] at h
  exact h

theorem ensureShown_bind {n : Int} {g : Unit → Run α}
    (hg : Text.isShown n = true → EndsIn (g ()) files P Q)
    (hQ : Text.isShown n = false → Q (.fault .noSuchValue) files) :
    EndsIn (Run.ensureShown n >>= g) files P Q := by
  unfold Run.ensureShown
  split
  case isTrue hn => exact hg hn
  case isFalse hn => exact bind (M := fun _ _ => False) (throw (hQ (by simpa using hn))) nofun

theorem reporting {act : Report Unit} {P : Unit → FileTree → Prop}
    (hact : ∀ r, Ends act r (fun _ _ => True) fun fault _ => Reporter.FailsWith (.fault fault))
    (hP : P () files) (hQ : ∀ e, Reporter.FailsWith e → Q e files) :
    EndsIn (Run.reporting act) files P Q := by
  intro w hw
  rw [← hw] at hP hQ
  unfold Ends Run.reporting
  cases h : act w.reporter with
  | ok _ r => exact hP
  | error fault r => exact hQ _ ((hact w.reporter).of_error h)

theorem report {P : Unit → FileTree → Prop} (hP : P () files)
    (hQ : ∀ e, Reporter.FailsWith e → Q e files) (event : Event) :
    EndsIn (Run.report event) files P Q :=
  reporting (Reporter.ends_report event) hP hQ

theorem note {P : Unit → FileTree → Prop} (hP : P () files)
    (hQ : ∀ e, Reporter.FailsWith e → Q e files) (line : Text) :
    EndsIn (Run.note line) files P Q :=
  reporting (Reporter.ends_log .debug line) hP hQ

theorem report_bind {g : Unit → Run α} (hg : EndsIn (g ()) files P Q)
    (hQ : ∀ e, Reporter.FailsWith e → Q e files) (event : Event) :
    EndsIn (Run.report event >>= g) files P Q := by
  apply bind (report (P := fun _ f => f = files) rfl hQ event)
  rintro _ _ rfl
  exact hg

theorem note_bind {g : Unit → Run α} (hg : EndsIn (g ()) files P Q)
    (hQ : ∀ e, Reporter.FailsWith e → Q e files) (line : Text) :
    EndsIn (Run.note line >>= g) files P Q := by
  apply bind (note (P := fun _ f => f = files) rfl hQ line)
  rintro _ _ rfl
  exact hg

theorem forM {P : Unit → FileTree → Prop} {step : α → Run Unit} {xs : List α}
    (hstep : ∀ x ∈ xs, EndsIn (step x) files (fun _ f => f = files) Q) (hP : P () files) :
    EndsIn (xs.forM step) files P Q := by
  induction xs with
  | nil => exact pure hP
  | cons x xs ih =>
    obtain ⟨hx, hxs⟩ := List.forall_mem_cons.mp hstep
    apply bind hx
    rintro _ _ rfl
    exact ih hxs

theorem task {work : Run α} (hwork : EndsIn work files P Q)
    (hstart : ∀ e, Reporter.FailsWith e → Q e files)
    (hfailed : ∀ e f, Q e f → ∀ e', Reporter.FailsWith e' → Q e' f)
    (hend : ∀ a f, P a f → ∀ e, Reporter.FailsWith e → Q e f) (id name : String)
    (total : Option Int) (details : Details) :
    EndsIn (Run.task id name total details work) files P Q := by
  apply report_bind _ hstart
  apply EndsIn.bind (M := P)
  · intro w hw
    apply (hwork w hw).tryCatch
    intro e w' he
    have hthrow : EndsIn (do
          Run.report (.taskEnd id .failed [])
          MonadExcept.throw e) w'.files P Q := by
      apply report_bind _ (hfailed e _ he)
      exact EndsIn.throw he
    exact hthrow w' rfl
  · intro a f ha
    apply report_bind _ (hend a f ha)
    exact pure ha

end EndsIn

theorem endsIn_ensureDirectories (files : FileTree) (p : Path) :
    EndsIn (ensureDirectories p) files (fun _ f => files.Grows (fun _ => False) f) Q := by
  rintro w rfl
  exact FileTree.grows_ensureDirectories w.files p

theorem endsIn_writeFile (files : FileTree) (p : Path) (data : Bytes) :
    EndsIn (writeFile p data) files (fun outcome f =>
      files.Grows (· = p.place files.working) f ∧ (outcome = .ok () → f.read p = .ok data)) Q := by
  apply EndsIn.bind (endsIn_ensureDirectories files p.parent)
  intro outcome f hf
  have hdirectories : files.Grows (· = p.place files.working) f := hf.mono nofun
  split
  · exact EndsIn.pure ⟨hdirectories, nofun⟩
  · rintro w rfl
    apply Ends.get_bind
    split
    · exact ⟨hdirectories, nofun⟩
    case h_2 t hwrite =>
      apply Ends.set_bind
      obtain ⟨hgrows, hread⟩ := FileTree.grows_write hwrite
      rw [hf.working] at hgrows
      exact ⟨hdirectories.trans hgrows, fun _ => hread⟩

theorem endsIn_writeResource (files : FileTree) (directory : Path) (x : Resource) :
    EndsIn (writeResource directory x) files (fun file f => file = directory.join x.file ∧
      files.Grows (· = x.place directory files.working) f ∧ f.read file = .ok x.data)
      fun _ f => files.Grows (· = x.place directory files.working) f := by
  apply EndsIn.ensureShown_bind _ fun _ => .refl files
  intro _
  apply EndsIn.bind (endsIn_writeFile files (directory.join x.file) x.data)
  rintro outcome f ⟨hgrows, hread⟩
  split
  · exact EndsIn.throw hgrows
  · apply EndsIn.note_bind _ fun _ _ => hgrows
    exact EndsIn.pure ⟨rfl, hgrows, hread rfl⟩

theorem endsIn_writeResources_last (files : FileTree) (directory : Path) (xs : List Resource) :
    EndsIn (writeResources directory xs) files (fun paths f =>
      paths = xs.map (directory.join ·.file) ∧
      files.Grows (fun place => ∃ x ∈ xs, place = x.place directory files.working) f ∧
      (∀ x ∈ xs, f.locate (directory.join x.file) = .ok (x.place directory files.working)) ∧
      ∀ before x after, xs = before ++ x :: after →
        (∀ y ∈ after, y.place directory files.working ≠ x.place directory files.working) →
        f.node? (x.place directory files.working) = some (.file x.data))
      fun _ f => files.Grows (fun place => ∃ x ∈ xs, place = x.place directory files.working)
        f := by
  induction xs generalizing files with
  | nil =>
    refine EndsIn.pure ⟨rfl, .refl files, List.forall_mem_nil _, ?_⟩
    intro before x after hsplit
    simp at hsplit
  | cons x xs ih =>
    have hfirst : ∀ place, place = x.place directory files.working →
        ∃ y ∈ x :: xs, place = y.place directory files.working := by
      rintro _ rfl
      exact ⟨x, List.mem_cons_self, rfl⟩
    have hothers : ∀ place, (∃ y ∈ xs, place = y.place directory files.working) →
        ∃ y ∈ x :: xs, place = y.place directory files.working := by
      rintro _ ⟨y, hy, rfl⟩
      exact ⟨y, List.mem_cons_of_mem x hy, rfl⟩
    unfold writeResources
    rw [List.mapM_cons]
    apply EndsIn.bind ((endsIn_writeResource files directory x).mono (fun _ _ h => h)
      fun _ _ h => h.mono hfirst)
    rintro _ f₁ ⟨rfl, hgrows₁, hread⟩
    obtain ⟨place, hlocate, hnode⟩ := FileTree.read_eq_ok.mp hread
    have hplace := FileTree.locate_eq hlocate
    have hrest := ih f₁
    rw [hgrows₁.working] at hrest hplace
    subst hplace
    apply EndsIn.bind (hrest.mono (fun _ _ h => h)
      fun _ _ h => (hgrows₁.mono hfirst).trans (h.mono hothers))
    rintro _ f₂ ⟨rfl, hgrows₂, hlocates, hnodes⟩
    apply EndsIn.pure
    refine ⟨rfl, (hgrows₁.mono hfirst).trans (hgrows₂.mono hothers), ?_, ?_⟩
    · exact List.forall_mem_cons.mpr ⟨hgrows₂.locate hlocate, hlocates⟩
    · intro before y after hsplit hlast
      rcases List.cons_eq_append_iff.mp hsplit with ⟨rfl, h⟩ | ⟨before, rfl, hxs⟩
      · cases h
        apply (hgrows₂.files _).mpr hnode
        rintro ⟨z, hz, heq⟩
        exact hlast z hz heq.symm
      · exact hnodes before y after hxs hlast

theorem endsIn_writeResources (files : FileTree) (directory : Path) (xs : List Resource) :
    EndsIn (writeResources directory xs) files (fun paths f =>
      paths = xs.map (directory.join ·.file) ∧
      files.Grows (fun place => ∃ x ∈ xs, place = x.place directory files.working) f ∧
      ((xs.map (·.place directory files.working)).Nodup →
        ∀ x ∈ xs, f.read (directory.join x.file) = .ok x.data))
      fun _ f => files.Grows (fun place => ∃ x ∈ xs, place = x.place directory files.working)
        f := by
  apply (endsIn_writeResources_last files directory xs).mono _ fun _ _ h => h
  rintro _ f ⟨rfl, hgrows, hlocates, hnodes⟩
  refine ⟨rfl, hgrows, ?_⟩
  intro hplaces x hx
  refine FileTree.read_eq_ok.mpr ⟨_, hlocates x hx, ?_⟩
  obtain ⟨before, after, rfl⟩ := List.append_of_mem hx
  apply hnodes before x after rfl
  intro y hy heq
  rw [List.map_append, List.map_cons] at hplaces
  have hrest := (List.nodup_append.mp hplaces).2.1
  exact (List.nodup_cons.mp hrest).1 (heq ▸ List.mem_map_of_mem hy)

end Run

end ResourceScript
