import ResourceScript.Proofs.Outcome
import ResourceScript.Run.Build

namespace ResourceScript

/-- Whatever becomes of the computation, it only adds to what was written. -/
def Appends (written : σ → Text) (m : EStateM ε σ α) : Prop :=
  ∀ s, Ends m s (fun _ s' => written s <+: written s') fun _ s' => written s <+: written s'

namespace Appends

variable {written : σ → Text} {m : EStateM ε σ α} {f : α → EStateM ε σ β}

theorem pure (a : α) : Appends written (Pure.pure a : EStateM ε σ α) :=
  fun _ => List.prefix_rfl

theorem throw (e : ε) : Appends written (MonadExcept.throw e : EStateM ε σ α) :=
  fun _ => List.prefix_rfl

theorem bind (h : Appends written m) (hf : ∀ a, Appends written (f a)) :
    Appends written (m >>= f) := by
  intro s
  apply (h s).bind
  intro a s' hs
  exact (hf a s').mono (fun _ _ => hs.trans) fun _ _ => hs.trans

theorem get_bind {f : σ → EStateM ε σ α} (hf : ∀ s, Appends written (f s)) :
    Appends written (get >>= f) :=
  fun s => Ends.get_bind (hf s s)

theorem tryCatch {handle : ε → EStateM ε σ α} (h : Appends written m)
    (hhandle : ∀ e, Appends written (handle e)) :
    Appends written (MonadExcept.tryCatch m handle) := by
  intro s
  apply (h s).tryCatch
  intro e s' hs
  exact (hhandle e s').mono (fun _ _ => hs.trans) fun _ _ => hs.trans

theorem forM {step : α → EStateM ε σ PUnit} (h : ∀ x, Appends written (step x)) (xs : List α) :
    Appends written (xs.forM step) := by
  induction xs with
  | nil => exact pure _
  | cons x xs ih => exact bind (h x) fun _ => ih

theorem mapM {step : α → EStateM ε σ β} (h : ∀ x, Appends written (step x)) (xs : List α) :
    Appends written (xs.mapM step) := by
  induction xs with
  | nil => exact pure _
  | cons x xs ih =>
    rw [List.mapM_cons]
    exact bind (h x) fun y => bind ih fun ys => pure _

end Appends

namespace Reporter

theorem appends_write (t : Text) : Appends written (write t) :=
  fun _ => List.prefix_append _ _

theorem appends_writeRecords (records : List (Except Fault Json)) :
    Appends written (writeRecords records) := by
  apply Appends.forM
  intro record
  cases record with
  | ok j => exact appends_write _
  | error f => exact .throw f

theorem appends_tell (task : Option Task) (e : Event) : Appends written (tell task e) := by
  apply Appends.get_bind
  intro r
  split
  · exact appends_write _
  · exact appends_writeRecords _
  · exact .bind (appends_write _) fun _ _ => List.prefix_rfl
  · exact .pure ()
  · exact .pure ()

theorem appends_report (e : Event) : Appends written (report e) := by
  intro r
  unfold report
  split
  · exact List.prefix_rfl
  · apply Ends.get_bind
    split
    · exact List.prefix_rfl
    · exact List.prefix_rfl
    · exact List.prefix_rfl
    · exact List.prefix_rfl
    · split
      · split
        · apply Ends.set_bind
          exact appends_tell _ _ _
        · exact List.prefix_rfl
      · exact List.prefix_rfl

theorem appends_log (severity : Severity) (line : Text) : Appends written (log severity line) := by
  apply Appends.get_bind
  intro r
  split
  · exact .pure ()
  · split
    · exact .pure ()
    · exact appends_report _

end Reporter

def Workspace.written (w : Workspace) : Text :=
  w.reporter.written

namespace Run

open Workspace (written)

theorem appends_reporting {act : Report α} (h : Appends Reporter.written act) :
    Appends written (reporting act) := by
  intro w
  unfold Ends reporting
  cases hact : act w.reporter with
  | ok a r => exact (h w.reporter).of_ok hact
  | error f r => exact (h w.reporter).of_error hact

theorem appends_report (e : Event) : Appends written (report e) :=
  appends_reporting (Reporter.appends_report e)

theorem appends_note (line : Text) : Appends written (note line) :=
  appends_reporting (Reporter.appends_log .debug line)

theorem appends_ofExcept (e : Except Failure α) : Appends written (ofExcept e) := by
  intro w
  cases e <;> exact List.prefix_rfl

theorem appends_ensureShown (n : Int) : Appends written (ensureShown n) := by
  unfold ensureShown
  split
  · exact .pure ()
  · exact .throw _

theorem appends_task {work : Run α} (h : Appends written work) (id name : String)
    (total : Option Int) (details : Details) :
    Appends written (task id name total details work) := by
  apply (appends_report _).bind
  intro _
  have hhandle (e : Failure) : Appends written (do
      report (.taskEnd id .failed [])
      MonadExcept.throw e : Run α) :=
    (appends_report _).bind fun _ => .throw e
  exact (h.tryCatch hhandle).bind fun a => (appends_report _).bind fun _ => .pure a

theorem appends_ensureDirectories (p : Path) : Appends written (ensureDirectories p) :=
  fun _ => List.prefix_rfl

theorem appends_writeFile (p : Path) (data : Bytes) : Appends written (writeFile p data) := by
  apply (appends_ensureDirectories _).bind
  intro outcome
  split
  · exact .pure _
  · intro w
    apply Ends.get_bind
    split
    · exact List.prefix_rfl
    · exact List.prefix_rfl

theorem appends_writeResources (directory : Path) (resources : List Resource) :
    Appends written (writeResources directory resources) := by
  apply Appends.mapM
  intro x
  apply (appends_ensureShown _).bind
  intro _
  apply (appends_writeFile _ _).bind
  intro outcome
  split
  · exact .throw _
  · exact (appends_note _).bind fun _ => .pure _

theorem appends_writeManifest (p : Path) (m : Manifest) : Appends written (writeManifest p m) := by
  apply (appends_ensureDirectories _).bind
  intro made
  apply (appends_ofExcept _).bind
  intro _
  apply (appends_ofExcept _).bind
  intro j
  exact (appends_writeFile _ _).bind fun outcome => appends_ofExcept _

end Run

namespace BuildOrder

open Workspace (written)

variable {o : BuildOrder}

theorem appends_reportEncoded (before resources : List Resource) :
    Appends written (reportEncoded before resources) := by
  induction resources generalizing before with
  | nil => exact .pure ()
  | cons x rest ih =>
    exact (Run.appends_ensureShown _).bind fun _ => (Run.appends_report _).bind fun _ => ih _

theorem appends_encode (surroundings : Surroundings) (registry : Registry) (source : String) :
    Appends written (o.encode surroundings registry source) := by
  apply Run.appends_task
  apply Appends.get_bind
  intro w
  apply (Appends.forM Run.appends_note _).bind
  intro _
  apply (Run.appends_ofExcept _).bind
  intro resources
  exact (appends_reportEncoded _ _).bind fun _ => .pure _

theorem appends_write (resources : List Resource) (directory : Path) :
    Appends written (write resources directory) := by
  apply Appends.bind
  · apply Run.appends_task
    apply (Run.appends_writeResources _ _).bind
    intro files
    exact (Appends.forM (fun file => Run.appends_report _) files).bind fun _ => .pure files
  · intro files
    exact (Run.appends_report _).bind fun _ => .pure files

theorem appends_manifest (type : TypeTemplate) (built : Built) : Appends written (do
    if let some p := o.manifest then
      Run.writeManifest p
        { script := some o.script, type := some type.name, directory := o.output,
          entries := entries built.resources built.files }
      Run.status (text "Manifest summary: path=" ++ p.render)
    return built) := by
  dsimp only
  split
  · apply (Run.appends_writeManifest _ _).bind
    intro _
    exact (Run.appends_report _).bind fun _ => .pure _
  · exact .pure _

/-- A run from the script on, once the types are reported. -/
def compileAndWrite (o : BuildOrder) (surroundings : Surroundings) (registry : Registry)
    (type : TypeTemplate) : Run Built := do
  let source ← Run.ofExcept ((← get).files.readText o.script)
  Run.note (text "compiling " ++ o.script.render ++
    text s!" ({source.length} chars) against {type.name}")
  let resources ← o.encode surroundings registry source
  Run.ensureShown resources.length
  Run.ensureShown (totalBytes resources)
  Run.status (text s!"Compile summary: resources={resources.length} bytes={totalBytes resources}")
  let files ← match o.output with
    | some directory => write resources directory
    | none => pure []
  if let some p := o.manifest then
    Run.writeManifest p
      { script := some o.script, type := some type.name, directory := o.output,
        entries := entries resources files }
    Run.status (text "Manifest summary: path=" ++ p.render)
  return { resources, files }

theorem run_eq (o : BuildOrder) (surroundings : Surroundings) : o.run surroundings = (do
    let registry ← Run.ofExcept (loadRegistry (← get).files o.types o.type)
    let type ← Run.ofExcept registry.active
    Run.status (text "Types summary: file=" ++ o.types.name ++
      text s!" type={type.name} code={type.code} fields={type.fields.length}")
    o.compileAndWrite surroundings registry type) := rfl

theorem appends_compileAndWrite (surroundings : Surroundings) (registry : Registry)
    (type : TypeTemplate) : Appends written (o.compileAndWrite surroundings registry type) := by
  apply Appends.get_bind
  intro w
  apply (Run.appends_ofExcept _).bind
  intro source
  apply (Run.appends_note _).bind
  intro _
  apply (appends_encode _ _ _).bind
  intro resources
  apply (Run.appends_ensureShown _).bind
  intro _
  apply (Run.appends_ensureShown _).bind
  intro _
  apply (Run.appends_report _).bind
  intro _
  dsimp only
  split
  · exact (appends_write _ _).bind fun files => appends_manifest type ⟨resources, files⟩
  · exact (Appends.pure _).bind fun files => appends_manifest type ⟨resources, files⟩

theorem appends_run (o : BuildOrder) (surroundings : Surroundings) :
    Appends written (o.run surroundings) := by
  rw [run_eq]
  apply Appends.get_bind
  intro w
  apply (Run.appends_ofExcept _).bind
  intro registry
  apply (Run.appends_ofExcept _).bind
  intro type
  exact (Run.appends_report _).bind fun _ => appends_compileAndWrite surroundings registry type

end BuildOrder

end ResourceScript
