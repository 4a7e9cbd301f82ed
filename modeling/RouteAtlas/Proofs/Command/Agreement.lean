import RouteAtlas.Command.Run
import RouteAtlas.Proofs.Pipeline.Runs
import RouteAtlas.Proofs.Validation.Errors

/-!
# The commands agree

Three commands build the graph of a project, and two of them decide on its findings whether the
project is in order: `analyze` by whether the findings make a failure, `validate` by counting them.
Both come down to whether some entity, however far down in its tree, has an error
(`HasError`), so the two exit codes are the same. What the commands leave in the files does not
depend on which of them is run, nor on how it ends (`exitCodes_agree`).
-/

set_option autoImplicit false

namespace RouteAtlas

/-! ## Errors in trees -/

namespace DiagnosticEntity

/-- A finding is about an entity, or about one of those below it. -/
inductive Holds : DiagnosticEntity → Diagnostic → Prop where
  | own {e : DiagnosticEntity} {d : Diagnostic} (h : d ∈ e.diagnostics) : Holds e d
  | inner {e child : DiagnosticEntity} {d : Diagnostic} (hchild : child ∈ e.children)
    (h : Holds child d) : Holds e d

/-- What an entity holds is among its findings. -/
theorem mem_findings_of_holds {e : DiagnosticEntity} {d : Diagnostic} (h : e.Holds d) :
    d ∈ e.findings := by
  induction h with
  | own hmem => exact mem_findings.2 (.inl hmem)
  | inner hchild _ ih => exact mem_findings.2 (.inr ⟨_, hchild, ih⟩)

/-- An entity holds its findings, itself or in one of its children. -/
theorem holds_of_mem_findings {d : Diagnostic} :
    (e : DiagnosticEntity) → d ∈ e.findings → e.Holds d
  | ⟨kind, name, file, diagnostics, children⟩, h => by
    rcases mem_findings.1 h with hown | ⟨child, hchild, hbelow⟩
    · exact .own hown
    · have hsmaller : sizeOf child < sizeOf children := List.sizeOf_lt_of_mem hchild
      exact .inner hchild (holds_of_mem_findings child hbelow)
termination_by e => sizeOf e
decreasing_by
  simp only [mk.sizeOf_spec]
  omega

end DiagnosticEntity

/-- There is an error in some of the trees. -/
def HasError (es : List DiagnosticEntity) : Prop :=
  ∃ e ∈ es, ∃ d, e.Holds d ∧ d.severity = .error

/-- No error is counted if no entity has one. -/
theorem Totals.errors_eq_zero_iff (es : List DiagnosticEntity) :
    (Totals.ofEntities es).errors = 0 ↔ ¬ HasError es := by
  have hcount : (Totals.ofEntities es).errors = 0 ↔
      ∀ d ∈ DiagnosticEntity.findingsOfAll es, d.severity ≠ .error := by
    rw [Totals.errors_ofEntities, List.countP_eq_zero]
    simp
  rw [hcount]
  constructor
  · rintro hnone ⟨e, he, d, hholds, herror⟩
    have hmem := DiagnosticEntity.mem_findings_of_holds hholds
    exact hnone d (DiagnosticEntity.mem_findingsOfAll.2 ⟨e, he, hmem⟩) herror
  · intro hnone d hd herror
    obtain ⟨e, he, hmem⟩ := DiagnosticEntity.mem_findingsOfAll.1 hd
    exact hnone ⟨e, he, d, DiagnosticEntity.holds_of_mem_findings e hmem, herror⟩

/-- Validation passes if no entity has an error. -/
theorem Totals.passed_iff (es : List DiagnosticEntity) :
    (Totals.ofEntities es).passed = true ↔ ¬ HasError es := by
  rw [Totals.passed, beq_iff_eq]
  exact errors_eq_zero_iff es

/-- There is no validation failure if no entity has an error. -/
theorem ValidationFailure.ofEntities?_eq_none_iff (es : List DiagnosticEntity) :
    ValidationFailure.ofEntities? es = none ↔ ¬ HasError es := by
  rw [← Totals.errors_eq_zero_iff, ofEntities?_eq]
  by_cases herrors : (Totals.ofEntities es).errors = 0 <;> simp [herrors]

/-! ## How an analysis ends -/

namespace Pipeline

/-- A build keeps the graph it gives, and no finding makes it fail. -/
theorem generate_cases (p : Pipeline) (t : FileTree) :
    (∃ g, (p.generate t).1 = .ok g ∧ (p.generate t).2.currentGraph = .ok g) ∨
      ∃ e, (p.generate t).1 = .error e ∧ e.isValidation = false := by
  cases hbuilt : (p.generate t).1 with
  | ok g =>
    obtain ⟨filter, -, -, hkept⟩ := exists_built hbuilt
    refine .inl ⟨g, rfl, ?_⟩
    rw [hkept]
    rfl
  | error e =>
    refine .inr ⟨e, rfl, ?_⟩
    rw [generate] at hbuilt
    cases hfilter : p.config.pathFilter with
    | error cause =>
      simp only [hfilter] at hbuilt
      cases hbuilt
      rfl
    | ok filter =>
      simp only [hfilter] at hbuilt
      rcases hbuild : (Snapshot.ofTree t p.root filter).buildGraph p.config p.cache with
        ⟨failure | g, cache⟩
      · simp only [hbuild] at hbuilt
        cases hbuilt
        rfl
      · simp [hbuild] at hbuilt

/-- A run fails as the build does. -/
theorem run_of_error {p : Pipeline} {t : FileTree} {e : PipelineError}
    (h : (p.generate t).1 = .error e) : (p.run t).1 = .error e := by
  rw [run]
  rcases hgenerate : p.generate t with ⟨e' | g, q⟩
  · rw [hgenerate] at h
    cases h
    rfl
  · simp [hgenerate] at h

/-- A run of a project that builds fails in validation if there is an error, and gives a catalog
otherwise. -/
theorem run_of_ok {p : Pipeline} {t : FileTree} {g : SymbolGraph}
    (h : (p.generate t).1 = .ok g) :
    (HasError g.validate → ∃ failure, (p.run t).1 = .error (.validation failure)) ∧
      (¬ HasError g.validate → ∃ catalog, (p.run t).1 = .ok catalog) := by
  obtain ⟨filter, -, -, hkept⟩ := exists_built h
  rw [run]
  rcases hgenerate : p.generate t with ⟨e | g', q⟩
  · simp [hgenerate] at h
  · rw [hgenerate] at h hkept
    cases h
    obtain rfl : q = _ := hkept
    constructor
    · intro herror
      cases hfailure : ValidationFailure.ofEntities? g.validate with
      | some failure => exact ⟨failure, by simp [hfailure]⟩
      | none => exact absurd herror ((ValidationFailure.ofEntities?_eq_none_iff _).1 hfailure)
    · intro hnone
      have hfailure := (ValidationFailure.ofEntities?_eq_none_iff _).2 hnone
      simp only [hfailure]
      exact ⟨_, rfl⟩

end Pipeline

namespace Command

variable {t : FileTree} {o : ProjectOptions} {p : Pipeline}

/-- The exit code that the state of a project calls for. -/
inductive Calls (built : Except PipelineError SymbolGraph) : Nat → Prop where
  | success {g : SymbolGraph} (hbuilt : built = .ok g) (h : ¬ HasError g.validate) : Calls built 0
  | errors {g : SymbolGraph} (hbuilt : built = .ok g) (h : HasError g.validate) : Calls built 1
  | failure {e : PipelineError} (hbuilt : built = .error e) : Calls built 2

/-- A failure that is not one of validation has the exit code 2. -/
theorem exitCode_ofError (tree : FileTree) {e : PipelineError} (hkind : e.isValidation = false) :
    (Outcome.ofError tree e).exitCode = 2 := by
  simp [Outcome.ofError, hkind]

/-- An analysis ends with the exit code that the build calls for, and keeps the cache of the
build. -/
theorem exists_runAnalyze (hopen : o.pipeline t = .ok p) :
    ∃ outcome, runAnalyze t o = .ok outcome ∧ Calls (p.generate t).1 outcome.exitCode ∧
      outcome.tree = o.keepCache t (p.generate t).2 := by
  have hrun : runAnalyze t o = .ok (.ofText (o.keepCache t (p.run t).2)
      ((p.run t).1.map fun c => c.toJson.pretty ++ "\n")) := by
    rw [runAnalyze, hopen]
    rfl
  refine ⟨_, hrun, ?_, ?_⟩
  · rcases p.generate_cases t with ⟨g, hbuilt, -⟩ | ⟨e, hbuilt, hkind⟩
    · obtain ⟨hfails, hgives⟩ := Pipeline.run_of_ok hbuilt
      by_cases herror : HasError g.validate
      · obtain ⟨failure, heq⟩ := hfails herror
        rw [heq]
        exact .errors hbuilt herror
      · obtain ⟨catalog, heq⟩ := hgives herror
        rw [heq]
        exact .success hbuilt herror
    · rw [Pipeline.run_of_error hbuilt]
      show Calls (p.generate t).1 (Outcome.ofError (o.keepCache t (p.run t).2) e).exitCode
      rw [exitCode_ofError _ hkind]
      exact .failure hbuilt
  · rw [Pipeline.run_snd]
    cases (p.run t).1 <;> rfl

/-- A validation ends with the exit code that the build calls for, and keeps the cache of the
build. -/
theorem exists_runValidate (hopen : o.pipeline t = .ok p) (colors : Bool) {format : String}
    (hformat : format = "pretty" ∨ format = "json") :
    ∃ outcome, runValidate t colors o format = .ok outcome ∧
      Calls (p.generate t).1 outcome.exitCode ∧
      outcome.tree = o.keepCache t (p.generate t).2 := by
  have hknown : (format != "pretty" && format != "json") = false := by
    rcases hformat with rfl | rfl <;> rfl
  have hopened : ∀ next : Pipeline → Except OpenError Outcome, (Except.ok p >>= next) = next p :=
    fun _ => rfl
  rcases p.generate_cases t with ⟨g, hbuilt, hgraph⟩ | ⟨e, hbuilt, hkind⟩
  · have hfindings : (p.generate t).1.bind (fun _ => (p.generate t).2.validate) =
        .ok g.validate := by
      rw [hbuilt, Pipeline.validate, hgraph]
      rfl
    refine ⟨{
      exitCode := if (Totals.ofEntities g.validate).passed then 0 else 1
      out :=
        if format = "json" then (Report.json o.path.text g.validate).pretty ++ "\n"
        else Report.text colors o.path.text (p.generate t).2.root g.validate
      tree := o.keepCache t (p.generate t).2 }, ?_, ?_, rfl⟩
    · rw [runValidate, hknown, hopen]
      simp only [Bool.false_eq_true, if_false]
      rw [hopened, hfindings]
      rfl
    · by_cases herror : HasError g.validate
      · have hpassed : (Totals.ofEntities g.validate).passed = false := by
          rw [← Bool.not_eq_true, Totals.passed_iff]
          simpa using herror
        simp only [hpassed]
        exact .errors hbuilt herror
      · simp only [(Totals.passed_iff _).2 herror]
        exact .success hbuilt herror
  · have hfails : (p.generate t).1.bind (fun _ => (p.generate t).2.validate) = .error e := by
      rw [hbuilt]
      rfl
    refine ⟨.ofError (o.keepCache t (p.generate t).2) e, ?_, ?_, rfl⟩
    · rw [runValidate, hknown, hopen]
      simp only [Bool.false_eq_true, if_false]
      rw [hopened, hfails]
      rfl
    · rw [exitCode_ofError _ hkind]
      exact .failure hbuilt

/-- A dump keeps the cache of the build. -/
theorem exists_runDump (hopen : o.pipeline t = .ok p) {format : String}
    (hformat : format = "text" ∨ format = "dot") :
    ∃ outcome, runDump t o format = .ok outcome ∧
      outcome.tree = o.keepCache t (p.generate t).2 := by
  have hknown : (format != "text" && format != "dot") = false := by
    rcases hformat with rfl | rfl <;> rfl
  have hrun : runDump t o format = .ok (.ofText (o.keepCache t (p.generate t).2)
      ((p.generate t).1.bind fun _ =>
        if format = "dot" then (p.generate t).2.dot else (p.generate t).2.outline)) := by
    rw [runDump, hknown, hopen]
    rfl
  refine ⟨_, hrun, ?_⟩
  cases (p.generate t).1.bind fun _ =>
    if format = "dot" then (p.generate t).2.dot else (p.generate t).2.outline <;> rfl

/-- A build calls for one exit code. -/
theorem Calls.unique {built : Except PipelineError SymbolGraph} {m n : Nat} (h : Calls built m)
    (h' : Calls built n) : m = n := by
  cases h with
  | success hbuilt hnone =>
    cases h' with
    | success _ _ => rfl
    | errors hbuilt' herror =>
      cases hbuilt.symm.trans hbuilt'
      exact absurd herror hnone
    | failure hbuilt' => cases hbuilt.symm.trans hbuilt'
  | errors hbuilt herror =>
    cases h' with
    | success hbuilt' hnone =>
      cases hbuilt.symm.trans hbuilt'
      exact absurd herror hnone
    | errors _ _ => rfl
    | failure hbuilt' => cases hbuilt.symm.trans hbuilt'
  | failure hbuilt =>
    cases h' with
    | success hbuilt' _ => cases hbuilt.symm.trans hbuilt'
    | errors hbuilt' _ => cases hbuilt.symm.trans hbuilt'
    | failure _ => rfl

/-- Once a project can be opened, `analyze`, `validate` and `dump` all end with an exit code. The
first two end with the same one: 0 if the graph can be built and no finding about it is an error, 1
if it can be built and some finding is an error, 2 if it cannot be built. All three leave the files
as they were, except for the cache, which holds what the build has left in it, however the command
ends. -/
theorem exitCodes_agree (hopen : o.pipeline t = .ok p) (colors : Bool)
    {format dumpFormat : String} (hformat : format = "pretty" ∨ format = "json")
    (hdump : dumpFormat = "text" ∨ dumpFormat = "dot") :
    ∃ analyzed validated dumped,
      run t colors (.analyze o) = .ok analyzed ∧
      run t colors (.validate o format) = .ok validated ∧
      run t colors (.dump o dumpFormat) = .ok dumped ∧
      analyzed.exitCode = validated.exitCode ∧
      (analyzed.exitCode = 0 ↔ ∃ g, (p.generate t).1 = .ok g ∧ ¬ HasError g.validate) ∧
      (analyzed.exitCode = 1 ↔ ∃ g, (p.generate t).1 = .ok g ∧ HasError g.validate) ∧
      (analyzed.exitCode = 2 ↔ ∀ g, (p.generate t).1 ≠ .ok g) ∧
      analyzed.tree = o.keepCache t (p.generate t).2 ∧
      validated.tree = analyzed.tree ∧ dumped.tree = analyzed.tree := by
  obtain ⟨analyzed, hanalyze, hcalls, htree⟩ := exists_runAnalyze hopen
  obtain ⟨validated, hvalidate, hcalls', htree'⟩ := exists_runValidate hopen colors hformat
  obtain ⟨dumped, hdumped, htree''⟩ := exists_runDump hopen hdump
  have hsame := hcalls.unique hcalls'
  refine ⟨analyzed, validated, dumped, hanalyze, hvalidate, hdumped, hsame, ?_, ?_, ?_, htree,
    htree'.trans htree.symm, htree''.trans htree.symm⟩
  · constructor
    · intro hcode
      rw [hcode] at hcalls
      cases hcalls with
      | success hbuilt hnone => exact ⟨_, hbuilt, hnone⟩
    · rintro ⟨g, hbuilt, hnone⟩
      exact hcalls.unique (.success hbuilt hnone)
  · constructor
    · intro hcode
      rw [hcode] at hcalls
      cases hcalls with
      | errors hbuilt herror => exact ⟨_, hbuilt, herror⟩
    · rintro ⟨g, hbuilt, herror⟩
      exact hcalls.unique (.errors hbuilt herror)
  · constructor
    · intro hcode
      rw [hcode] at hcalls
      cases hcalls with
      | failure hbuilt => simp [hbuilt]
    · intro hnone
      cases hbuilt : (p.generate t).1 with
      | ok g => exact absurd hbuilt (hnone g)
      | error e => exact hcalls.unique (.failure hbuilt)

/-- The options open a pipeline over the project. -/
theorem pipeline_smallProject :
    ProjectOptions.pipeline { cache := some ⟨"/p/cache.json"⟩ } smallProject =
      .ok { root := ⟨"/p"⟩ } := by
  have hroot : smallProject.absolutePath ⟨"."⟩ = .ok ⟨"/p"⟩ := by decide +kernel
  have hdirectory : smallProject.isDirectory ⟨"/p"⟩ = true := by decide +kernel
  have hconfig : Config.load smallProject ⟨"/p"⟩ none = .ok {} := by decide +kernel
  have hcache : MetadataCache.load smallProject ⟨"/p/cache.json"⟩ = {} := by decide +kernel
  rw [ProjectOptions.pipeline, hroot]
  simp only [Except.mapError, bind, Except.bind, hdirectory, hconfig, Option.map_some, hcache]
  rfl

/-- The small project can be opened with a cache that is not there yet, and the commands succeed. -/
theorem exitCodes_agree_smallProject :
    ∃ analyzed validated dumped,
      run smallProject false (.analyze { cache := some ⟨"/p/cache.json"⟩ }) = .ok analyzed ∧
      run smallProject false (.validate { cache := some ⟨"/p/cache.json"⟩ } "json") =
        .ok validated ∧
      run smallProject false (.dump { cache := some ⟨"/p/cache.json"⟩ } "dot") = .ok dumped ∧
      analyzed.exitCode = 0 ∧ validated.exitCode = 0 ∧
      validated.tree = analyzed.tree ∧ dumped.tree = analyzed.tree := by
  obtain ⟨analyzed, validated, dumped, hanalyze, hvalidate, hdump, hsame, hzero, -, -, -, htree,
    htree'⟩ := exitCodes_agree pipeline_smallProject false
      (.inr rfl : "json" = "pretty" ∨ "json" = "json") (.inr rfl : "dot" = "text" ∨ "dot" = "dot")
  obtain ⟨catalog, hrun, -⟩ := exists_catalog_smallProject
  have hclean : ∃ g, (Pipeline.generate { root := ⟨"/p"⟩ } smallProject).1 = .ok g ∧
      ¬ HasError g.validate := by
    rcases Pipeline.generate_cases { root := ⟨"/p"⟩ } smallProject with
      ⟨g, hbuilt, -⟩ | ⟨e, hbuilt, -⟩
    · refine ⟨g, hbuilt, fun herror => ?_⟩
      obtain ⟨failure, hfailed⟩ := (Pipeline.run_of_ok hbuilt).1 herror
      cases hfailed.symm.trans hrun
    · cases (Pipeline.run_of_error hbuilt).symm.trans hrun
  have hcode : analyzed.exitCode = 0 := hzero.2 hclean
  exact ⟨analyzed, validated, dumped, hanalyze, hvalidate, hdump, hcode, hsame ▸ hcode, htree,
    htree'⟩

end Command

end RouteAtlas
