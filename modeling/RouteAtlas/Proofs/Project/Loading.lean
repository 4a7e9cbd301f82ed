import RouteAtlas.Project.Context
import RouteAtlas.Project.Snapshot
import RouteAtlas.Proofs.Outcome
import RouteAtlas.Proofs.Project.Directories

/-!
# Loading packages

A context and a snapshot load a package in one way (`ModuleRoot.load`); they differ in how they read
its files, and a context remembers. So why a package cannot be loaded is told in one of a few ways,
and never by saying that it is not inside of the module: packages outside are refused before.
-/

set_option autoImplicit false

namespace RouteAtlas

namespace ModuleRoot

/-- The package with an import path, when its files are read in some way. -/
def load (r : ModuleRoot) (t : FileTree) (importPath : String)
    (read : List PathName → List (Except Failure SourceFile)) : Except Failure Package :=
  match r.refusal? importPath with
  | some e => .error e
  | none => do
    let (dir, paths) ← r.packagePaths t importPath
    let files ← (read paths).mapM fun result =>
      match result with
      | .ok f => .ok f
      | .error e => .error (.packageLoad importPath e.message)
    packageOf importPath dir files

end ModuleRoot

namespace AnalysisContext

variable {α β : Type}

/-- What an action gives in a context. -/
def answer (x : Action α) (c : AnalysisContext) : Except Failure α :=
  (StateT.run (ExceptT.run x) c).1

/-- Looking at the context changes nothing about an answer. -/
theorem answer_get_bind (f : AnalysisContext → Action α) (c : AnalysisContext) :
    answer (get >>= f) c = answer (f c) c := rfl

/-- A step that cannot fail passes its result and the context on. -/
theorem answer_lift_bind (x : StateM AnalysisContext α) (f : α → Action β) (c : AnalysisContext) :
    answer (liftM x >>= f) c = answer (f (x.run c).1) (x.run c).2 := rfl

/-- A step that needs no context fails or passes its result on. -/
theorem answer_ofExcept_bind (r : Except Failure α) (f : α → Action β) (c : AnalysisContext) :
    answer (liftM r >>= f) c = r >>= fun a => answer (f a) c := by
  cases r <;> rfl

/-- Results that are taken over one by one are taken over as a whole. -/
theorem answer_mapM_bind {γ : Type} {f : α → Action β} {g : α → Except Failure β}
    (hf : ∀ a, f a = liftM (g a)) (l : List α) (k : List β → Action γ) (c : AnalysisContext) :
    answer (l.mapM f >>= k) c = l.mapM g >>= fun bs => answer (k bs) c := by
  have hlift : l.mapM f = (liftM (l.mapM g) : Action (List β)) := by
    induction l with
    | nil => rfl
    | cons a l ih =>
      rw [List.mapM_cons, List.mapM_cons, hf, ih]
      cases g a with
      | error e => rfl
      | ok b => cases l.mapM g <;> rfl
  rw [hlift, answer_ofExcept_bind]

/-- A package is given from memory, or else loaded. -/
theorem answer_package (t : FileTree) (c : AnalysisContext) (importPath : String) :
    answer (package t importPath) c =
      match c.packages.find? (·.importPath == importPath) with
      | some p => .ok p
      | none => c.base.load t importPath fun paths => (StateT.run (analyzeFiles t paths) c).1 := by
  rw [package, answer_get_bind]
  cases c.packages.find? (·.importPath == importPath) with
  | some p => rfl
  | none =>
    simp only [ModuleRoot.load]
    cases c.base.refusal? importPath with
    | some e => rfl
    | none =>
      simp only [answer_ofExcept_bind, answer_lift_bind]
      refine bind_congr fun place => ?_
      rw [answer_mapM_bind (g := fun result => match result with
        | .ok f => .ok f
        | .error e => .error (.packageLoad importPath e.message))]
      · refine bind_congr fun files => ?_
        rw [answer_ofExcept_bind]
        cases ModuleRoot.packageOf importPath place.1 files <;> rfl
      · intro result
        cases result <;> rfl

end AnalysisContext

/-- A snapshot loads a package from its own files. -/
theorem Snapshot.package_eq_load (s : Snapshot) (importPath : String) :
    s.package importPath = s.base.load s.tree importPath fun paths => paths.map s.file := by
  simp only [package, ModuleRoot.load, List.mapM_map]
  rfl

/-! ## Why a package is not loaded -/

/-- The reasons for not loading a package. -/
inductive LoadReason : String → Prop
  | standard : LoadReason "standard library packages are not loaded"
  | external (path : String) : LoadReason ("outside module '" ++ path ++ "'")
  | directory (dir : PathName) (reason : String) :
      LoadReason ("cannot read " ++ dir.text ++ ": " ++ reason)
  | noSources (dir : PathName) : LoadReason ("no Go files in " ++ dir.text)
  | file (p : PathName) (reason : String) :
      LoadReason ("failed to read " ++ p.text ++ ": " ++ reason)
  | severalNames (names : List String) :
      LoadReason ("found multiple packages: " ++ Text.join ", " names)

/-- No reason is that the package is not inside of the module. -/
theorem LoadReason.ne_notInside {reason : String} (h : LoadReason reason) (path : String) :
    reason ≠ "not inside module '" ++ path ++ "'" := by
  -- The first three characters tell the reasons apart from that one.
  have hlead : ∃ lead rest, reason = lead ++ rest ∧ 3 ≤ lead.toList.length ∧
      lead.toList.take 3 ≠ ['n', 'o', 't'] := by
    cases h with
    | standard => exact ⟨_, "", String.append_empty.symm, by decide, by decide⟩
    | external path => exact ⟨_, _, String.append_assoc, by decide, by decide⟩
    | directory dir reason =>
      exact ⟨"cannot read ", dir.text ++ ": " ++ reason, by simp only [String.append_assoc],
        by decide, by decide⟩
    | noSources dir => exact ⟨_, _, rfl, by decide, by decide⟩
    | file p reason =>
      exact ⟨"failed to read ", p.text ++ ": " ++ reason, by simp only [String.append_assoc],
        by decide, by decide⟩
    | severalNames names => exact ⟨_, _, rfl, by decide, by decide⟩
  obtain ⟨lead, rest, rfl, hlength, hne⟩ := hlead
  intro heq
  have htake := congrArg (fun s : String => s.toList.take 3) heq
  simp only [String.append_assoc, String.toList_append] at htake
  rw [List.take_append_of_le_length hlength, List.take_append_of_le_length (by decide)] at htake
  exact hne htake

/-- Reading that fails only because files cannot be read. -/
def FailsUnreadably (results : List (Except Failure SourceFile)) : Prop :=
  ∀ result ∈ results, ∀ e, result = .error e → ∃ p reason, e = .unreadable p reason

namespace ModuleRoot

variable {r : ModuleRoot} {t : FileTree} {importPath : String} {failure : Failure}

/-- A package is refused for a reason that names its path. -/
theorem exists_of_refusal? (h : r.refusal? importPath = some failure) :
    ∃ reason, failure = .packageLoad importPath reason ∧ LoadReason reason := by
  unfold refusal? at h
  split at h
  · cases h
  · exact ⟨_, (Option.some.inj h).symm, .standard⟩
  · exact ⟨_, (Option.some.inj h).symm, .external _⟩

/-- A path that is not refused has a directory. -/
theorem isSome_dirFor?_of_refusal? (h : r.refusal? importPath = none) :
    (r.dirFor? importPath).isSome = true := by
  rw [isSome_dirFor?_iff]
  unfold refusal? at h
  split at h
  · assumption
  · cases h
  · cases h

/-- The files of a package in the module cannot be listed for a reason that names its path. -/
theorem exists_of_packagePaths (hdir : (r.dirFor? importPath).isSome = true)
    (h : r.packagePaths t importPath = .error failure) :
    ∃ reason, failure = .packageLoad importPath reason ∧ LoadReason reason := by
  unfold packagePaths at h
  split at h
  · rename_i hnone
    rw [hnone] at hdir
    cases hdir
  · split at h
    · exact ⟨_, (Except.error.inj h).symm, .directory _ _⟩
    · dsimp only at h
      split at h
      · exact ⟨_, (Except.error.inj h).symm, .noSources _⟩
      · cases h

/-- Files make no package for a reason that names its path. -/
theorem exists_of_packageOf {dir : PathName} {files : List SourceFile}
    (h : packageOf importPath dir files = .error failure) :
    ∃ reason, failure = .packageLoad importPath reason ∧ LoadReason reason := by
  unfold packageOf at h
  split at h
  · cases h
  · exact ⟨_, (Except.error.inj h).symm, .severalNames _⟩

/-- A package is not loaded for one of the reasons. -/
theorem exists_of_load {read : List PathName → List (Except Failure SourceFile)}
    (hread : ∀ paths, FailsUnreadably (read paths))
    (h : r.load t importPath read = .error failure) :
    ∃ reason, failure = .packageLoad importPath reason ∧ LoadReason reason := by
  unfold load at h
  cases hrefusal : r.refusal? importPath with
  | some e =>
    rw [hrefusal] at h
    exact exists_of_refusal? (hrefusal.trans (congrArg some (Except.error.inj h)))
  | none =>
    simp only [hrefusal] at h
    rcases bind_eq_error h with hpaths | ⟨⟨dir, paths⟩, -, h⟩
    · exact exists_of_packagePaths (isSome_dirFor?_of_refusal? hrefusal) hpaths
    · rcases bind_eq_error h with hfiles | ⟨files, -, h⟩
      · obtain ⟨result, hresult, hfile⟩ := exists_of_mapM_eq_error hfiles
        cases result with
        | ok f => cases hfile
        | error e =>
          obtain ⟨p, reason, rfl⟩ := hread paths _ hresult e rfl
          exact ⟨_, (Except.error.inj hfile).symm, .file p reason⟩
      · exact exists_of_packageOf h

/-- A package that is loaded is never turned away as outside of the module. -/
theorem load_ne_notInside {read : List PathName → List (Except Failure SourceFile)}
    (hread : ∀ paths, FailsUnreadably (read paths)) {path : String} :
    r.load t importPath read ≠
      .error (.packageLoad importPath ("not inside module '" ++ path ++ "'")) := by
  intro h
  obtain ⟨reason, heq, hreason⟩ := exists_of_load hread h
  exact hreason.ne_notInside path (Failure.packageLoad.inj heq).2.symm

end ModuleRoot

/-- A file is given from memory, or else read. -/
theorem AnalysisContext.exists_of_analyzeFile {t : FileTree} {p : PathName} {c : AnalysisContext}
    {failure : Failure} (h : answer (analyzeFile t p) c = .error failure) :
    ∃ reason, failure = .unreadable p reason := by
  rw [analyzeFile, answer_get_bind] at h
  cases hremembered : c.files.find? fun f => f.path.same p with
  | some f =>
    rw [hremembered] at h
    cases h
  | none =>
    rw [hremembered] at h
    unfold ModuleRoot.readSource at h
    cases hfile : t.fileAt p with
    | ok contents =>
      rw [hfile] at h
      cases h
    | error e =>
      rw [hfile] at h
      exact ⟨e.message, (Except.error.inj h).symm⟩

/-- Reading files in a context fails only where one cannot be read. -/
theorem AnalysisContext.failsUnreadably_analyzeFiles (t : FileTree) (paths : List PathName)
    (c : AnalysisContext) : FailsUnreadably (StateT.run (analyzeFiles t paths) c).1 := by
  induction paths generalizing c with
  | nil =>
    intro result hresult
    cases hresult
  | cons p rest ih =>
    have hsplit : (StateT.run (analyzeFiles t (p :: rest)) c).1 =
        answer (analyzeFile t p) c ::
          (StateT.run (analyzeFiles t rest) (StateT.run (analyzeFile t p).run c).2).1 := by
      rw [analyzeFiles, List.mapM_cons]
      rfl
    rw [hsplit]
    intro result hresult
    rcases List.mem_cons.1 hresult with rfl | hresult
    · intro e he
      exact ⟨p, exists_of_analyzeFile he⟩
    · exact ih _ result hresult

/-- Taking files from a snapshot fails only where one cannot be read. -/
theorem Snapshot.failsUnreadably_file (s : Snapshot) (paths : List PathName) :
    FailsUnreadably (paths.map s.file) := by
  intro result hresult e he
  obtain ⟨p, -, rfl⟩ := List.mem_map.1 hresult
  unfold file at he
  split at he
  · cases he
  · unfold readFrom at he
    split at he
    · exact ⟨_, _, (Except.error.inj he).symm⟩
    · split at he <;> cases he

/-! ## The theorem -/

namespace ModuleRoot

/-- Import paths and directories of a module correspond. The import path of the directory that some
names lead to is the name of the module with each of them behind a slash, the directory of this path
is that directory again, and different names give different paths. The import paths that lead into
the module are those that have a directory: the name of the module, alone or before a slash, and no
other path that begins with it. So neither a context nor a snapshot fails to load a package because
it is not inside of the module. -/
theorem importPaths_correspond (r : ModuleRoot) :
    (∀ way : List DirName,
      r.importPathFor (r.directory way) = r.path ++ String.join (way.map ("/" ++ ·.text)) ∧
      r.dirFor? (r.importPathFor (r.directory way)) = some (r.directory way)) ∧
    (Function.Injective fun way => r.importPathFor (r.directory way)) ∧
    (∀ importPath, r.origin importPath = .sameModule ↔ (r.dirFor? importPath).isSome = true) ∧
    (∀ rest, r.origin (r.path ++ rest) = .sameModule ↔
      rest = "" ∨ ∃ below, rest = "/" ++ below) ∧
    (∀ (t : FileTree) (c : AnalysisContext) (importPath path : String),
      (StateT.run (AnalysisContext.package t importPath).run c).1 ≠
        .error (.packageLoad importPath ("not inside module '" ++ path ++ "'"))) ∧
    ∀ (s : Snapshot) (importPath path : String),
      s.package importPath ≠
        .error (.packageLoad importPath ("not inside module '" ++ path ++ "'")) := by
  refine ⟨fun way => ⟨r.importPathFor_directory way, r.dirFor?_importPathFor way⟩,
    r.importPathFor_injective, fun importPath => (r.isSome_dirFor?_iff importPath).symm, ?_, ?_, ?_⟩
  · intro rest
    rw [origin_eq_sameModule_iff]
    simp
  · intro t c importPath path
    show AnalysisContext.answer (AnalysisContext.package t importPath) c ≠ _
    rw [AnalysisContext.answer_package]
    split
    · simp
    · exact load_ne_notInside fun paths => AnalysisContext.failsUnreadably_analyzeFiles t paths c
  · intro s importPath path
    rw [Snapshot.package_eq_load]
    exact load_ne_notInside s.failsUnreadably_file

/-- A module whose name goes on with other characters than a slash is another one. -/
example : let r : ModuleRoot := ⟨⟨"/p"⟩, "app"⟩
    r.dirFor? "app/models" = some ⟨"/p/models"⟩ ∧ r.origin "app2/models" = .standard := by
  decide +kernel

end ModuleRoot

end RouteAtlas
