import RouteAtlas.Proofs.Files.Written
import RouteAtlas.Proofs.Project.Declared
import RouteAtlas.Proofs.Sorting
import RouteAtlas.Proofs.Text.Pieces

/-!
# The files of a snapshot

A snapshot reads the source files of a tree once, and takes them from there under whatever path
they are asked for. This gives the same as reading them at that path (`readFrom_eq`). So a package
is a function of the contents of its files, and every file of a package declares what one of the
files read at first declares.
-/

set_option autoImplicit false

namespace RouteAtlas

namespace SourceFile

/-- What a file declares does not depend on its path. -/
theorem read_path (p q : PathName) (bytes : ByteArray) :
    { read q bytes with path := p } = read p bytes := by
  have hfold : ∀ (decls : List (Source.TopLevel × Span × DocComment)) (f : SourceFile),
      { decls.foldl add f with path := p } = decls.foldl add { f with path := p } := by
    intro decls
    induction decls with
    | nil => exact fun _ => rfl
    | cons decl decls ih =>
      intro f
      have hadd : add { f with path := p } decl = { add f decl with path := p } := by
        obtain ⟨content, span, doc⟩ := decl
        cases content with
        | package name =>
          simp only [add]
          split <;> rfl
        | method m => cases m <;> rfl
        | _ => rfl
      rw [List.foldl_cons, List.foldl_cons, hadd]
      exact ih (add f decl)
  exact hfold _ _

end SourceFile

/-- A path behind another ends with it, and a separator stands before it. -/
theorem PathName.exists_text_join (p : PathName) (q : String) :
    ∃ before, (p.join q).text.toList = before ++ q.toList ∧
      (before = [] ∨ ∃ before', before = before' ++ ['/']) := by
  unfold PathName.join
  split
  · exact ⟨[], by simp, .inl rfl⟩
  · split
    · rename_i h
      refine ⟨p.text.toList, by simp, ?_⟩
      rcases Bool.or_eq_true_iff.1 h with h | h
      · exact .inl (by simpa using h)
      · obtain ⟨before', hbefore⟩ := (Text.endsIn_iff "/" p.text).1 h
        exact .inr ⟨before', hbefore.symm⟩
    · exact ⟨p.text.toList ++ ['/'], by simp, .inr ⟨_, rfl⟩⟩

/-- Whether a path is that of a source file can be told from the last name in it. -/
theorem ModuleRoot.isSourceName_eq {path last : String} {before : List Char}
    (h : path.toList = before ++ last.toList)
    (hbefore : before = [] ∨ ∃ before', before = before' ++ ['/']) :
    isSourceName path = isSourceName last := by
  have hends : ∀ tail : String, '/' ∉ tail.toList →
      Text.endsIn tail path = Text.endsIn tail last := by
    intro tail htail
    rw [Bool.eq_iff_iff, Text.endsIn_iff, Text.endsIn_iff, h, ← Text.suffix_last_iff htail hbefore]
  rw [isSourceName, isSourceName, hends ".go" (by decide), hends "_test.go" (by decide)]

namespace FileTree

variable (t : FileTree)

/-- A source file of a tree was read from a file with the name of one. -/
theorem of_mem_sources {x : Location × SourceFile} (h : x ∈ t.sources) :
    ∃ name, x.1.getLast? = some name ∧ ModuleRoot.isSourceName name = true := by
  obtain ⟨⟨l, e⟩, -, hx⟩ := List.mem_filterMap.1 h
  cases hname : l.getLast? with
  | none => simp [hname] at hx
  | some name =>
    cases e with
    | directory => simp [hname] at hx
    | file contents modified =>
      by_cases hsource : ModuleRoot.isSourceName name = true
      · simp only [hname, hsource, if_true, Option.some.injEq] at hx
        subst hx
        exact ⟨name, hname, hsource⟩
      · simp [hname, hsource] at hx

/-- The source file at a place is found among those of the tree. -/
theorem find?_sources {l : Location} {name : String} {contents : ByteArray} {modified : Int}
    (hname : l.getLast? = some name) (hsource : ModuleRoot.isSourceName name = true)
    (h : t.entries.find? (·.1 == l) = some (l, .file contents modified)) :
    t.sources.find? (·.1 == l) =
      some (l, ModuleRoot.sourceOf (.ofLocation l) contents modified) := by
  unfold sources
  generalize t.entries = entries at h
  induction entries with
  | nil => simp at h
  | cons x rest ih =>
    obtain ⟨l', e⟩ := x
    by_cases hl : l' = l
    · subst hl
      simp only [List.find?_cons, beq_self_eq_true, Option.some.injEq, Prod.mk.injEq,
        true_and] at h
      subst h
      simp [hname, hsource]
    · rw [List.find?_cons_of_neg (by simpa using hl)] at h
      rw [List.filterMap_cons]
      split
      · exact ih h
      · rename_i y hy
        have hplace : y.1 = l' := by
          cases hname' : l'.getLast? with
          | none => simp [hname'] at hy
          | some name' =>
            cases e with
            | directory => simp [hname'] at hy
            | file contents' modified' =>
              simp only [hname', Option.ite_none_right_eq_some, Option.some.injEq] at hy
              rw [← hy.2]
        rw [List.find?_cons_of_neg (by simpa [hplace] using hl)]
        exact ih h

/-- A path to a source file in a directory leads to a place with the name of one. -/
theorem exists_name_of_locate {dir : PathName} {name : String} {l : Location}
    (hname : ModuleRoot.isSourceName name = true) (hl : t.locate (dir.join name) = .ok l) :
    ∃ last, l.getLast? = some last ∧ ModuleRoot.isSourceName last = true := by
  obtain ⟨front, hfront, hsep⟩ := dir.exists_text_join name
  obtain ⟨init, last, before, hsplit, htext, hbefore⟩ :=
    Text.exists_append_last '/' (dir.join name).text.toList
  have hsource : ModuleRoot.isSourceName (String.ofList last) = true := by
    have hlast : (dir.join name).text.toList = before ++ (String.ofList last).toList := by
      rw [String.toList_ofList, ← htext]
    rw [← ModuleRoot.isSourceName_eq hlast hbefore, ModuleRoot.isSourceName_eq hfront hsep]
    exact hname
  refine ⟨String.ofList last, ?_, hsource⟩
  have hspecial : ∀ piece : String, Text.endsIn ".go" piece = false →
      String.ofList last ≠ piece := by
    rintro piece hpiece rfl
    simp [ModuleRoot.isSourceName, hpiece] at hsource
  unfold locate at hl
  split at hl
  · cases hl
  · rw [Text.splitOn, hsplit, List.map_append, List.foldlM_append] at hl
    obtain ⟨here, -, hl⟩ := bind_eq_ok hl
    obtain ⟨l', henter, hl⟩ := bind_eq_ok hl
    cases hl
    unfold enter at henter
    cases he : t.entry? here with
    | none => simp [he] at henter
    | some e =>
      cases e with
      | file contents modified => simp [he] at henter
      | directory =>
        simp only [he, hspecial "" (by decide), hspecial "." (by decide),
          hspecial ".." (by decide), decide_false, Bool.or_self, Bool.false_eq_true,
          if_false] at henter
        cases henter
        simp

/-- A file at a path stands at the place of the path. -/
theorem exists_place_of_fileAt {p : PathName} {contents : ByteArray} {modified : Int}
    (h : t.fileAt p = .ok (contents, modified)) :
    ∃ l, t.locate p = .ok l ∧
      t.entries.find? (·.1 == l) = some (l, .file contents modified) := by
  obtain ⟨l, hl, hentry⟩ := fileAt_eq_ok_iff.1 h
  refine ⟨l, hl, ?_⟩
  unfold entry? at hentry
  split at hentry
  · cases hentry
  · obtain ⟨⟨l', e⟩, hfind, rfl⟩ := Option.map_eq_some_iff.1 hentry
    have hl' : l' = l := by simpa using List.find?_some hfind
    rw [hfind, hl']

/-- A source file that is read from a tree: under some path, from one of the source files in it. -/
def Reads (f : SourceFile) : Prop :=
  ∃ p contents modified l, t.fileAt p = .ok (contents, modified) ∧
    f = ModuleRoot.sourceOf p contents modified ∧
    (l, ModuleRoot.sourceOf (.ofLocation l) contents modified) ∈ t.sources

/-- What is read at a path to a source file in a directory is a source file of the tree. -/
theorem reads_of_readSource {dir : PathName} {name : String} {f : SourceFile}
    (hname : ModuleRoot.isSourceName name = true)
    (h : ModuleRoot.readSource t (dir.join name) = .ok f) : t.Reads f := by
  unfold ModuleRoot.readSource at h
  split at h
  · cases h
  · rename_i contents modified hat
    cases h
    obtain ⟨l, hl, hentry⟩ := t.exists_place_of_fileAt hat
    obtain ⟨last, hlast, hsource⟩ := t.exists_name_of_locate hname hl
    exact ⟨_, contents, modified, l, hat, rfl,
      List.mem_of_find?_eq_some (t.find?_sources hlast hsource hentry)⟩

end FileTree

/-- The way to a source file of a module ends with the name of one. -/
theorem ModuleRoot.exists_name_of_sourceWay? {rootPlace place way : Location} {e : FileEntry}
    (h : sourceWay? rootPlace place e = some way) :
    ∃ name, way.getLast? = some name ∧ isSourceName name = true := by
  simp only [sourceWay?, Option.bind_eq_bind, Option.bind_eq_some_iff] at h
  obtain ⟨way', -, name, hlast, h⟩ := h
  split at h
  · rename_i hcond
    cases h
    simp only [Bool.and_eq_true] at hcond
    exact ⟨name, hlast, hcond.1.2⟩
  · cases h

namespace Snapshot

/-- A file that was read at its place and then asked for at a path. -/
theorem renamed_sourceOf (q p : PathName) (contents : ByteArray) (modified : Int) :
    renamed (ModuleRoot.sourceOf q contents modified) p =
      ModuleRoot.sourceOf p contents modified := by
  have hread := SourceFile.read_path p q contents
  rw [renamed, ModuleRoot.sourceOf, ModuleRoot.sourceOf, ← hread]
  rfl

/-- Files that are taken from those read at first are as if they were read at their paths. -/
theorem readFrom_eq (t : FileTree) (p : PathName) :
    readFrom t t.sources p = ModuleRoot.readSource t p := by
  unfold readFrom ModuleRoot.readSource
  cases hfile : t.fileAt p with
  | error e => rfl
  | ok x =>
    obtain ⟨contents, modified⟩ := x
    obtain ⟨l, hl, hentry⟩ := t.exists_place_of_fileAt hfile
    simp only [hl, Except.toOption, Option.bind_some]
    cases hfind : t.sources.find? (·.1 == l) with
    | none => rfl
    | some y =>
      have hy : y.1 = l := by simpa using List.find?_some hfind
      obtain ⟨name, hname, hsource⟩ := t.of_mem_sources (List.mem_of_find?_eq_some hfind)
      rw [t.find?_sources (hy ▸ hname) hsource hentry] at hfind
      obtain rfl : _ = y := by simpa using hfind
      simp only [renamed_sourceOf]

/-- The paths of the files of a package. -/
theorem exists_name_of_packagePaths {r : ModuleRoot} {t : FileTree} {importPath : String}
    {x : PathName × List PathName} (h : r.packagePaths t importPath = .ok x) {p : PathName}
    (hp : p ∈ x.2) :
    ∃ (dir : PathName) (name : String),
      ModuleRoot.isSourceName name = true ∧ p = dir.join name := by
  unfold ModuleRoot.packagePaths at h
  cases hdir : r.dirFor? importPath with
  | none => simp [hdir] at h
  | some dir =>
    simp only [hdir] at h
    cases hnames : t.directoryAt dir with
    | error e => simp [hnames] at h
    | ok names =>
      simp only [hnames] at h
      split at h
      · cases h
      · cases h
        rw [Sorting.mem_sorted, List.mem_map] at hp
        obtain ⟨⟨name, e⟩, hmem, rfl⟩ := hp
        have hsource := (List.mem_filter.1 hmem).2
        simp only [Bool.and_eq_true] at hsource
        exact ⟨dir, name, hsource.2, rfl⟩

variable {s : Snapshot} {importPath : String} {package : Package}

/-- A package is known by its import path, and its files are those at some paths. -/
theorem of_package_eq_ok (h : s.package importPath = .ok package) :
    package.importPath = importPath ∧ ∀ f ∈ package.files,
      ∃ (dir : PathName) (name : String), ModuleRoot.isSourceName name = true ∧
        s.file (dir.join name) = .ok f := by
  unfold Snapshot.package at h
  split at h
  · cases h
  · cases hpaths : s.base.packagePaths s.tree importPath with
    | error e =>
      rw [hpaths] at h
      cases h
    | ok x =>
      rw [hpaths] at h
      simp only [bind, Except.bind] at h
      split at h
      · cases h
      · rename_i files hfiles
        unfold ModuleRoot.packageOf at h
        split at h
        · cases h
          refine ⟨rfl, fun f hf => ?_⟩
          obtain ⟨p, hp, hfile⟩ := exists_of_mem_mapM hfiles hf
          obtain ⟨dir, name, hname, rfl⟩ := exists_name_of_packagePaths hpaths hp
          refine ⟨dir, name, hname, ?_⟩
          cases hread : s.file (dir.join name) with
          | error e => simp [hread] at hfile
          | ok f' =>
            simp only [hread] at hfile
            cases hfile
            rfl
        · cases h

/-- The packages of a snapshot know their import paths. -/
theorem lawful_source (s : Snapshot) : s.source.Lawful := by
  intro path package h
  exact (of_package_eq_ok (s := s) h).1

/-- A file of a package is one of those the analysis starts from, or it is read from the tree. -/
theorem of_mem_files (h : s.package importPath = .ok package) {f : SourceFile}
    (hf : f ∈ package.files) : f ∈ s.files ∨ s.tree.Reads f := by
  obtain ⟨dir, name, hname, hfile⟩ := (of_package_eq_ok h).2 f hf
  unfold Snapshot.file at hfile
  split at hfile
  · rename_i f' hfind
    cases hfile
    exact .inl (List.mem_of_find?_eq_some hfind)
  · rw [s.sources_eq, readFrom_eq] at hfile
    exact .inr (s.tree.reads_of_readSource hname hfile)

/-- The files that the analysis of a module starts from are read from the tree. -/
theorem reads_of_mem_files_ofTree {t : FileTree} {root : PathName} {filter : PathFilter}
    {f : SourceFile} (hf : f ∈ (ofTree t root filter).files) : t.Reads f := by
  obtain ⟨p, hp, hread⟩ := List.mem_filterMap.1 hf
  have hread' : ModuleRoot.readSource t p = .ok f := by
    rw [readFrom_eq] at hread
    cases hx : ModuleRoot.readSource t p with
    | error e => simp [hx, Except.toOption] at hread
    | ok f' => simpa [hx, Except.toOption] using hread
  unfold ModuleRoot.collectFiles at hp
  split at hp
  · simp at hp
  · split at hp
    · simp only [Sorting.mem_sorted, List.mem_map, List.mem_filter] at hp
      obtain ⟨_, ⟨⟨way, hway, rfl⟩, -⟩, rfl⟩ := hp
      obtain ⟨⟨l, e⟩, -, hway⟩ := List.mem_filterMap.1 hway
      obtain ⟨name, hlast, hname⟩ := ModuleRoot.exists_name_of_sourceWay? hway
      obtain ⟨before, hjoin, hbefore⟩ := Text.exists_join_last hlast
      refine t.reads_of_readSource ?_ hread'
      rw [ModuleRoot.isSourceName_eq hjoin hbefore]
      exact hname
    · simp at hp

/-- Every file of a package is read from the tree. -/
theorem reads_of_mem_files {t : FileTree} {root : PathName} {filter : PathFilter}
    (h : (ofTree t root filter).package importPath = .ok package) {f : SourceFile}
    (hf : f ∈ package.files) : t.Reads f := by
  rcases of_mem_files h hf with hf | hf
  · exact reads_of_mem_files_ofTree hf
  · exact hf

end Snapshot

end RouteAtlas
