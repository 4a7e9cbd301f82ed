import RouteAtlas.Project.Module
import RouteAtlas.Proofs.Text.Pieces

/-!
# Directories and import paths

A directory below the root of a module is the root joined with the names on the way to it. The
path that its package is imported by is the name of the module followed by the same names. The way
can be read off either of the two, because joining a name adds one component to a path, whatever the
path is (`PathName.components_join`), and cutting at the slashes gives the names back
(`Text.splitOn_join`).
-/

set_option autoImplicit false

namespace RouteAtlas

/-- The name of a directory, as it stands between the slashes of a path. -/
structure DirName where
  text : String
  nonempty : text ≠ ""
  noSlash : '/' ∉ text.toList
  notCurrent : text ≠ "."
  notParent : text ≠ ".."

namespace DirName

/-- A name of a directory is known by its text. -/
theorem text_injective : Function.Injective text := by
  rintro ⟨a, _, _, _, _⟩ ⟨b, _, _, _, _⟩ h
  simpa using h

/-- A name of a directory is one piece of a path. -/
theorem splitOn_text (s : DirName) : Text.splitOn s.text '/' = [s.text] := by
  rw [Text.splitOn, Text.splitChars_of_notMem s.noSlash, List.map_singleton, String.ofList_toList]

/-- A name of a directory is an ordinary component of a path. -/
theorem component?_text (s : DirName) : PathName.component? s.text = some (.normal s.text) := by
  simp [PathName.component?, s.nonempty, s.notCurrent, s.notParent]

/-- A name of a directory is no absolute path. -/
theorem not_absolute (s : DirName) : Text.beginsWith "/" s.text = false := by
  rw [Text.beginsWith, Bool.eq_false_iff, Ne, Text.isSome_afterLead?]
  intro hlead
  exact s.noSlash (hlead.subset (List.mem_singleton_self '/'))

end DirName

namespace Text

/-- A slash cuts a text into what it would be cut into before and behind the slash. -/
theorem splitOn_append_slash (front back : List Char) :
    splitOn (String.ofList (front ++ '/' :: back)) '/' =
      splitOn (String.ofList front) '/' ++ splitOn (String.ofList back) '/' := by
  simp only [splitOn, String.toList_ofList, splitChars_append_cons, List.map_append]

/-- A text is cut into one piece at least. -/
theorem splitOn_ne_nil (s : String) (sep : Char) : splitOn s sep ≠ [] := by
  rw [splitOn, Ne, List.map_eq_nil_iff]
  exact splitChars_ne_nil _ _

/-- Only the empty text is cut into one empty piece. -/
theorem eq_empty_of_splitOn {s : String} {sep : Char} (h : splitOn s sep = [""]) : s = "" := by
  have hpieces : splitChars (· == sep) s.toList = [[]] := by
    obtain ⟨piece, hpieces, hpiece⟩ := List.map_eq_singleton_iff.1 h
    rw [hpieces, String.ofList_eq_empty_iff.1 hpiece]
  have hjoin := intercalate_splitChars sep s.toList
  rw [hpieces] at hjoin
  exact String.toList_eq_nil_iff.1 hjoin.symm

/-- Texts joined with slashes are given back when they are cut at the slashes. -/
theorem splitOn_join {names : List String} (hne : names ≠ [])
    (h : ∀ s ∈ names, '/' ∉ s.toList) : splitOn (join "/" names) '/' = names := by
  have hpieces : ∀ piece ∈ names.map String.toList, '/' ∉ piece := by
    intro piece hpiece
    obtain ⟨s, hs, rfl⟩ := List.mem_map.1 hpiece
    exact h s hs
  have hslash : ("/" : String).toList = ['/'] := rfl
  rw [splitOn, join, String.toList_intercalate, hslash,
    splitChars_intercalate (by simpa using hne) hpieces, List.map_map]
  simp

/-- A lead is stripped from what it stands in front of. -/
theorem stripLead?_append (lead s : String) : stripLead? lead (lead ++ s) = some s := by
  rw [stripLead?, String.toList_append, afterLead?_eq_some_iff.2 rfl]
  simp

/-- What is left without a lead is what stands behind it. -/
theorem stripLead?_eq_some_iff {lead s rest : String} :
    stripLead? lead s = some rest ↔ s = lead ++ rest := by
  constructor
  · intro h
    obtain ⟨cs, hcs, rfl⟩ := Option.map_eq_some_iff.1 h
    rw [← String.toList_inj, String.toList_append, String.toList_ofList]
    exact afterLead?_eq_some_iff.1 hcs
  · rintro rfl
    exact stripLead?_append lead rest

end Text

/-- A slash before names that are joined with slashes stands before each of them. -/
theorem DirName.slash_join (s : DirName) (way : List DirName) :
    "/" ++ Text.join "/" ((s :: way).map (·.text)) =
      String.join ((s :: way).map ("/" ++ ·.text)) := by
  induction way generalizing s with
  | nil => simp [Text.join]
  | cons s' way ih =>
    have hjoin : Text.join "/" ((s :: s' :: way).map (·.text)) =
        s.text ++ "/" ++ Text.join "/" ((s' :: way).map (·.text)) :=
      String.intercalate_cons_cons
    have hslashed : String.join ((s :: s' :: way).map ("/" ++ ·.text)) =
        "/" ++ s.text ++ String.join ((s' :: way).map ("/" ++ ·.text)) :=
      String.join_cons
    rw [hjoin, hslashed, ← ih]
    simp only [String.append_assoc]

namespace PathName

/-- What the first piece of a path stands for besides a name. -/
def start (first : String) : List PathComponent :=
  if first = "" then [.root] else if first = "." then [.current] else []

/-- The components of a path that is not empty, from its pieces. -/
theorem components_of_splitOn {p : PathName} {first : String} {rest : List String}
    (h : Text.splitOn p.text '/' = first :: rest) (hne : ¬ (first = "" ∧ rest = [])) :
    p.components = start first ++ (first :: rest).filterMap component? := by
  rw [components, h]
  by_cases hempty : first = ""
  · subst hempty
    cases rest with
    | nil => simp at hne
    | cons second rest => rfl
  · by_cases hdot : first = "."
    · subst hdot
      rfl
    · have hstart : start first = [] := by simp [start, hempty, hdot]
      rw [hstart]
      split
      · rename_i heq
        exact absurd (List.cons.inj heq).1 hempty
      · rename_i heq
        exact absurd (List.cons.inj heq).1 hdot
      · rfl

/-- What stands before a slash in a path has its components whatever stands behind the slash, and
those it has alone. -/
theorem exists_components_before (front : List Char) :
    ∃ before, (∀ back : String, '/' ∉ back.toList →
        components ⟨String.ofList (front ++ '/' :: back.toList)⟩ =
          before ++ (component? back).toList) ∧
      (front ≠ [] → components ⟨String.ofList front⟩ = before) := by
  cases hpieces : Text.splitOn (String.ofList front) '/' with
  | nil => exact absurd hpieces (Text.splitOn_ne_nil _ _)
  | cons first rest =>
    refine ⟨start first ++ (first :: rest).filterMap component?, ?_, ?_⟩
    · intro back hback
      have hall : Text.splitOn (String.ofList (front ++ '/' :: back.toList)) '/' =
          first :: (rest ++ [back]) := by
        rw [Text.splitOn_append_slash, hpieces, String.ofList_toList, Text.splitOn,
          Text.splitChars_of_notMem hback]
        simp
      have hcomponents := components_of_splitOn
        (p := ⟨String.ofList (front ++ '/' :: back.toList)⟩) hall (by simp)
      rw [hcomponents, ← List.cons_append, List.filterMap_append, ← List.append_assoc]
      cases hback : component? back <;> simp [hback]
    · intro hfront
      refine components_of_splitOn hpieces ?_
      rintro ⟨rfl, rfl⟩
      exact hfront (String.ofList_eq_empty_iff.1 (Text.eq_empty_of_splitOn hpieces))

/-- Joining a name to a path adds one component to it. -/
theorem components_join (p : PathName) (s : DirName) :
    (p.join s.text).components = p.components ++ [PathComponent.normal s.text] := by
  have hcomponent : (component? s.text).toList = [.normal s.text] := by
    rw [s.component?_text]
    rfl
  obtain ⟨text⟩ := p
  rw [join, if_neg (by simp [s.not_absolute])]
  by_cases hempty : text = ""
  · subst hempty
    have hstart : start s.text = [] := by simp [start, s.nonempty, s.notCurrent]
    have hcomponents := components_of_splitOn (p := ⟨s.text⟩) s.splitOn_text (by simp [s.nonempty])
    have hnone : components ⟨""⟩ = [] := rfl
    simpa [hnone, hstart, s.component?_text] using hcomponents
  · by_cases hslash : Text.endsIn "/" text = true
    · -- The slash at the end of the path is the one before the name.
      obtain ⟨front, hfront⟩ := (Text.endsIn_iff "/" text).1 hslash
      obtain ⟨before, hbefore, -⟩ := exists_components_before front
      have htext : text = String.ofList (front ++ '/' :: "".toList) := by
        rw [← String.toList_inj, String.toList_ofList, ← hfront]
        rfl
      have hp : components ⟨text⟩ = before := by
        rw [htext, hbefore "" (by simp)]
        simp [component?]
      have hjoined : text ++ s.text = String.ofList (front ++ '/' :: s.text.toList) := by
        rw [← String.toList_inj, String.toList_ofList, String.toList_append, ← hfront]
        simp
      rw [if_pos (by simp [hslash]), hjoined, hbefore s.text s.noSlash, hcomponent, hp]
    · obtain ⟨before, hbefore, halone⟩ := exists_components_before text.toList
      have hjoined : text ++ "/" ++ s.text =
          String.ofList (text.toList ++ '/' :: s.text.toList) := by
        rw [← String.toList_inj, String.toList_ofList]
        simp
      have hp := halone (by simpa using hempty)
      rw [String.ofList_toList] at hp
      rw [if_neg (by simp [hempty, hslash]), hjoined, hbefore s.text s.noSlash, hcomponent, hp]

/-- Going down some directories adds their names to the components of a path. -/
theorem components_foldl_join (p : PathName) (way : List DirName) :
    (way.foldl (fun dir s => dir.join s.text) p).components =
      p.components ++ way.map fun s => PathComponent.normal s.text := by
  induction way generalizing p with
  | nil => simp
  | cons s way ih => rw [List.foldl_cons, ih, components_join, List.append_assoc]; rfl

/-- What is below a path are the components behind its own. -/
theorem componentsAfter?_append (base cs : List PathComponent) :
    componentsAfter? base (base ++ cs) = some cs := by
  induction base with
  | nil => rfl
  | cons b base ih => rw [List.cons_append, componentsAfter?, if_pos rfl, ih]

end PathName

namespace ModuleRoot

variable (r : ModuleRoot)

/-- The directory that some names lead to from the root of a module. -/
def directory (way : List DirName) : PathName := way.foldl (fun dir s => dir.join s.text) r.root

/-- A directory is as far below the root as the way that leads to it. -/
theorem componentsBelow?_directory (way : List DirName) :
    PathName.componentsBelow? r.root (r.directory way) =
      some (way.map fun s => PathComponent.normal s.text) := by
  rw [PathName.componentsBelow?, directory, PathName.components_foldl_join,
    PathName.componentsAfter?_append]

/-- The names on the way to a directory stand in its import path, each behind a slash. -/
theorem importPathFor_directory (way : List DirName) :
    r.importPathFor (r.directory way) = r.path ++ String.join (way.map ("/" ++ ·.text)) := by
  rw [importPathFor, componentsBelow?_directory]
  cases way with
  | nil => simp
  | cons s way =>
    have htexts : ((s :: way).map fun s => PathComponent.normal s.text).map (·.text) =
        (s :: way).map (·.text) := by
      simp [PathComponent.text]
    rw [← DirName.slash_join, ← String.append_assoc, ← htexts]
    rfl

/-- An import path is below a module if it begins with the path of that and a slash. -/
theorem pathBelow?_eq_some_iff {importPath rest : String} :
    r.pathBelow? importPath = some rest ↔ importPath = r.path ++ ("/" ++ rest) := by
  rw [pathBelow?, Option.bind_eq_some_iff]
  constructor
  · rintro ⟨behind, hbehind, hrest⟩
    rw [Text.stripLead?_eq_some_iff.1 hbehind, Text.stripLead?_eq_some_iff.1 hrest]
  · rintro rfl
    exact ⟨_, Text.stripLead?_append _ _, Text.stripLead?_append _ _⟩

/-- The directory of an import path is the one that the path was made for. -/
theorem dirFor?_importPathFor (way : List DirName) :
    r.dirFor? (r.importPathFor (r.directory way)) = some (r.directory way) := by
  rw [importPathFor_directory]
  cases way with
  | nil => simp [dirFor?, directory]
  | cons s way =>
    have hne : r.path ++ ("/" ++ Text.join "/" ((s :: way).map (·.text))) ≠ r.path := by
      simp
    have hnoSlash : ∀ name ∈ (s :: way).map (·.text), '/' ∉ name.toList := by
      intro name hname
      obtain ⟨s', -, rfl⟩ := List.mem_map.1 hname
      exact s'.noSlash
    rw [← DirName.slash_join, dirFor?, if_neg hne, r.pathBelow?_eq_some_iff.2 rfl, Option.map_some,
      Text.splitOn_join (by simp) hnoSlash, List.foldl_map]
    rfl

/-- Different ways lead to directories with different import paths. -/
theorem importPathFor_injective :
    Function.Injective fun way => r.importPathFor (r.directory way) := by
  intro way way' h
  have hdir : some (r.directory way) = some (r.directory way') :=
    (r.dirFor?_importPathFor way).symm.trans ((congrArg r.dirFor? h).trans
      (r.dirFor?_importPathFor way'))
  have hcomponents : some (way.map fun s => PathComponent.normal s.text) =
      some (way'.map fun s => PathComponent.normal s.text) := by
    rw [← componentsBelow?_directory, ← componentsBelow?_directory, Option.some.inj hdir]
  refine List.map_injective_iff.2 ?_ (Option.some.inj hcomponents)
  exact fun s s' hs => DirName.text_injective (PathComponent.normal.inj hs)

/-! ## What is in the module -/

/-- An import path leads into the module if it is the name of the module, or that followed by a
slash and anything. -/
theorem origin_eq_sameModule_iff (importPath : String) :
    r.origin importPath = .sameModule ↔
      importPath = r.path ∨ ∃ rest, importPath = r.path ++ ("/" ++ rest) := by
  have hbelow : (r.pathBelow? importPath).isSome = true ↔
      ∃ rest, importPath = r.path ++ ("/" ++ rest) := by
    rw [Option.isSome_iff_exists]
    exact exists_congr fun rest => r.pathBelow?_eq_some_iff
  rw [← hbelow, origin]
  split
  · rename_i h
    simpa using h
  · rename_i h
    have hnot : ¬ (importPath = r.path ∨ (r.pathBelow? importPath).isSome = true) := by
      simpa using h
    simp only [hnot, iff_false]
    split <;> simp

/-- The import paths that lead into the module are those that have a directory. -/
theorem isSome_dirFor?_iff (importPath : String) :
    (r.dirFor? importPath).isSome = true ↔ r.origin importPath = .sameModule := by
  rw [origin_eq_sameModule_iff, dirFor?]
  split
  · rename_i h
    simp [h]
  · rename_i h
    rw [Option.isSome_map, Option.isSome_iff_exists]
    simp only [h, false_or, pathBelow?_eq_some_iff]

end ModuleRoot

end RouteAtlas
