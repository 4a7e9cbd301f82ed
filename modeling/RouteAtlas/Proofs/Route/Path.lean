import RouteAtlas.Proofs.Text.Pieces
import RouteAtlas.Route.Path

/-!
# Joining paths

A path counts only by its segments, and joining two paths puts their segments one after the other
(`segments_joinPaths`). So joining is associative, an empty path adds nothing, and what comes out is
in a normal form. A placeholder never crosses a slash: the placeholders of a path are those of its
segments, one segment after the other, and joining keeps them (`joinPaths_laws`).
-/

set_option autoImplicit false

namespace RouteAtlas.Route

/-- A path that begins with a slash, in which no slash follows another, and which ends with one only
if it is nothing else. -/
structure IsNormal (path : String) : Prop where
  rooted : path.toList.head? = some '/'
  separated : path.toList.IsChain fun c d => c = '/' → d ≠ '/'
  ending : path.toList.getLast? = some '/' → path = "/"

/-- What can stand between the braces of a placeholder. -/
structure IsSlot (name : List Char) : Prop where
  nonempty : name ≠ []
  plain : ∀ c ∈ name, c ≠ '\x7b' ∧ c ≠ '\x7d' ∧ c ≠ '/'

/-- Whether a text begins with a placeholder. -/
def BeginsWithSlot (cs : List Char) : Prop :=
  ∃ name behind, IsSlot name ∧ cs = '\x7b' :: (name ++ '\x7d' :: behind)

/-- The names of the placeholders in a text, from left to right: where one begins the search goes on
behind it, and anywhere else at the next character. -/
inductive SlotsIn : List Char → List (List Char) → Prop
  | nil : SlotsIn [] []
  | slot {name behind : List Char} {names : List (List Char)} (h : IsSlot name)
      (hbehind : SlotsIn behind names) :
      SlotsIn ('\x7b' :: (name ++ '\x7d' :: behind)) (name :: names)
  | skip {c : Char} {cs : List Char} {names : List (List Char)} (h : ¬BeginsWithSlot (c :: cs))
      (hrest : SlotsIn cs names) : SlotsIn (c :: cs) names

/-! ## Segments -/

/-- A part of a path between two slashes. -/
def IsSegment (s : String) : Prop := s ≠ "" ∧ '/' ∉ s.toList

/-- A path with a slash before every segment. -/
def rooted (parts : List String) : String := "/" ++ Text.join "/" parts

variable {parts : List String}

/-- Two paths are joined by their segments. -/
theorem joinPaths_eq (a b : String) : joinPaths a b = rooted (segments a ++ segments b) := rfl

/-- What a path is cut into are segments, neither empty nor with a slash in them. -/
theorem isSegment_of_mem_segments {path s : String} (h : s ∈ segments path) : IsSegment s := by
  obtain ⟨hmem, hsome⟩ := List.mem_filter.1 h
  obtain ⟨cs, hcs, rfl⟩ := List.mem_map.1 hmem
  refine ⟨by simpa using hsome, ?_⟩
  rw [String.toList_ofList]
  exact Text.notMem_of_mem_splitChars hcs

/-- What two paths are cut into are segments. -/
theorem isSegment_of_mem_append {a b s : String} (h : s ∈ segments a ++ segments b) :
    IsSegment s :=
  (List.mem_append.1 h).elim isSegment_of_mem_segments isSegment_of_mem_segments

/-- A rooted path is a slash and its segments with slashes between them. -/
theorem toList_rooted (parts : List String) :
    (rooted parts).toList = '/' :: ['/'].intercalate (parts.map String.toList) := by
  simp [rooted, Text.join, String.toList_intercalate]

/-- A rooted path is cut into the segments that it was made of. -/
theorem segments_rooted (h : ∀ s ∈ parts, IsSegment s) : segments (rooted parts) = parts := by
  have hpieces : Text.splitChars (· == '/') ('/' :: ['/'].intercalate (parts.map String.toList)) =
      [] :: Text.splitChars (· == '/') (['/'].intercalate (parts.map String.toList)) :=
    Text.splitChars_append_cons '/' [] _
  unfold segments Text.splitOn
  rw [toList_rooted, hpieces]
  rcases parts with _ | ⟨s, rest⟩
  · decide
  · rw [Text.splitChars_intercalate (by simp) fun cs hcs => by
      obtain ⟨t, ht, rfl⟩ := List.mem_map.1 hcs
      exact (h t ht).2]
    have hsome : ∀ t ∈ s :: rest, (!t.isEmpty) = true := fun t ht => by simpa using (h t ht).1
    simpa [Function.comp_def, String.ofList_toList] using List.filter_eq_self.2 hsome

/-- Joining two paths puts their segments one after the other. -/
theorem segments_joinPaths (a b : String) :
    segments (joinPaths a b) = segments a ++ segments b := by
  rw [joinPaths_eq, segments_rooted fun _ => isSegment_of_mem_append]

/-! ## The normal form -/

/-- A path with segments is these with a slash before each. -/
theorem toList_rooted_of_ne_nil (h : parts ≠ []) :
    (rooted parts).toList = parts.flatMap fun s => '/' :: s.toList := by
  rw [toList_rooted]
  induction parts with
  | nil => exact absurd rfl h
  | cons s rest ih =>
    cases rest with
    | nil => simp
    | cons t rest =>
      rw [List.flatMap_cons, ← ih (List.cons_ne_nil t rest)]
      simp [List.intercalate_cons_cons]

/-- A segment does not end with a slash, nor does it with one before it. -/
theorem IsSegment.getLast?_ne {s : String} (h : IsSegment s) :
    ('/' :: s.toList).getLast? ≠ some '/' := by
  have hne : s.toList ≠ [] := by simpa using h.1
  rw [List.getLast?_cons_of_ne_nil hne]
  intro hlast
  exact h.2 (List.mem_of_getLast? hlast)

/-- A path that is made of segments has the normal form. -/
theorem isNormal_rooted (h : ∀ s ∈ parts, IsSegment s) : IsNormal (rooted parts) where
  rooted := by rw [toList_rooted, List.head?_cons]
  separated := by
    by_cases hparts : parts = []
    · subst hparts
      decide
    rw [toList_rooted_of_ne_nil hparts]
    clear hparts
    induction parts with
    | nil => exact .nil
    | cons s rest ih =>
      have hs := h s List.mem_cons_self
      rw [List.flatMap_cons, List.isChain_append]
      refine ⟨?_, ih fun t ht => h t (List.mem_cons_of_mem s ht), ?_⟩
      · have hplain : s.toList.Pairwise fun c d => c = '/' → d ≠ '/' :=
          List.pairwise_of_forall_mem_list fun c hc d hd _ hslash => hs.2 (hslash ▸ hd)
        rw [List.isChain_cons]
        exact ⟨fun c hc _ hslash => hs.2 (hslash ▸ List.mem_of_mem_head? hc), hplain.isChain⟩
      · intro c hc d _ hslash
        exact absurd (hslash ▸ hc) hs.getLast?_ne
  ending := by
    intro hlast
    rcases List.eq_nil_or_concat parts with rfl | ⟨init, s, rfl⟩
    · rfl
    · rw [List.concat_eq_append] at h hlast
      rw [toList_rooted_of_ne_nil (by simp), List.flatMap_append, List.flatMap_singleton,
        List.getLast?_append_of_ne_nil _ (List.cons_ne_nil '/' _)] at hlast
      exact absurd hlast (h s (by simp)).getLast?_ne

/-! ## Placeholders -/

/-- One step of the search, whatever has been read of a name. -/
theorem placeholdersFrom_cons (name : Option (List Char)) (c : Char) (cs : List Char) :
    placeholdersFrom name (c :: cs) =
      if c = '\x7b' then placeholdersFrom (some []) cs
      else if c = '\x7d' then
        ((name.filter (!·.isEmpty)).map List.reverse).toList ++ placeholdersFrom none cs
      else if c = '/' then placeholdersFrom none cs
      else placeholdersFrom (name.map (c :: ·)) cs := by
  rw [placeholdersFrom.eq_def]
  rcases name with _ | _ | ⟨d, ds⟩
  · rfl
  · rfl
  · rfl

/-- What comes before a slash has no say in what comes behind it. -/
theorem placeholdersFrom_slash (name : Option (List Char)) (front back : List Char) :
    placeholdersFrom name (front ++ '/' :: back) =
      placeholdersFrom name front ++ placeholdersFrom none back := by
  induction front generalizing name with
  | nil => rfl
  | cons c front ih =>
    rw [List.cons_append, placeholdersFrom_cons, placeholdersFrom_cons]
    split
    · exact ih _
    · split
      · rw [ih, List.append_assoc]
      · split
        · exact ih _
        · exact ih _

/-- No placeholder reaches over a slash, so those of a path are those of its pieces. -/
theorem placeholdersFrom_intercalate (pieces : List (List Char)) :
    placeholdersFrom none (['/'].intercalate pieces) = pieces.flatMap (placeholdersFrom none) := by
  induction pieces with
  | nil => rfl
  | cons piece pieces ih =>
    cases pieces with
    | nil => simp
    | cons next pieces =>
      rw [List.intercalate_cons_cons, List.append_assoc, List.singleton_append,
        placeholdersFrom_slash, ih, ← List.flatMap_cons]

/-- Empty pieces of a path have no placeholders. -/
theorem flatMap_placeholders_filter (pieces : List String) :
    (pieces.filter (!·.isEmpty)).flatMap placeholders = pieces.flatMap placeholders := by
  induction pieces with
  | nil => rfl
  | cons piece pieces ih =>
    rw [List.flatMap_cons, ← ih]
    by_cases hpiece : piece = ""
    · subst hpiece
      rfl
    · rw [List.filter_cons_of_pos (by simpa using hpiece), List.flatMap_cons]

/-- The placeholders of a path are those of its segments. -/
theorem placeholders_eq_flatMap (path : String) :
    placeholders path = (segments path).flatMap placeholders := by
  have hchars := placeholdersFrom_intercalate (Text.splitChars (· == '/') path.toList)
  rw [Text.intercalate_splitChars] at hchars
  rw [segments, flatMap_placeholders_filter, placeholders, hchars, Text.splitOn,
    List.flatMap_map, List.map_flatMap]
  simp only [placeholders, String.toList_ofList]

/-- The placeholders of a joined path are those of the two, in their order. -/
theorem placeholders_joinPaths (a b : String) :
    placeholders (joinPaths a b) = placeholders a ++ placeholders b := by
  rw [placeholders_eq_flatMap, segments_joinPaths, List.flatMap_append,
    ← placeholders_eq_flatMap, ← placeholders_eq_flatMap]

section Slots

variable {name before cs : List Char}

/-- A name that has begun ends at the closing brace. -/
theorem placeholdersFrom_closed (hname : ∀ c ∈ name, c ≠ '\x7b' ∧ c ≠ '\x7d' ∧ c ≠ '/')
    (hsome : before.reverse ++ name ≠ []) (behind : List Char) :
    placeholdersFrom (some before) (name ++ '\x7d' :: behind) =
      (before.reverse ++ name) :: placeholdersFrom none behind := by
  induction name generalizing before with
  | nil =>
    cases before with
    | nil => exact absurd rfl hsome
    | cons d ds =>
      rw [List.append_nil, List.nil_append, placeholdersFrom_cons, if_neg (by decide), if_pos rfl]
      rfl
  | cons c name ih =>
    obtain ⟨hopen, hclose, hslash⟩ := hname c List.mem_cons_self
    have hrest := @ih (c :: before) (fun x hx => hname x (List.mem_cons_of_mem c hx)) (by simp)
    rw [List.cons_append, placeholdersFrom_cons, if_neg hopen, if_neg hclose, if_neg hslash,
      Option.map_some, hrest]
    simp

/-- A name that has begun and does not end at a closing brace is none. -/
theorem placeholdersFrom_broken (h : ∀ name behind,
      (∀ c ∈ name, c ≠ '\x7b' ∧ c ≠ '\x7d' ∧ c ≠ '/') → cs = name ++ '\x7d' :: behind →
      before.reverse ++ name = []) :
    placeholdersFrom (some before) cs = placeholdersFrom none cs := by
  induction cs generalizing before with
  | nil => rfl
  | cons c cs ih =>
    rw [placeholdersFrom_cons, placeholdersFrom_cons]
    split
    · rfl
    · rename_i hopen
      split
      · rename_i hclose
        obtain rfl : before = [] := by simpa using h [] cs (by simp) (by rw [hclose]; rfl)
        rfl
      · rename_i hclose
        split
        · rfl
        · rename_i hslash
          refine ih fun name behind hname hcs => ?_
          have hlong := h (c :: name) behind
            (List.forall_mem_cons.2 ⟨⟨hopen, hclose, hslash⟩, hname⟩) (by rw [hcs]; rfl)
          simp at hlong

/-- A slot at the front is the first placeholder. -/
theorem placeholdersFrom_of_slot (h : IsSlot name) (behind : List Char) :
    placeholdersFrom none ('\x7b' :: (name ++ '\x7d' :: behind)) =
      name :: placeholdersFrom none behind := by
  have hsome : [].reverse ++ name ≠ [] := h.nonempty
  rw [placeholdersFrom_cons, if_pos rfl, placeholdersFrom_closed h.plain hsome]
  rfl

/-- A character that begins no slot is passed over. -/
theorem placeholdersFrom_of_not_slot {c : Char} (h : ¬BeginsWithSlot (c :: cs)) :
    placeholdersFrom none (c :: cs) = placeholdersFrom none cs := by
  rw [placeholdersFrom_cons]
  split
  · rename_i hopen
    refine placeholdersFrom_broken fun name behind hname hcs => ?_
    by_contra hsome
    exact h ⟨name, behind, ⟨hsome, hname⟩, by rw [hopen, hcs]⟩
  · split
    · rfl
    · split
      · rfl
      · rfl

/-- The placeholders are found one by one from left to right. -/
theorem slotsIn_placeholdersFrom (cs : List Char) : SlotsIn cs (placeholdersFrom none cs) := by
  induction hn : cs.length using Nat.strong_induction_on generalizing cs with
  | _ n ih =>
    subst hn
    by_cases hslot : BeginsWithSlot cs
    · obtain ⟨name, behind, hname, rfl⟩ := hslot
      rw [placeholdersFrom_of_slot hname]
      exact .slot hname (ih behind.length (by simp; omega) behind rfl)
    · cases cs with
      | nil => exact .nil
      | cons c cs =>
        rw [placeholdersFrom_of_not_slot hslot]
        exact .skip hslot (ih cs.length (by simp) cs rfl)

/-- The names that are found in a text are names of slots. -/
theorem SlotsIn.isSlot {names : List (List Char)} (h : SlotsIn cs names) :
    ∀ name ∈ names, IsSlot name := by
  induction h with
  | nil => simp
  | slot hname _ ih => exact List.forall_mem_cons.2 ⟨hname, ih⟩
  | skip _ _ ih => exact ih

/-- The placeholders of a path are the slots in it, from left to right. -/
theorem slotsIn_placeholders (path : String) :
    SlotsIn path.toList ((placeholders path).map String.toList) := by
  have hchars := slotsIn_placeholdersFrom path.toList
  simpa [placeholders, Function.comp_def] using hchars

end Slots

/-! ## The laws -/

/-- Joined paths are in normal form and have the segments of both. Joining is associative, and an
empty path on either side of a joined one adds nothing. The placeholders, which are what a search
for names in braces meets from left to right, are those of the first path and then those of the
second, and no name among them is empty or has a brace or a slash in it. -/
theorem joinPaths_laws (a b c : String) :
    IsNormal (joinPaths a b) ∧
      segments (joinPaths a b) = segments a ++ segments b ∧
      joinPaths (joinPaths a b) c = joinPaths a (joinPaths b c) ∧
      joinPaths "" (joinPaths a b) = joinPaths a b ∧
      joinPaths (joinPaths a b) "" = joinPaths a b ∧
      placeholders (joinPaths a b) = placeholders a ++ placeholders b ∧
      (∀ path, SlotsIn path.toList ((placeholders path).map String.toList)) ∧
      ∀ name ∈ placeholders (joinPaths a b), IsSlot name.toList := by
  have hnone : segments "" = [] := rfl
  refine ⟨isNormal_rooted fun _ => isSegment_of_mem_append, segments_joinPaths a b, ?_, ?_, ?_,
    placeholders_joinPaths a b, slotsIn_placeholders, ?_⟩
  · rw [joinPaths_eq _ c, joinPaths_eq a (joinPaths b c), segments_joinPaths, segments_joinPaths,
      List.append_assoc]
  · rw [joinPaths_eq "", segments_joinPaths, hnone, List.nil_append, joinPaths_eq]
  · rw [joinPaths_eq _ "", segments_joinPaths, hnone, List.append_nil, joinPaths_eq]
  · intro name hname
    exact (slotsIn_placeholders _).isSlot _ (List.mem_map_of_mem hname)

/-- Braces that are empty, open twice or cut by a slash hold no placeholder. -/
example : placeholders (joinPaths "/a/\x7bb\x7d/\x7b\x7d" "\x7bc/\x7b\x7bd\x7d/\x7de/\x7d") =
    ["b", "d"] := by decide

end RouteAtlas.Route
