import RouteAtlas.Files.Tree
import RouteAtlas.Proofs.Outcome
import RouteAtlas.Proofs.Text.Pieces

/-!
# Files that were written

A file that was put at a path is what is read at that path afterwards (`fileAt_of_putFile`). Putting
goes to the directory part of the path and adds the last name to the place of it, while reading
follows the whole path, so the two have to lead to the same place; and the directories on the way
stay what they were, because the place where the file is put is not one of them.
-/

set_option autoImplicit false

namespace RouteAtlas.FileTree

/-! ## The place of a new file -/

/-- A path has no slash, or a last one. -/
theorem exists_last_slash (cs : List Char) :
    '/' ∉ cs ∨ ∃ front name, '/' ∉ name ∧ cs = front ++ '/' :: name := by
  induction cs with
  | nil => simp
  | cons c cs ih =>
    rcases ih with hnone | ⟨front, name, hname, rfl⟩
    · by_cases hc : c = '/'
      · subst hc
        exact .inr ⟨[], cs, hnone, rfl⟩
      · left
        simp [hnone, Ne.symm hc]
    · exact .inr ⟨c :: front, name, hname, rfl⟩

/-- The characters before a slash are taken from the end of a path, and all of them. -/
theorem takeWhile_name {name : List Char} (h : '/' ∉ name) (back : List Char) :
    (name.reverse ++ back).takeWhile (· != '/') = name.reverse ++ back.takeWhile (· != '/') ∧
    (name.reverse ++ back).dropWhile (· != '/') = back.dropWhile (· != '/') := by
  have hall : ∀ c ∈ name.reverse, (c != '/') = true := by
    intro c hc
    rw [bne_iff_ne]
    rintro rfl
    exact h (List.mem_reverse.1 hc)
  exact ⟨List.takeWhile_append_of_pos hall, List.dropWhile_append_of_pos hall⟩

/-- Nothing is dropped from the end of a path that does not end with a slash. -/
theorem dropWhile_slash {p : PathName} (hslash : Text.endsIn "/" p.text = false) :
    p.text.toList.reverse.dropWhile (· == '/') = p.text.toList.reverse := by
  rcases List.eq_nil_or_concat p.text.toList with hnil | ⟨init, c, hlast⟩
  · rw [hnil]
    rfl
  · have hc : (c == '/') = false := by
      rw [beq_eq_false_iff_ne]
      rintro rfl
      have hends : Text.endsIn "/" p.text = true := by
        rw [Text.endsIn_iff, hlast, List.concat_eq_append]
        exact List.suffix_append init ['/']
      rw [hslash] at hends
      cases hends
    rw [hlast, List.concat_eq_append, List.reverse_append]
    simp [hc]

/-- A path that does not end with a slash is a name alone, or a name behind the last slash. -/
theorem splitLast_cases {p : PathName} (hslash : Text.endsIn "/" p.text = false) :
    ('/' ∉ p.text.toList ∧ p.isAbsolute = false ∧ splitLast p = (⟨"."⟩, p.text)) ∨
    ∃ front name, '/' ∉ name ∧ p.text.toList = front ++ '/' :: name ∧
      splitLast p = (⟨String.ofList (front ++ ['/'])⟩, String.ofList name) := by
  have hkept := dropWhile_slash hslash
  rcases exists_last_slash p.text.toList with hnone | ⟨front, name, hname, htext⟩
  · have habsolute : p.isAbsolute = false := by
      rw [PathName.isAbsolute, Text.beginsWith, Bool.eq_false_iff, Ne, Text.isSome_afterLead?]
      intro hlead
      exact hnone (hlead.subset (List.mem_singleton_self '/'))
    refine .inl ⟨hnone, habsolute, ?_⟩
    obtain ⟨htake, hdrop⟩ := takeWhile_name hnone []
    rw [List.append_nil] at htake hdrop
    simp [splitLast, hkept, htake, hdrop, habsolute]
  · refine .inr ⟨front, name, hname, htext, ?_⟩
    have hreverse : p.text.toList.reverse = name.reverse ++ '/' :: front.reverse := by
      rw [htext]
      simp
    obtain ⟨htake, hdrop⟩ := takeWhile_name hname ('/' :: front.reverse)
    rw [hreverse] at hkept
    simp [splitLast, hreverse, hkept, htake, hdrop]

variable {t : FileTree}

/-- A piece of a path leads on from a directory only. -/
theorem enter_eq_ok {here l : Location} {piece : String} (h : t.enter here piece = .ok l) :
    t.entry? here = some .directory ∧
      l = (if piece = "" || piece = "." then here
        else if piece = ".." then here.dropLast
        else here ++ [piece]) := by
  unfold enter at h
  cases hentry : t.entry? here with
  | none =>
    rw [hentry] at h
    cases h
  | some e =>
    rw [hentry] at h
    cases e with
    | file contents modified => cases h
    | directory =>
      cases h
      exact ⟨rfl, rfl⟩

/-- An ordinary name leads one place down. -/
theorem enter_of_name {here : Location} (hhere : t.entry? here = some .directory) {name : String}
    (hname : ¬ (name = "" || name = "." || name = "..") = true) :
    t.enter here name = .ok (here ++ [name]) := by
  have hspecial : name ≠ "" ∧ name ≠ "." ∧ name ≠ ".." := by
    simpa [not_or, and_assoc] using hname
  simp [enter, hhere, hspecial]

/-- A new file is to be put under the last name of its path, in the directory before it. -/
theorem placeFor_eq_ok {p : PathName} {l : Location} (h : t.placeFor p = .ok (some l)) :
    ∃ here, t.locate (splitLast p).1 = .ok here ∧ t.enter here (splitLast p).2 = .ok l ∧
      l = here ++ [(splitLast p).2] := by
  unfold placeFor at h
  split at h
  · cases h
  · obtain ⟨here, hhere, hfound⟩ := bind_eq_ok h
    obtain ⟨parent, hparent, hplace⟩ := bind_eq_ok hfound
    obtain ⟨hdirectory, hsame⟩ := enter_eq_ok hparent
    have hsame : parent = here := by simpa using hsame
    subst hsame
    rw [Except.ok.injEq] at hplace
    split at hplace
    · cases hplace
    · rename_i hname
      have hl : parent ++ [(splitLast p).2] = l := Option.some.inj hplace
      refine ⟨parent, hhere, ?_, hl.symm⟩
      rw [← hl]
      exact enter_of_name hdirectory hname

/-- The last piece of a path is followed from where the pieces before it lead. -/
theorem foldlM_concat (pieces : List String) (piece : String) (start : Location) :
    (pieces ++ [piece]).foldlM t.enter start =
      (pieces.foldlM t.enter start).bind fun here => t.enter here piece := by
  rw [List.foldlM_append]
  cases hpieces : pieces.foldlM t.enter start with
  | error e => rfl
  | ok here =>
    show [piece].foldlM t.enter here = t.enter here piece
    simp

/-- A path is absolute if what is before its last name is. -/
theorem isAbsolute_front {p : PathName} {front name : List Char}
    (htext : p.text.toList = front ++ '/' :: name) :
    (⟨String.ofList (front ++ ['/'])⟩ : PathName).isAbsolute = p.isAbsolute := by
  simp only [PathName.isAbsolute, Text.beginsWith, htext, String.toList_ofList]
  cases front with
  | nil => rfl
  | cons c front =>
    have hhead : ∀ rest : List Char,
        (Text.afterLead? ['/'] (c :: rest)).isSome = decide (c = '/') := by
      intro rest
      by_cases hc : c = '/'
      · subst hc
        rfl
      · simp [Text.afterLead?, Ne.symm hc, hc]
    exact (hhead _).trans (hhead _).symm

section Locate

variable {p : PathName} (hsome : p.text.isEmpty = false) {here : Location}

include hsome

/-- A name alone is followed from the directory that is worked in. -/
theorem locate_of_name (habsolute : p.isAbsolute = false) (hnone : '/' ∉ p.text.toList)
    (hdir : t.locate ⟨"."⟩ = .ok here) : t.locate p = t.enter here p.text := by
  have hstart : t.enter t.workDir "." = .ok here := by
    simpa [locate, PathName.isAbsolute, Text.beginsWith, Text.afterLead?, Text.splitOn,
      Text.splitChars] using hdir
  obtain ⟨-, hsame⟩ := enter_eq_ok hstart
  have hsame : here = t.workDir := by simpa using hsame
  simp only [locate, hsome, Bool.false_eq_true, if_false, habsolute, Text.splitOn,
    Text.splitChars_of_notMem hnone, List.map_cons, List.map_nil, String.ofList_toList]
  rw [hsame]
  simp

/-- A name behind a slash is followed from where the path before it leads. -/
theorem locate_of_slash {front name : List Char} (hnoslash : '/' ∉ name)
    (htext : p.text.toList = front ++ '/' :: name)
    (hdir : t.locate ⟨String.ofList (front ++ ['/'])⟩ = .ok here) :
    t.locate p = t.enter here (String.ofList name) := by
  have hpieces : Text.splitOn p.text '/' =
      (Text.splitChars (· == '/') front).map String.ofList ++ [String.ofList name] := by
    rw [Text.splitOn, htext, Text.splitChars_append_cons, Text.splitChars_of_notMem hnoslash,
      List.map_append, List.map_singleton]
  have hfront : Text.splitOn (String.ofList (front ++ ['/'])) '/' =
      (Text.splitChars (· == '/') front).map String.ofList ++ [""] := by
    rw [Text.splitOn, String.toList_ofList, Text.splitChars_append_cons, List.map_append]
    rfl
  rw [locate, if_neg (by simp), isAbsolute_front htext, hfront, foldlM_concat] at hdir
  rw [locate, if_neg (by simp [hsome]), hpieces, foldlM_concat]
  cases hmiddle : ((Text.splitChars (· == '/') front).map String.ofList).foldlM t.enter
      (if p.isAbsolute then [] else t.workDir) with
  | error e =>
    rw [hmiddle] at hdir
    cases hdir
  | ok middle =>
    rw [hmiddle] at hdir
    have hsame : here = middle := by simpa using (enter_eq_ok hdir).2
    rw [hsame]
    rfl

end Locate

/-- Where a file is to be put is where its path leads. -/
theorem locate_of_placeFor {p : PathName} {l : Location} (hslash : Text.endsIn "/" p.text = false)
    (h : t.placeFor p = .ok (some l)) : t.locate p = .ok l ∧ l ≠ [] := by
  have hsome : p.text.isEmpty = false := by
    unfold placeFor at h
    cases hempty : p.text.isEmpty with
    | true => simp [hempty] at h
    | false => rfl
  obtain ⟨here, hdir, hname, hl⟩ := placeFor_eq_ok h
  refine ⟨?_, by simp [hl]⟩
  rcases splitLast_cases hslash with ⟨hnone, habsolute, hsplit⟩ |
    ⟨front, name, hnoslash, htext, hsplit⟩
  · rw [hsplit] at hdir hname
    rw [locate_of_name hsome habsolute hnone hdir]
    exact hname
  · rw [hsplit] at hdir hname
    rw [locate_of_slash hsome hnoslash htext hdir]
    exact hname

/-! ## Reading the file again -/

/-- What was put at a place stands there. -/
theorem entry?_set_self (t : FileTree) {l : Location} (hl : l ≠ []) (e : FileEntry) :
    entry? (t.set l e) l = some e := by
  have hnone : (t.entries.filter (·.1 != l)).find? (·.1 == l) = none := by
    rw [List.find?_eq_none]
    intro x hx
    simpa using (List.mem_filter.1 hx).2
  simp [set, entry?, hl, List.find?_append, hnone]

/-- Putting something at a place changes no other place. -/
theorem entry?_set_of_ne (t : FileTree) {l here : Location} (hne : here ≠ l) (e : FileEntry) :
    entry? (t.set l e) here = t.entry? here := by
  have hfind : (t.entries.filter (·.1 != l)).find? (·.1 == here) =
      t.entries.find? (·.1 == here) := by
    rw [List.find?_filter]
    congr 1
    funext x
    by_cases hx : x.1 = here
    · simp [hx, hne]
    · simp [hx]
  simp [set, entry?, List.find?_append, hfind, Ne.symm hne]

/-- A way through directories stays when something is put at a place that is none of them. -/
theorem foldlM_enter_set {l : Location} (hl : t.entry? l ≠ some .directory) (e : FileEntry)
    {pieces : List String} {start place : Location} (h : pieces.foldlM t.enter start = .ok place) :
    pieces.foldlM (t.set l e).enter start = .ok place := by
  induction pieces generalizing start with
  | nil => exact h
  | cons piece pieces ih =>
    rw [List.foldlM_cons] at h ⊢
    cases henter : t.enter start piece with
    | error e =>
      rw [henter] at h
      cases h
    | ok here =>
      rw [henter] at h
      have hne : start ≠ l := by
        rintro rfl
        exact hl (enter_eq_ok henter).1
      have hset : (t.set l e).enter start piece = .ok here := by
        rw [enter, entry?_set_of_ne t hne, ← enter]
        exact henter
      rw [hset]
      exact ih h

/-- A path leads where it led before if no directory was replaced. -/
theorem locate_set {l : Location} (hl : t.entry? l ≠ some .directory) (e : FileEntry)
    {p : PathName} {place : Location} (h : t.locate p = .ok place) :
    (t.set l e).locate p = .ok place := by
  unfold locate at h ⊢
  split at h
  · cases h
  · rename_i hsome
    rw [if_neg hsome]
    exact foldlM_enter_set hl e h

/-- A file is read at the place its path leads to. -/
theorem fileAt_eq_ok_iff {p : PathName} {contents : ByteArray} {modified : Int} :
    t.fileAt p = .ok (contents, modified) ↔
      ∃ l, t.locate p = .ok l ∧ t.entry? l = some (.file contents modified) := by
  constructor
  · intro h
    obtain ⟨e, hlookup, h⟩ := bind_eq_ok h
    obtain ⟨l, hl, hlookup⟩ := bind_eq_ok hlookup
    refine ⟨l, hl, ?_⟩
    split at hlookup
    · rename_i hentry
      cases hlookup
      cases e with
      | directory => cases h
      | file contents' modified' =>
        cases h
        exact hentry
    · cases hlookup
  · rintro ⟨l, hl, hentry⟩
    simp [fileAt, lookup, hl, hentry, bind, Except.bind]

/-- What was put at a path is read there. -/
theorem fileAt_of_putFile {t' : FileTree} {p : PathName} {contents : ByteArray} {modified : Int}
    (h : t.putFile p contents modified = .ok t') : t'.fileAt p = .ok (contents, modified) := by
  obtain ⟨place, hplace, h⟩ := bind_eq_ok h
  cases place with
  | none => cases h
  | some l =>
    dsimp only at h
    have hput : t.entry? l ≠ some .directory ∧ Text.endsIn "/" p.text = false ∧
        t' = t.set l (.file contents modified) := by
      have hends : ∀ error : FileError,
          (if Text.endsIn "/" p.text = true then Except.error error
            else .ok (t.set l (.file contents modified))) = .ok t' →
          Text.endsIn "/" p.text = false ∧ t' = t.set l (.file contents modified) := by
        intro error hif
        split at hif
        · cases hif
        · rename_i hslash
          cases hif
          exact ⟨Bool.eq_false_iff.2 hslash, rfl⟩
      cases hentry : t.entry? l with
      | none =>
        rw [hentry] at h
        exact ⟨by simp, hends _ h⟩
      | some e =>
        rw [hentry] at h
        cases e with
        | directory => cases h
        | file old time => exact ⟨by simp, hends _ h⟩
    obtain ⟨hfree, hslash, rfl⟩ := hput
    obtain ⟨hlocate, hl⟩ := locate_of_placeFor hslash hplace
    exact fileAt_eq_ok_iff.2
      ⟨l, locate_set hfree (.file contents modified) hlocate, entry?_set_self t hl _⟩

/-- A text that was put at a path is read there. -/
theorem textAt_of_putFile {t' : FileTree} {p : PathName} {text : String} {modified : Int}
    (h : t.putFile p text.toUTF8 modified = .ok t') : t'.textAt p = .ok text := by
  have hfile := fileAt_of_putFile h
  have htext : String.fromUTF8? text.toUTF8 = some text := dif_pos text.isValidUTF8
  simp only [textAt, hfile, bind, Except.bind, htext]

/-- A file stays when something is put at a place that held nothing. -/
theorem fileAt_set_of_none {l : Location} (hl : t.entry? l = none) (e : FileEntry) {p : PathName}
    {file : ByteArray × Int} (h : t.fileAt p = .ok file) : (t.set l e).fileAt p = .ok file := by
  obtain ⟨contents, modified⟩ := file
  obtain ⟨place, hplace, hentry⟩ := fileAt_eq_ok_iff.1 h
  have hne : place ≠ l := by
    rintro rfl
    rw [hl] at hentry
    cases hentry
  refine fileAt_eq_ok_iff.2 ⟨place, locate_set (by simp [hl]) e hplace, ?_⟩
  rw [entry?_set_of_ne t hne]
  exact hentry

/-- Making a directory leaves the files that can be read. -/
theorem fileAt_makeDirectory {t' : FileTree} {dir p : PathName} {file : ByteArray × Int}
    (hmade : t.makeDirectory dir = .ok t') (h : t.fileAt p = .ok file) :
    t'.fileAt p = .ok file := by
  obtain ⟨place, -, hmade⟩ := bind_eq_ok hmade
  cases place with
  | none => cases hmade
  | some l =>
    dsimp only at hmade
    cases hentry : t.entry? l with
    | some e => simp [hentry] at hmade
    | none =>
      rw [hentry] at hmade
      cases hmade
      exact fileAt_set_of_none hentry _ h

/-- A file stays when directories are made. -/
theorem fileAt_makeDirectoriesWithin {fuel : Nat} {t' : FileTree} {dir p : PathName}
    {file : ByteArray × Int} (hmade : t.makeDirectoriesWithin fuel dir = .ok t')
    (h : t.fileAt p = .ok file) : t'.fileAt p = .ok file := by
  induction fuel generalizing dir t' with
  | zero => cases hmade
  | succ fuel ih =>
    unfold makeDirectoriesWithin at hmade
    split at hmade
    · cases hmade
      exact h
    · split at hmade
      · rename_i hone
        cases hmade
        exact fileAt_makeDirectory hone h
      · split at hmade
        · cases hmade
        · rename_i parent _
          obtain ⟨above, habove, hmade⟩ := bind_eq_ok hmade
          have hkept := ih habove
          split at hmade
          · rename_i hone
            cases hmade
            exact fileAt_makeDirectory hone hkept
          · split at hmade
            · cases hmade
              exact hkept
            · cases hmade
      · split at hmade
        · cases hmade
          exact h
        · cases hmade

/-- Making directories leaves the texts that can be read. -/
theorem textAt_makeDirectories {t' : FileTree} {dir p : PathName} {text : String}
    (hmade : t.makeDirectories dir = .ok t') (h : t.textAt p = .ok text) :
    t'.textAt p = .ok text := by
  obtain ⟨file, hfile, h⟩ := bind_eq_ok h
  rw [textAt, fileAt_makeDirectoriesWithin hmade hfile]
  exact h

end RouteAtlas.FileTree
