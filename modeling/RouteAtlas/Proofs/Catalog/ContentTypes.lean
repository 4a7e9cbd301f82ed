import RouteAtlas.Proofs.Catalog.Placeholders
import RouteAtlas.Proofs.Directive.Fates

/-!
# Lists of content types

A list of content types goes through two hands. The reader of the directive cuts its arguments at
the commas outside of quotes and brackets, takes the quotes off, and joins what it has got with
commas; the builder of the route cuts the result at every comma. So an argument comes out as it was
if it holds no comma and there are no blanks at its ends, and unless it is empty; any other argument
comes out in pieces, trimmed, or not at all (`contentTypes_exact`).
-/

set_option autoImplicit false

namespace RouteAtlas

namespace Route

/-- The content types in a list. -/
def listed (s : String) : List String :=
  ((Text.splitOn s ',').map Text.trim).filter (!·.isEmpty)

/-- A text that stays whole in a list. -/
structure Listable (s : String) : Prop where
  nonempty : s ≠ ""
  whole : ',' ∉ s.toList
  trimmed : Text.trim s = s

variable {s t : String} {items : List String}

/-- A content type directive with a value gives the content types in it. -/
theorem contentTypes_of_value (config : Config) {set : DirectiveSet}
    (h : set.value? .contentType = some s) : contentTypes config set = listed s := by
  unfold contentTypes
  rw [h]
  rfl

/-! ## What a list holds -/

/-- The pieces on both sides of a comma. -/
theorem listed_comma (s t : String) : listed (s ++ "," ++ t) = listed s ++ listed t := by
  have hchars : (s ++ "," ++ t).toList = s.toList ++ ',' :: t.toList := by simp
  unfold listed Text.splitOn
  rw [hchars, Text.splitChars_append_cons, List.map_append, List.map_append, List.filter_append]

/-- A blank at the start is trimmed off with those of the first piece. -/
theorem listed_blank (s : String) : listed (" " ++ s) = listed s := by
  have hchars : (" " ++ s).toList = ' ' :: s.toList := by simp
  unfold listed Text.splitOn
  rw [hchars, Text.splitChars]
  cases hpieces : Text.splitChars (· == ',') s.toList with
  | nil => exact absurd hpieces (Text.splitChars_ne_nil _ _)
  | cons piece pieces =>
    have htrim : Text.trim (String.ofList (' ' :: piece)) = Text.trim (String.ofList piece) := by
      unfold Text.trim
      rw [String.toList_ofList, String.toList_ofList]
      rfl
    dsimp only
    rw [if_neg (by decide)]
    simp only [List.map_cons, htrim]

/-- A list of joined texts holds what each of them holds as a list. -/
theorem listed_join (items : List String) :
    listed (Text.join ", " items) = items.flatMap listed := by
  induction items with
  | nil => rfl
  | cons s items ih =>
    cases items with
    | nil =>
      rw [Text.join, String.intercalate_singleton, List.flatMap_singleton]
    | cons t items =>
      have hjoin : Text.join ", " (s :: t :: items) =
          s ++ "," ++ (" " ++ Text.join ", " (t :: items)) := by
        have hsep : ", " = "," ++ " " := rfl
        rw [Text.join, String.intercalate_cons_cons, hsep]
        simp only [Text.join, String.append_assoc]
      rw [hjoin, listed_comma, listed_blank, ih, ← List.flatMap_cons]

/-- What stands in a list can stand there. -/
theorem listable_of_mem_listed (h : s ∈ listed t) : Listable s := by
  obtain ⟨hmem, hsome⟩ := List.mem_filter.1 h
  obtain ⟨piece, hpiece, rfl⟩ := List.mem_map.1 hmem
  obtain ⟨cs, hcs, rfl⟩ := List.mem_map.1 hpiece
  refine ⟨by simpa using hsome, ?_, Text.trim_trim _⟩
  intro hcomma
  rw [Text.trim, String.toList_ofList, String.toList_ofList] at hcomma
  obtain ⟨back, heq⟩ := Text.exists_append_trimChars cs
  refine Text.notMem_of_mem_splitChars hcs ?_
  rw [heq]
  exact List.mem_append_left _ (List.mem_append_right _ hcomma)

/-- What can stand in a list is a list by itself. -/
theorem Listable.listed_eq (h : Listable s) : listed s = [s] := by
  have hsome : (!s.isEmpty) = true := by simpa using h.nonempty
  unfold listed Text.splitOn
  rw [Text.splitChars_of_notMem h.whole]
  simp [h.trimmed, hsome]

/-- Texts come out of a list as they were if and only if each of them stays whole in it. -/
theorem flatMap_listed_eq_iff : items.flatMap listed = items ↔ ∀ s ∈ items, Listable s := by
  constructor
  · intro h s hs
    rw [← h] at hs
    obtain ⟨t, -, hlisted⟩ := List.mem_flatMap.1 hs
    exact listable_of_mem_listed hlisted
  · intro h
    induction items with
    | nil => rfl
    | cons s items ih =>
      obtain ⟨hs, hitems⟩ := List.forall_mem_cons.1 h
      rw [List.flatMap_cons, hs.listed_eq, ih hitems, List.singleton_append]

end Route

namespace Directive

/-- The values among the arguments of a line, without the quotes around them. -/
def Call.values {line : List Char} {kind : DirectiveKind} (call : Call line kind) : List String :=
  (itemsOf call.args).map itemText

/-- The value of a line of a kind that takes a list is its values, joined with commas. -/
theorem exists_call_of_list {line : List Char} {span : Span} {a : Directive}
    (h : readLine line span = .ok a) (hlist : a.kind.arity = .list) :
    ∃ call : Call line a.kind, a.value = some (Text.join ", " call.values) := by
  obtain ⟨-, harity, hcases⟩ := readLine_cases h
  have hsome : a.value ≠ none := by
    intro hnone
    have hrefused : checkArity a.kind none = .error .valueRequired := by
      unfold checkArity
      rw [hlist]
    rw [hnone, hrefused] at harity
    cases harity
  rcases hcases with ⟨hnone, -⟩ | ⟨call, r, hread, hvalue, -⟩
  · exact absurd hnone hsome
  · rcases readArguments_cases hread with ⟨hnone, -⟩ | ⟨hother, -⟩ | ⟨-, _, _, -, -, hjoined, -⟩
    · exact absurd (hvalue.trans hnone) hsome
    · exact absurd hlist hother
    · exact ⟨call, hvalue.trans hjoined⟩

end Directive

/-! ## From a line to its set -/

/-- A line whose directive is kept can be read as it. -/
theorem CommentLine.read_of_kept {before : List CommentLine} {line : CommentLine} {a : Directive}
    (h : line.fate before = .kept a) : line.read = .ok a := by
  unfold fate at h
  split at h
  · split at h
    · rename_i a' hread
      split at h
      · cases h
      · cases h
        exact hread
    · cases h
  · cases h

/-- The first directive of a kind that may appear only once is the one that is kept. -/
theorem DirectiveSet.first?_of_kept {doc : DocComment} {i : Nat} {a : Directive}
    (h : doc.fates[i]? = some (.kept a)) (honce : a.kind.isSingleton = true) :
    (ofDoc doc).first? a.kind = some a := by
  have haccounts := accounts_ofDoc doc.lines
  have hmem : a ∈ (ofDoc doc).ofKind a.kind := by
    refine List.mem_filter.2 ⟨?_, by simp⟩
    rw [haccounts.directives]
    exact List.mem_filterMap.2 ⟨_, List.mem_of_getElem? h, rfl⟩
  have hone : ((ofDoc doc).ofKind a.kind).length ≤ 1 := by
    rw [haccounts.ofKind, if_pos honce]
    exact List.length_take_le 1 _
  have hhead : ((ofDoc doc).ofKind a.kind).head? = some a := by
    rcases hall : (ofDoc doc).ofKind a.kind with _ | ⟨b, _ | ⟨b', rest⟩⟩
    · rw [hall] at hmem
      cases hmem
    · rw [hall, List.mem_singleton] at hmem
      rw [hmem, List.head?_cons]
    · rw [hall] at hone
      simp at hone
  rw [first?, ← List.head?_filter]
  exact hhead

/-! ## The routes of a graph -/

/-- If a build succeeds, each of its routes is a declared one. If a line of content types is kept
among the directives of the route, the route has the content types that its arguments hold, each
taken as a list of its own; and these are the arguments themselves, in their order and number, if
and only if each of them stays whole in a list. -/
theorem contentTypes_exact {source : PackageSource Id} {depth : Nat} {config : Config}
    {files : List SourceFile} {cache : MetadataCache} {g : SymbolGraph}
    (hg : (buildGraph source depth config files cache).1 = .ok g)
    {c : NodeIndex × ControllerNode} (hc : c ∈ g.controllers) {x : NodeIndex × RouteNode}
    (hx : x ∈ g.routes c.1) :
    ∃ d ∈ config.controllersIn source.importPathOf files, ∃ r, (d, r) ∈ source.routesOf d ∧
      c.2 = d.node ∧ x.2 = (source.routePartsOf config d.node r).route ∧
      ∀ (i : Nat) (line : CommentLine) (a : Directive), r.method.doc.lines[i]? = some line →
        r.method.doc.fates[i]? = some (.kept a) → a.kind = .contentType →
        ∃ call : Directive.Call (Text.trimChars line.text.toList) .contentType,
          x.2.contentTypes = call.values.flatMap Route.listed ∧
          (x.2.contentTypes = call.values ↔ ∀ s ∈ call.values, Route.Listable s) := by
  obtain ⟨d, hd, r, hr, hnode, hroute, -⟩ := SymbolGraph.exists_declared hg hc hx
  refine ⟨d, hd, r, hr, hnode, hroute, ?_⟩
  intro i line a hline hfate hkind
  have hdirectives : r.directives = .ofDoc r.method.doc := by
    unfold PackageSource.routesOf at hr
    split at hr
    · rename_i package _
      obtain ⟨r', hr', heq⟩ := List.mem_map.1 hr
      cases heq
      exact ((d.mem_routes_iff package r).1 hr').2.2.1
    · cases hr
  have hread : line.read = .ok a := by
    unfold DocComment.fates at hfate
    rw [List.getElem?_mapIdx, hline, Option.map_some, Option.some.injEq] at hfate
    exact CommentLine.read_of_kept hfate
  have hfirst := DirectiveSet.first?_of_kept hfate (by rw [hkind]; rfl)
  obtain ⟨kind, value, options, description, span, valueSpan⟩ := a
  obtain rfl : kind = .contentType := hkind
  obtain ⟨call, hvalue⟩ := Directive.exists_call_of_list hread rfl
  have htypes : x.2.contentTypes = call.values.flatMap Route.listed := by
    have hset : r.directives.value? .contentType = some (Text.join ", " call.values) := by
      rw [hdirectives, DirectiveSet.value?, hfirst]
      exact hvalue
    rw [← Route.listed_join, ← Route.contentTypes_of_value config hset, hroute]
    rfl
  exact ⟨call, htypes, by rw [htypes, Route.flatMap_listed_eq_iff]⟩

/-! ## A content type with a comma -/

namespace Shop

/-- The comment of a route with two content types, the second one in quotes. -/
def mediaComment : DocComment :=
  .ofText "@Method(GET)\n@Route(/media)\n@ContentType(application/json, \"text/plain; note=a,b\")"

/-- A controller with one route, which has two content types. -/
def media : SourceFile where
  path := ⟨"media.go"⟩
  package := "shop"
  types := [⟨"Media", .struct [field none (named "ControllerBase")], {}, {}⟩]
  methods := [{ method "Media" "List" "" [] [named "error"] with doc := mediaComment }]

/-- The packages of a shop that has nothing but its media. -/
def mediaPackages : PackageSource Id :=
  { packages with package := fun _ => pure ⟨"shop", "shop", ⟨"."⟩, [media]⟩ }

/-- The line of the content types. -/
def mediaLine : CommentLine := (mediaComment.lines[2]?).getD default

/-- The directive on the line, taken apart. -/
def mediaCall : Directive.Call (Text.trimChars mediaLine.text.toList) .contentType where
  keyword := "ContentType".toList
  args := "application/json, \"text/plain; note=a,b\"".toList
  behind := []
  line_eq := by decide +kernel
  kind_eq := by decide +kernel
  word := List.all_eq_true.1 (by decide +kernel)
  closes := by decide +kernel

/-- The directive has two values, one with a comma in it. -/
theorem values_mediaCall :
    mediaCall.values = ["application/json", "text/plain; note=a,b"] := by decide +kernel

/-- The line is among the directives of its comment. -/
theorem exists_kept_media :
    ∃ a, mediaComment.fates[2]? = some (.kept a) ∧ a.kind = .contentType := by
  have hkind : (mediaComment.fates[2]?.bind LineFate.directive?).map (·.kind) =
      some .contentType := by decide +kernel
  obtain ⟨a, hdirective, hkind⟩ := Option.map_eq_some_iff.1 hkind
  obtain ⟨fate, hfate, hkept⟩ := Option.bind_eq_some_iff.1 hdirective
  refine ⟨a, ?_, hkind⟩
  cases fate with
  | kept b =>
    cases hkept
    exact hfate
  | text _ => cases hkept
  | repeated _ => cases hkept
  | malformed _ => cases hkept

/-- The route of the media has three content types. -/
theorem exists_media :
    ∃ g, (buildGraph mediaPackages 4 {} [media] {}).1 = .ok g ∧
      ∃ c ∈ g.controllers, ∃ x ∈ g.routes c.1, x.2.directives = .ofDoc mediaComment ∧
        x.2.contentTypes = ["application/json", "text/plain; note=a", "b"] := by
  obtain ⟨g, hg, hfound⟩ := exists_eq_ok
    (x := (buildGraph mediaPackages 4 {} [media] {}).1)
    (f := fun g => g.controllers.any fun c => (g.routes c.1).any fun x =>
      x.2.directives = .ofDoc mediaComment ∧
        x.2.contentTypes = ["application/json", "text/plain; note=a", "b"])
    (b := true) (by decide +kernel)
  obtain ⟨c, hc, hroutes⟩ := List.any_eq_true.1 hfound
  obtain ⟨x, hx, hroute⟩ := List.any_eq_true.1 hroutes
  exact ⟨g, hg, c, hc, x, hx, of_decide_eq_true hroute⟩

end Shop

/-- The content types of the media are those that the values hold, one by one. -/
theorem contentTypes_exact_media :
    ∃ g, (buildGraph Shop.mediaPackages 4 {} [Shop.media] {}).1 = .ok g ∧
      ∃ c ∈ g.controllers, ∃ x ∈ g.routes c.1,
        ∃ call : Directive.Call (Text.trimChars Shop.mediaLine.text.toList) .contentType,
          x.2.contentTypes = call.values.flatMap Route.listed := by
  obtain ⟨g, hg, c, hc, x, hx, -⟩ := Shop.exists_media
  obtain ⟨d, hd, r, hr, -, -, hlines⟩ := contentTypes_exact hg hc hx
  have hcomments : ((Config.controllersIn {} Shop.mediaPackages.importPathOf [Shop.media]).all
      fun d => (Shop.mediaPackages.routesOf d).all fun x =>
        x.2.method.doc = Shop.mediaComment) = true := by decide +kernel
  have hdoc : r.method.doc = Shop.mediaComment :=
    of_decide_eq_true (List.all_eq_true.1 (List.all_eq_true.1 hcomments d hd) (d, r) hr)
  obtain ⟨a, hkept, hkind⟩ := Shop.exists_kept_media
  rw [hdoc] at hlines
  obtain ⟨call, htypes, -⟩ := hlines 2 Shop.mediaLine a (by decide +kernel) hkept hkind
  exact ⟨g, hg, c, hc, x, hx, call, htypes⟩

/-- A content type in quotes is cut at its comma, though the line is kept and the quotes hold it
together there. -/
theorem contentTypes_cut :
    ∃ g, (buildGraph Shop.mediaPackages 4 {} [Shop.media] {}).1 = .ok g ∧
      ∃ c ∈ g.controllers, ∃ x ∈ g.routes c.1, x.2.directives = .ofDoc Shop.mediaComment ∧
        Shop.mediaComment.lines[2]? = some Shop.mediaLine ∧
        (∃ a, Shop.mediaComment.fates[2]? = some (.kept a) ∧ a.kind = .contentType) ∧
        ∃ call : Directive.Call (Text.trimChars Shop.mediaLine.text.toList) .contentType,
          call.values = ["application/json", "text/plain; note=a,b"] ∧
          x.2.contentTypes ≠ call.values := by
  obtain ⟨g, hg, c, hc, x, hx, hdirectives, htypes⟩ := Shop.exists_media
  refine ⟨g, hg, c, hc, x, hx, hdirectives, by decide +kernel, Shop.exists_kept_media,
    Shop.mediaCall, Shop.values_mediaCall, ?_⟩
  rw [htypes, Shop.values_mediaCall]
  decide

end RouteAtlas
