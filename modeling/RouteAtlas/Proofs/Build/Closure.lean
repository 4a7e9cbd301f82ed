import RouteAtlas.Proofs.Build.Controllers
import RouteAtlas.Proofs.Project.Declared

/-!
# The types that routes are made of

From the types in the signatures of the routes one comes to further types: to what is inside
containers, to the fields of structs that are on the wire, and to the types under synonyms. Enums
and interfaces lead nowhere. A build with an empty cache expands the models among them and nothing
else, and gives each the metadata that is read off its declaration.
-/

set_option autoImplicit false

namespace RouteAtlas

namespace PackageSource

variable (source : PackageSource Id) (controllers : List ControllerDecl)

/-- A type expression, together with the file and the package it stands in, that can be reached
from the signatures of the exported and annotated methods of some controllers. -/
inductive Reached : SourceFile → String → TypeExpr → Prop
  | signature {c : ControllerDecl} {package : Package} {file : SourceFile} {m : MethodDecl}
      {p : ParamDecl} (hc : c ∈ controllers)
      (hpackage : (source.package c.id.package).run = .ok package)
      (hm : (file, m) ∈ package.methodsOf c.decl.name) (hexported : m.isExported = true)
      (hannotated : (DirectiveSet.ofDoc m.doc).isAnnotated = true)
      (hp : p ∈ m.params ++ m.results) : Reached file c.id.package p.type
  | pointer {file : SourceFile} {path : String} {elem : TypeExpr}
      (h : Reached file path (.pointer elem)) : Reached file path elem
  | slice {file : SourceFile} {path : String} {elem : TypeExpr}
      (h : Reached file path (.slice elem)) : Reached file path elem
  | array {file : SourceFile} {path : String} {len : String} {elem : TypeExpr}
      (h : Reached file path (.array len elem)) : Reached file path elem
  | chan {file : SourceFile} {path : String} {elem : TypeExpr}
      (h : Reached file path (.chan elem)) : Reached file path elem
  | key {file : SourceFile} {path : String} {key value : TypeExpr}
      (h : Reached file path (.map key value)) : Reached file path key
  | value {file : SourceFile} {path : String} {key value : TypeExpr}
      (h : Reached file path (.map key value)) : Reached file path value
  | field {file : SourceFile} {path : String} {e : TypeExpr} {d : ResolvedDecl}
      {fields : List FieldDecl} {f : FieldDecl} (h : Reached file path e)
      (hd : source.resolve file path e = .ok (.declared d))
      (hshape : d.decl.shape = .struct fields) (hf : f ∈ fields)
      (hwire : f.wireName?.isSome = true) : Reached d.file d.package.importPath f.type
  | underlying {file : SourceFile} {path : String} {e : TypeExpr} {d : ResolvedDecl}
      {t : TypeExpr} (h : Reached file path e)
      (hd : source.resolve file path e = .ok (.declared d)) (hkind : d.kind = .synonym)
      (hshape : d.decl.shape = .named t ∨ d.decl.shape = .synonym t) :
      Reached d.file d.package.importPath t

/-- A declaration that a type which can be reached refers to. -/
def InClosure (d : ResolvedDecl) : Prop :=
  ∃ file path e, source.Reached controllers file path e ∧
    source.resolve file path e = .ok (.declared d)

/-- All types without containers that can be reached refer to something. -/
def AllResolve : Prop :=
  ∀ file path e, source.Reached controllers file path e → e.base = e →
    ∃ r, source.resolve file path e = .ok r ∧ ∀ reason, r ≠ .unresolved reason

end PackageSource

namespace ControllerDecl

/-- The routes of a controller are its exported and annotated methods. -/
theorem mem_routes_iff (c : ControllerDecl) (package : Package) (r : RouteDecl) :
    r ∈ c.routes package ↔
      (r.file, r.method) ∈ package.methodsOf c.decl.name ∧ r.method.isExported = true ∧
        r.directives = .ofDoc r.method.doc ∧ r.directives.isAnnotated = true := by
  have hempty : ∀ doc : DocComment, doc.isEmpty = true →
      (DirectiveSet.ofDoc doc).isAnnotated = false := by
    rintro ⟨lines⟩ h
    obtain rfl : lines = [] := by simpa [DocComment.isEmpty] using h
    rfl
  simp only [routes, List.mem_filter, List.mem_map, Bool.and_eq_true, Bool.not_eq_true']
  constructor
  · rintro ⟨⟨⟨f, m⟩, ⟨hm, hexported, -⟩, rfl⟩, hannotated⟩
    exact ⟨hm, hexported, rfl, hannotated⟩
  · rintro ⟨hm, hexported, hdirectives, hannotated⟩
    refine ⟨⟨(r.file, r.method), ⟨hm, hexported, ?_⟩, ?_⟩, hannotated⟩
    · by_contra hne
      rw [hdirectives, hempty _ (by simpa using hne)] at hannotated
      cases hannotated
    · rw [← hdirectives]

end ControllerDecl

namespace ResolvedDecl

/-- A new type over another is an enum or a synonym. -/
theorem kind_of_named {d : ResolvedDecl} {e : TypeExpr} (h : d.decl.shape = .named e) :
    d.kind = .enum ∨ d.kind = .synonym := by
  unfold kind
  rw [h]
  cases e with
  | named q name =>
    cases q with
    | some q => exact .inr rfl
    | none =>
      simp only
      split
      · exact .inl rfl
      · exact .inr rfl
  | _ => exact .inr rfl

/-- What the metadata of a declaration is made from: the fields of a struct that are on the wire,
or the type under a synonym. -/
theorem mem_parts_iff (d : ResolvedDecl) (t : TypeExpr) :
    (∃ part ∈ d.parts, part.2 = t) ↔
      (∃ fields, d.decl.shape = .struct fields ∧
        ∃ f ∈ fields, f.wireName?.isSome = true ∧ f.type = t) ∨
      (d.kind = .synonym ∧ (d.decl.shape = .named t ∨ d.decl.shape = .synonym t)) := by
  unfold parts
  cases hs : d.decl.shape with
  | struct fields =>
    have hkind : d.kind = .struct := by simp [kind, hs]
    simp only [List.mem_map, List.mem_filter, hkind]
    constructor
    · rintro ⟨_, ⟨f, ⟨hf, hw⟩, rfl⟩, rfl⟩
      exact .inl ⟨fields, rfl, f, hf, hw, rfl⟩
    · rintro (⟨fields', heq, f, hf, hw, rfl⟩ | ⟨h, -⟩)
      · cases heq
        exact ⟨_, ⟨f, ⟨hf, hw⟩, rfl⟩, rfl⟩
      · cases h
  | interface => simp
  | named e =>
    rcases kind_of_named hs with hkind | hkind
    · simp [hkind]
    · simp [hkind]
  | synonym e =>
    have hkind : d.kind = .synonym := by simp [kind, hs]
    simp [hkind]

end ResolvedDecl

namespace PackageSource

variable {source : PackageSource Id} {controllers : List ControllerDecl} {file : SourceFile}
  {path : String}

/-- With a type expression its base is reached. -/
theorem Reached.base {e : TypeExpr} (h : source.Reached controllers file path e) :
    source.Reached controllers file path e.base := by
  induction e with
  | named q name => exact h
  | inline text => exact h
  | pointer elem ih => exact ih h.pointer
  | slice elem ih => exact ih h.slice
  | array len elem ih => exact ih h.array
  | chan elem ih => exact ih h.chan
  | map key value _ ihv => exact ihv h.value

/-- The types in the keys of the maps around a type that can be reached. -/
theorem Reached.keyLeaf {e leaf : TypeExpr} (h : source.Reached controllers file path e)
    (hl : leaf ∈ e.keyLeaves) :
    source.Reached controllers file path leaf := by
  induction e with
  | named q name => simp [TypeExpr.keyLeaves] at hl
  | inline text => simp [TypeExpr.keyLeaves] at hl
  | pointer elem ih => exact ih h.pointer hl
  | slice elem ih => exact ih h.slice hl
  | array len elem ih => exact ih h.array hl
  | chan elem ih => exact ih h.chan hl
  | map key value ihk ihv =>
    rcases List.mem_append.1 hl with hl | hl
    · rcases List.mem_cons.1 hl with rfl | hl
      · exact h.key.base
      · exact ihk h.key hl
    · exact ihv h.value hl

/-- With a type expression its innermost types are reached. -/
theorem Reached.leaf {e leaf : TypeExpr} (h : source.Reached controllers file path e)
    (hl : leaf ∈ e.leaves) : source.Reached controllers file path leaf := by
  rcases List.mem_cons.1 hl with rfl | hl
  · exact h.base
  · exact h.keyLeaf hl

/-- The parts of a declaration in the closure are reached. -/
theorem InClosure.part {d : ResolvedDecl} (h : source.InClosure controllers d)
    {part : TypePart} (hpart : part ∈ d.parts) :
    source.Reached controllers d.file d.package.importPath part.2 := by
  obtain ⟨file, path, e, he, hd⟩ := h
  rcases (d.mem_parts_iff part.2).1 ⟨part, hpart, rfl⟩ with
    ⟨fields, hshape, f, hf, hw, heq⟩ | ⟨hkind, hshape⟩
  · rw [← heq]
    exact he.field hd hshape hf hw
  · exact he.underlying hd hkind hshape

/-- The parts of a declared route are reached. -/
theorem reached_of_mem_parts {c : ControllerDecl} (hc : c ∈ controllers) {package : Package}
    (hpackage : (source.package c.id.package).run = .ok package) {r : RouteDecl}
    (hr : r ∈ c.routes package) {part : TypePart} (hpart : part ∈ r.parts) :
    source.Reached controllers r.file c.id.package part.2 := by
  obtain ⟨hm, hexported, hdirectives, hannotated⟩ := (c.mem_routes_iff package r).1 hr
  obtain ⟨p, hp, hpart⟩ : ∃ p ∈ r.method.params ++ r.method.results, p.type = part.2 := by
    rcases List.mem_append.1 hpart with hpart | hpart
    · obtain ⟨⟨p, ordinal⟩, hp, rfl⟩ := List.mem_map.1 hpart
      exact ⟨p, List.mem_append_left _ (List.fst_mem_of_mem_zipIdx hp), rfl⟩
    · obtain ⟨⟨p, ordinal⟩, hp, rfl⟩ := List.mem_map.1 hpart
      exact ⟨p, List.mem_append_right _ (List.fst_mem_of_mem_zipIdx hp), rfl⟩
  rw [← hpart]
  exact .signature hc hpackage hm hexported (hdirectives ▸ hannotated) hp

/-- The regime of a build without a cache: what is expanded can be reached, and its metadata is
read off the declaration, all of whose types refer to something. -/
def closureRegime (source : PackageSource Id) (controllers : List ControllerDecl) :
    Regime source where
  Known := fun d => source.InClosure controllers d ∧ d.kind.isModel = true
  Left := fun _ => False
  Fits := fun d m => source.metadata? d = some m ∧
    ∀ part ∈ d.parts, source.Resolves d.file d.package.importPath part.2

/-- Nothing can be found in the cache. -/
theorem eq_none_of_usable {d : ResolvedDecl} {cached : Option ModelMetadata}
    (h : (closureRegime source controllers).Usable d cached) : cached = none := by
  cases cached with
  | none => rfl
  | some m =>
    obtain ⟨e, _, hleft, -⟩ := h m rfl
    exact hleft.elim

/-- Expansions without a cache stay among the types that can be reached. -/
theorem lawful_closureRegime : (closureRegime source controllers).Lawful where
  isModel := fun _ hd => hd.2
  closed := by
    rintro d cached part d' hd husable hpart ⟨hk, leaf, hleaf, hr⟩
    cases eq_none_of_usable husable
    exact ⟨⟨d.file, d.package.importPath, leaf, (hd.1.part hpart).leaf hleaf, hr⟩, hk⟩
  fits := by
    intro d cached m hd husable hm hresolves
    cases eq_none_of_usable husable
    exact ⟨hm, hresolves⟩

/-- In the regime of the closure the routes mention only what may be expanded. -/
theorem roots_closureRegime (config : Config) (files : List SourceFile) :
    (closureRegime source (config.controllersIn source.importPathOf files)).Roots config files := by
  rintro c hc package hpackage r hr part hpart d ⟨hk, leaf, hleaf, hres⟩
  exact ⟨⟨r.file, c.id.package, leaf,
    (reached_of_mem_parts hc hpackage hr hpart).leaf hleaf, hres⟩, hk⟩

end PackageSource

end RouteAtlas
