import RouteAtlas.Cache.Store
import RouteAtlas.Proofs.Json.ReadBack
import Mathlib

/-!
# Decoding undoes encoding

Every record of the cache is decoded from its encoding (`CacheEntry.ofJson?_toJson`), and its
encoding is a value that can be read back from its text (`CacheEntry.whole_toJson`). Uses of types
are the one recursive record: the key of a map is a use itself, so the decoder goes one map deeper
at each level and the depth of the value bounds the levels.
-/

set_option autoImplicit false

namespace RouteAtlas

namespace Json

/-- A list is read back if each of its members is. -/
theorem list?_map {α : Type} {encode : α → Json} {decode : Json → Option α} {items : List α}
    (h : ∀ a ∈ items, decode (encode a) = some a) :
    list? decode (.array (items.map encode)) = some items := by
  rw [list?]
  induction items with
  | nil => rfl
  | cons a items ih =>
    have hrest := ih fun x hx => h x (List.mem_cons_of_mem a hx)
    rw [List.map_cons, List.mapM_cons, h a (List.mem_cons_self ..), hrest]
    rfl

/-- What a list decodes to was decoded from something. -/
theorem exists_of_mem_list? {α : Type} {decode : Json → Option α} {j : Json} {l : List α}
    (h : list? decode j = some l) {a : α} (ha : a ∈ l) : ∃ j', decode j' = some a := by
  unfold list? at h
  split at h
  · rename_i items
    induction items generalizing l with
    | nil =>
      cases h
      cases ha
    | cons j items ih =>
      rw [List.mapM_cons] at h
      simp only [Option.bind_eq_bind, Option.bind_eq_some_iff] at h
      obtain ⟨first, hfirst, rest, hrest, hl⟩ := h
      cases hl
      rcases List.mem_cons.1 ha with rfl | ha
      · exact ⟨j, hfirst⟩
      · exact ih ha hrest
  · cases h

/-- A list of texts is read back. -/
theorem texts?_strings (items : List String) : texts? (strings items) = some items :=
  list?_map fun _ _ => rfl

/-- In a record without repeated names a member is found by its name. -/
theorem lookup?_eq_find? {members : List (String × Json)}
    (h : (members.map Prod.fst).Nodup) (name : String) :
    lookup? members name = (members.find? (·.1 == name)).map (·.2) := by
  induction members with
  | nil => rfl
  | cons m members ih =>
    rw [List.map_cons, List.nodup_cons] at h
    have hrest := ih h.2
    unfold lookup? at hrest ⊢
    rw [List.reverse_cons, List.find?_append, List.find?_cons]
    by_cases hname : (m.1 == name) = true
    · have hnone : members.reverse.find? (·.1 == name) = none := by
        rw [List.find?_eq_none]
        intro m' hm' heq
        have hsame : m'.1 = m.1 := by
          rw [beq_iff_eq.1 hname]
          exact beq_iff_eq.1 heq
        exact h.1 (hsame ▸ List.mem_map_of_mem (List.mem_reverse.1 hm'))
      simp [hnone, hname]
    · simp [hname, hrest]

/-- In a record with each of its fields once, a field is the first member of its name. -/
theorem record?_object {names : List String} (hnodup : names.Nodup)
    {members : List (String × Json)} (hnames : members.map Prod.fst = names) :
    record? names (.object members) = some fun name => (members.find? (·.1 == name)).map (·.2) := by
  have honce : names.all (isGivenOnce members) = true := by
    rw [List.all_eq_true]
    intro name _
    have hcount : (members.filter (·.1 == name)).length = names.count name := by
      rw [← hnames, List.count, List.countP_map, List.countP_eq_length_filter]
      rfl
    have hle := List.nodup_iff_count_le_one.1 hnodup name
    simp [isGivenOnce, hcount, hle]
  rw [record?, if_pos honce]
  congr 1
  funext name
  exact lookup?_eq_find? (hnames ▸ hnodup) name

/-- The tag of a record is told apart from its fields. -/
theorem tagged?_cons {tag : String} (kind : String) {members : List (String × Json)}
    (h : ∀ m ∈ members, (m.1 == tag) = false) :
    tagged? tag (.object ((tag, .string kind) :: members)) = some (kind, .object members) := by
  have hothers : members.filter (·.1 == tag) = [] := by
    rw [List.filter_eq_nil_iff]
    intro m hm
    simp [h m hm]
  have hfind : members.reverse.find? (·.1 == tag) = none := by
    rw [List.find?_eq_none]
    intro m hm
    simp [h m (List.mem_reverse.1 hm)]
  have hkept : members.filter (·.1 != tag) = members := by
    rw [List.filter_eq_self]
    intro m hm
    simp [bne, h m hm]
  simp [tagged?, isGivenOnce, lookup?, hothers, hfind, hkept]

/-- A member of a list is less deep than the list. -/
theorem depth_lt_of_mem {j : Json} {items : List Json} (h : j ∈ items) :
    j.depth < (Json.array items).depth := by
  rw [depth]
  induction items with
  | nil => simp at h
  | cons first items ih =>
    rw [depthList]
    rcases List.mem_cons.1 h with rfl | h
    · omega
    · have hrest := ih h
      omega

/-- The value of a member is less deep than the record. -/
theorem depth_lt_of_mem_members {m : String × Json} {members : List (String × Json)}
    (h : m ∈ members) : m.2.depth < (Json.object members).depth := by
  rw [depth]
  induction members with
  | nil => simp at h
  | cons first members ih =>
    rw [depthMembers]
    rcases List.mem_cons.1 h with rfl | h
    · omega
    · have hrest := ih h
      omega

end Json

section Decoding

-- A record with every field once is an object whose members are looked up by literal names.
attribute [local simp] Json.record? Json.isGivenOnce Json.lookup? Json.Record.field?
  Json.Record.optional? Json.text? Json.bool? Json.ofOption

/-- An identity is read back. -/
theorem DeclId.ofJson?_toJson (id : DeclId) : DeclId.ofJson? id.toJson = some id := by
  simp [DeclId.ofJson?, DeclId.toJson]

/-- What is said of a synonym is read back. -/
theorem SynonymInfo.ofJson?_toJson (info : SynonymInfo) :
    SynonymInfo.ofJson? info.toJson = some info := by
  simp [SynonymInfo.ofJson?, SynonymInfo.toJson, Json.texts?_strings]

/-- The kind of an import is known by its name. -/
theorem ImportKind.ofName?_name (kind : ImportKind) : ImportKind.ofName? kind.name = some kind := by
  cases kind <;> rfl

/-- The kind of a symbol is known by its name. -/
theorem SymbolKind.ofName?_name (kind : SymbolKind) : SymbolKind.ofName? kind.name = some kind := by
  cases kind <;> rfl

/-- A container is decoded as soon as the key of a map is. -/
theorem TypeLayer.ofJsonWith?_toJson {key? : Json → Option TypeUse} {layer : TypeLayer}
    (hkey : ∀ key, layer = .map key → key? key.toJson = some key) :
    TypeLayer.ofJsonWith? key? layer.toJson = some layer := by
  cases layer with
  | pointer => rfl
  | slice => rfl
  | chan => rfl
  | array len =>
    rw [TypeLayer.ofJsonWith?, TypeLayer.toJson, Json.tagged?_cons "array" (by simp)]
    simp
  | map key =>
    rw [TypeLayer.ofJsonWith?, TypeLayer.toJson, Json.tagged?_cons "map" (by simp)]
    simp [hkey key rfl]

/-- Layers are written one by one. -/
theorem TypeLayer.listToJson_eq_map (layers : List TypeLayer) :
    TypeLayer.listToJson layers = layers.map TypeLayer.toJson := by
  induction layers with
  | nil => rfl
  | cons layer layers ih => rw [TypeLayer.listToJson, ih, List.map_cons]

/-- A use is decoded as soon as its containers are. -/
theorem TypeUse.ofJsonWith?_toJson {layer? : Json → Option TypeLayer} {use : TypeUse}
    (hlayers : ∀ layer ∈ use.layers, layer? layer.toJson = some layer) :
    TypeUse.ofJsonWith? layer? use.toJson = some use := by
  obtain ⟨name, baseName, packagePath, packageName, description, importKind, isBuiltin,
    isByReference, symbolKind, synonym, layers⟩ := use
  have hlist : Json.list? layer? (.array (TypeLayer.listToJson layers)) = some layers := by
    rw [TypeLayer.listToJson_eq_map]
    exact Json.list?_map hlayers
  have hinfo : ∀ info : SynonymInfo, SynonymInfo.ofJson? info.toJson = some info :=
    SynonymInfo.ofJson?_toJson
  simp only [SynonymInfo.toJson] at hinfo
  rw [TypeUse.ofJsonWith?, TypeUse.toJson, Json.record?_object]
  · rw [Option.bind_eq_bind, Option.bind_some]
    cases synonym <;>
      simp only [Json.Record.field?, Json.Record.optional?, List.find?_cons, String.reduceBEq,
        Option.map_some, Option.bind_eq_bind, Option.bind_some, Json.text?, Json.bool?,
        Json.choice?, Json.ofOption, SynonymInfo.toJson, ImportKind.ofName?_name,
        SymbolKind.ofName?_name, hinfo, hlist]
  · decide
  · rfl

/-- The use of a type is written as a record, with its layers among the members. -/
theorem TypeUse.exists_toJson_eq (use : TypeUse) : ∃ members, use.toJson = .object members ∧
    ("layers", .array (TypeLayer.listToJson use.layers)) ∈ members := by
  obtain ⟨name, baseName, packagePath, packageName, description, importKind, isBuiltin,
    isByReference, symbolKind, synonym, layers⟩ := use
  rw [TypeUse.toJson]
  exact ⟨_, rfl, by simp⟩

/-- The key of a map among the containers of a use is less deep than the use. -/
theorem TypeUse.depth_key_lt {use key : TypeUse} (h : TypeLayer.map key ∈ use.layers) :
    key.toJson.depth < use.toJson.depth := by
  have hkey : key.toJson.depth < (TypeLayer.map key).toJson.depth := by
    rw [TypeLayer.toJson]
    exact Json.depth_lt_of_mem_members (m := ("key", key.toJson)) (by simp)
  have hlayer : (TypeLayer.map key).toJson.depth <
      (Json.array (TypeLayer.listToJson use.layers)).depth := by
    apply Json.depth_lt_of_mem
    rw [TypeLayer.listToJson_eq_map]
    exact List.mem_map_of_mem h
  obtain ⟨members, huse, hmem⟩ := use.exists_toJson_eq
  have hmember := Json.depth_lt_of_mem_members hmem
  rw [huse]
  exact hkey.trans (hlayer.trans hmember)

/-- The use of a type is read back with fuel for as many levels as it has. -/
theorem TypeUse.ofJsonWithin?_toJson {fuel : Nat} {use : TypeUse} (h : use.toJson.depth < fuel) :
    TypeUse.ofJsonWithin? fuel use.toJson = some use := by
  induction fuel generalizing use with
  | zero => omega
  | succ fuel ih =>
    rw [TypeUse.ofJsonWithin?]
    apply TypeUse.ofJsonWith?_toJson
    intro layer hlayer
    apply TypeLayer.ofJsonWith?_toJson
    rintro key rfl
    have hkey := TypeUse.depth_key_lt hlayer
    exact ih (by omega)

/-- The use of a type is read back. -/
theorem TypeUse.ofJson?_toJson (use : TypeUse) : TypeUse.ofJson? use.toJson = some use :=
  TypeUse.ofJsonWithin?_toJson (Nat.lt_succ_self _)

/-- The metadata of a field is read back. -/
theorem FieldMetadata.ofJson?_toJson (f : FieldMetadata) :
    FieldMetadata.ofJson? f.toJson = some f := by
  obtain ⟨name, wireName, type, description, validator, deprecated, embedded⟩ := f
  cases validator <;>
    simp [FieldMetadata.ofJson?, FieldMetadata.toJson, TypeUse.ofJson?_toJson]

/-- The metadata of a struct is read back from its members. -/
theorem StructMetadata.ofJson?_members (s : StructMetadata) :
    StructMetadata.ofJson? (.object s.members) = some s := by
  have hfields : Json.list? FieldMetadata.ofJson? (.array (s.fields.map FieldMetadata.toJson)) =
      some s.fields := Json.list?_map fun f _ => f.ofJson?_toJson
  simp [StructMetadata.ofJson?, StructMetadata.members, DeclId.ofJson?_toJson, hfields]

/-- The metadata of a value of an enum is read back. -/
theorem EnumValueMetadata.ofJson?_toJson (v : EnumValueMetadata) :
    EnumValueMetadata.ofJson? v.toJson = some v := by
  simp [EnumValueMetadata.ofJson?, EnumValueMetadata.toJson]

/-- The metadata of an enum is read back from its members. -/
theorem EnumMetadata.ofJson?_members (e : EnumMetadata) :
    EnumMetadata.ofJson? (.object e.members) = some e := by
  have hvalues : Json.list? EnumValueMetadata.ofJson?
      (.array (e.values.map EnumValueMetadata.toJson)) = some e.values :=
    Json.list?_map fun v _ => v.ofJson?_toJson
  simp [EnumMetadata.ofJson?, EnumMetadata.members, DeclId.ofJson?_toJson, hvalues]

/-- The metadata of a synonym is read back from its members. -/
theorem SynonymMetadata.ofJson?_members (a : SynonymMetadata) :
    SynonymMetadata.ofJson? (.object a.members) = some a := by
  simp [SynonymMetadata.ofJson?, SynonymMetadata.members, DeclId.ofJson?_toJson,
    TypeUse.ofJson?_toJson]

/-- The metadata of a model is read back. -/
theorem ModelMetadata.ofJson?_toJson (m : ModelMetadata) :
    ModelMetadata.ofJson? m.toJson = some m := by
  cases m with
  | struct s =>
    rw [ModelMetadata.ofJson?, ModelMetadata.toJson,
      Json.tagged?_cons "struct" (by simp [StructMetadata.members])]
    simp [StructMetadata.ofJson?_members]
  | enum e =>
    rw [ModelMetadata.ofJson?, ModelMetadata.toJson,
      Json.tagged?_cons "enum" (by simp [EnumMetadata.members])]
    simp [EnumMetadata.ofJson?_members]
  | synonym a =>
    rw [ModelMetadata.ofJson?, ModelMetadata.toJson,
      Json.tagged?_cons "alias" (by simp [SynonymMetadata.members])]
    simp [SynonymMetadata.ofJson?_members]

/-- The version of a file is read back if its time fits a word. -/
theorem FileVersion.ofJson?_toJson {v : FileVersion} (h : v.modified < UInt64.size) :
    FileVersion.ofJson? v.toJson = some v := by
  simp [FileVersion.ofJson?, FileVersion.toJson, Json.nat, Json.word?, h]

/-- An entry is read back if its time fits a word. -/
theorem CacheEntry.ofJson?_toJson {e : CacheEntry} (h : e.version.modified < UInt64.size) :
    CacheEntry.ofJson? e.toJson = some e := by
  simp [CacheEntry.ofJson?, CacheEntry.toJson, DeclId.ofJson?_toJson,
    ModelMetadata.ofJson?_toJson, FileVersion.ofJson?_toJson h]

end Decoding

/-! ## Encodings can be written and read -/

/-- An identity is written without other numbers than words. -/
theorem DeclId.whole_toJson (id : DeclId) : id.toJson.Whole := by
  simp [DeclId.toJson]

/-- What is said of a synonym is written without other numbers than words. -/
theorem SynonymInfo.whole_toJson (info : SynonymInfo) : info.toJson.Whole := by
  simp [SynonymInfo.toJson, Json.strings]

mutual

/-- A layer is written without other numbers than words. -/
theorem TypeLayer.whole_toJson (layer : TypeLayer) : layer.toJson.Whole := by
  cases layer with
  | map key =>
    have hkey := key.whole_toJson
    simp [TypeLayer.toJson, hkey]
  | _ => simp [TypeLayer.toJson]

/-- Layers are written without other numbers than words. -/
theorem TypeLayer.whole_listToJson (layers : List TypeLayer) :
    ∀ j ∈ TypeLayer.listToJson layers, j.Whole := by
  cases layers with
  | nil => simp [TypeLayer.listToJson]
  | cons layer layers =>
    have hfirst := layer.whole_toJson
    have hrest := TypeLayer.whole_listToJson layers
    simpa [TypeLayer.listToJson, hfirst] using hrest

/-- The use of a type is written without other numbers than words. -/
theorem TypeUse.whole_toJson (use : TypeUse) : use.toJson.Whole := by
  cases use with
  | mk _ _ _ _ _ _ _ _ _ synonym layers =>
    have hlayers := TypeLayer.whole_listToJson layers
    have hsynonym : (Json.ofOption SynonymInfo.toJson synonym).Whole := by
      cases synonym with
      | none => exact .null
      | some info => exact info.whole_toJson
    simpa [TypeUse.toJson, hsynonym] using hlayers

end

/-- The metadata of a field is written without other numbers than words. -/
theorem FieldMetadata.whole_toJson (f : FieldMetadata) : f.toJson.Whole := by
  have hvalidator : (Json.ofOption Json.string f.validator).Whole := by
    cases f.validator with
    | none => exact .null
    | some text => exact .string text
  simp [FieldMetadata.toJson, f.type.whole_toJson, hvalidator]

/-- The metadata of a value of an enum is written without other numbers than words. -/
theorem EnumValueMetadata.whole_toJson (v : EnumValueMetadata) : v.toJson.Whole := by
  simp [EnumValueMetadata.toJson]

/-- The metadata of a model is written without other numbers than words. -/
theorem ModelMetadata.whole_toJson (m : ModelMetadata) : m.toJson.Whole := by
  cases m with
  | struct s =>
    simp [ModelMetadata.toJson, StructMetadata.members, s.id.whole_toJson,
      FieldMetadata.whole_toJson]
  | enum e =>
    simp [ModelMetadata.toJson, EnumMetadata.members, e.id.whole_toJson,
      EnumValueMetadata.whole_toJson]
  | synonym a =>
    simp [ModelMetadata.toJson, SynonymMetadata.members, a.id.whole_toJson,
      a.underlying.whole_toJson]

/-- An entry is written without other numbers than words if its time fits one. -/
theorem CacheEntry.whole_toJson {e : CacheEntry} (h : e.version.modified < UInt64.size) :
    e.toJson.Whole := by
  simp [CacheEntry.toJson, FileVersion.toJson, e.id.whole_toJson, e.metadata.whole_toJson, h]

end RouteAtlas
