import RouteAtlas.Build.Graph
import RouteAtlas.Proofs.Sorting

/-!
# The order of the files

A build visits controllers in the order of their identities. As long as no two of them share one,
this order does not depend on the order in which the files were given, so the whole build does not
depend on it either (`buildGraph_perm`): the nodes, the failures and the cache are the same.
-/

set_option autoImplicit false

namespace RouteAtlas

namespace Config

variable (config : Config) (importPathOf : PathName → String)

/-- The controllers that some files declare, as they stand in the files. -/
def declaredControllers (files : List SourceFile) : List ControllerDecl :=
  files.flatMap fun f => (f.types.filter config.isController).map fun d =>
    ⟨⟨importPathOf f.path, d.name⟩, f, d⟩

variable {config importPathOf} {files files' : List SourceFile}

/-- The controllers that are built are those that are declared. -/
theorem perm_controllersIn :
    (config.controllersIn importPathOf files).Perm
      (config.declaredControllers importPathOf files) :=
  Sorting.perm_sorted _ _

/-- Controllers are built in the order of their identities. -/
theorem pairwise_controllersIn :
    (config.controllersIn importPathOf files).Pairwise fun a b => a.id.le b.id = true := by
  have htotal : ∀ a b : ControllerDecl, a.id.le b.id = true ∨ b.id.le a.id = true :=
    fun a b => DeclId.total_le a.id b.id
  exact Sorting.pairwise_sorted (fun a b c => DeclId.trans_le a.id b.id c.id) htotal _

/-- The order of the files decides at most the order of the declared controllers. -/
theorem perm_declaredControllers (hperm : files.Perm files') :
    (config.declaredControllers importPathOf files).Perm
      (config.declaredControllers importPathOf files') :=
  hperm.flatMap_right _

/-- Controllers with different identities are visited in one order only. -/
theorem controllersIn_perm (hperm : files.Perm files')
    (hids : ((config.declaredControllers importPathOf files).map (·.id)).Nodup) :
    config.controllersIn importPathOf files = config.controllersIn importPathOf files' := by
  have hsame : (config.declaredControllers importPathOf files).Perm
      (config.controllersIn importPathOf files') :=
    (perm_declaredControllers hperm).trans perm_controllersIn.symm
  have hids' : (config.controllersIn importPathOf files').Pairwise fun a b => a.id ≠ b.id := by
    have hnodup := (hsame.map (·.id)).nodup_iff.1 hids
    exact List.pairwise_map.1 hnodup
  have hstrict : (config.controllersIn importPathOf files').Pairwise fun a b =>
      a.id.le b.id = true ∧ b.id.le a.id = false := by
    refine (pairwise_controllersIn.and hids').imp ?_
    rintro a b ⟨hle, hne⟩
    refine ⟨hle, Bool.eq_false_iff.2 fun hge => ?_⟩
    exact hne (DeclId.antisymm_le hle hge)
  have hsorted := Sorting.sorted_eq_of_perm
    (fun a b c : ControllerDecl => DeclId.trans_le a.id b.id c.id)
    (fun a b => DeclId.total_le a.id b.id) hsame hstrict
  unfold controllersIn
  exact hsorted

end Config

variable {source : PackageSource Id} {config : Config} {files files' : List SourceFile}

/-- Builds from the same files in another order give the same graph or the same failures, and leave
the same cache, if no two controllers in the files have the same identity. -/
theorem buildGraph_perm (hperm : files.Perm files')
    (hids : ((config.declaredControllers source.importPathOf files).map (·.id)).Nodup)
    (depth : Nat) (cache : MetadataCache) :
    buildGraph source depth config files cache = buildGraph source depth config files' cache := by
  unfold buildGraph
  rw [Config.controllersIn_perm hperm hids]

/-! ## A shop -/

namespace Shop

/-- The type that goes by a name in its own package. -/
def named (name : String) : TypeExpr := .named none name

/-- A field without a tag and without a comment. -/
def field (name : Option String) (type : TypeExpr) : FieldDecl := ⟨name, type, none, {}, {}⟩

/-- A method of a controller of the shop. -/
def method (receiver name doc : String) (params : List (String × TypeExpr))
    (results : List TypeExpr) : MethodDecl where
  name := name
  receiver := receiver
  pointerReceiver := true
  params := params.map fun p => ⟨some p.1, p.2, {}⟩
  results := results.map fun t => ⟨none, t, {}⟩
  doc := .ofText doc
  span := {}

/-- A controller with two routes, one of them hidden, and with two methods that are no routes. -/
def orders : SourceFile where
  path := ⟨"orders.go"⟩
  package := "shop"
  types :=
    [⟨"Orders", .struct [field none (named "ControllerBase")], {}, {}⟩,
     ⟨"Order", .struct [field (some "Parent") (.pointer (named "Order")),
        field (some "Lines") (.slice (named "Line")), field (some "State") (named "State")], {}, {}⟩]
  methods :=
    [method "Orders" "Get" "@Method(GET)\n@Route(/orders/\x7bid\x7d)\n@Path(id)"
       [("id", named "string")] [.pointer (named "Order"), named "error"],
     method "Orders" "purge" "@Method(DELETE)" [] [named "error"],
     method "Orders" "Count" "Counts the orders." [] [named "error"],
     method "Orders" "Drop" "@Method(DELETE)\n@Route(/orders)\n@Hidden" [] [named "error"]]

/-- A controller whose routes share types with the other one. -/
def lines : SourceFile where
  path := ⟨"lines.go"⟩
  package := "shop"
  types :=
    [⟨"Lines", .struct [field none (named "ControllerBase")], {}, {}⟩,
     ⟨"Line", .named (.map (named "string") (.pointer (named "Order"))), {}, {}⟩,
     ⟨"State", .named (named "int"), {}, {}⟩]
  methods :=
    [method "Lines" "List" "@Method(GET)\n@Route(/lines)"
       [("parent", .pointer (named "Order")), ("state", named "State")]
       [.slice (named "Line"), named "error"]]
  consts := [⟨"Open", some (named "State"), some "0", {}, {}⟩]

/-- The packages of the example. -/
def packages : PackageSource Id where
  origin := fun _ => .sameModule
  importPathOf := fun _ => "shop"
  package := fun path =>
    if path = "shop" then pure ⟨"shop", "shop", ⟨"."⟩, [lines, orders]⟩
    else throw (.packageLoad path "not a part of the shop")

end Shop

/-- It does not matter which file of the shop comes first. -/
theorem buildGraph_perm_shop :
    ((Config.declaredControllers {} Shop.packages.importPathOf [Shop.orders, Shop.lines]).map
        (·.id)).Nodup ∧
      (buildGraph Shop.packages 4 {} [Shop.orders, Shop.lines] {}).1.isOk = true ∧
      buildGraph Shop.packages 4 {} [Shop.orders, Shop.lines] {} =
        buildGraph Shop.packages 4 {} [Shop.lines, Shop.orders] {} := by
  have hids : ((Config.declaredControllers {} Shop.packages.importPathOf
      [Shop.orders, Shop.lines]).map (·.id)).Nodup := by
    decide +kernel
  exact ⟨hids, by decide +kernel, buildGraph_perm (.swap _ _ _) hids 4 {}⟩

end RouteAtlas
