import RouteAtlas.Graph.Node
import RouteAtlas.Route.Path

/-!
# Binding parameters

A directive binds the parameter it names to a place in requests. The first directive that names a
parameter counts; later ones, directives that name none, parameters that none names, and
disagreements with the placeholders of the path are noted. A context is never bound.
-/

set_option autoImplicit false

namespace RouteAtlas.Route

/-- Whether a directive with this value names a parameter. -/
def names (target : String) (p : ParamNode) : Bool := !p.isContext && p.name == target

def bound (location : ParamLocation) (a : Directive) (p : ParamNode) : ParamNode :=
  { p with
    location := some location
    wireName := (a.optionText? "name").getD p.name
    validator := a.optionText? "validate"
    description := a.description
    directiveSpan := some a.span }

/-- A parameter after a directive with a value, which binds it if it names it and no earlier one
did. -/
def bindIfNamed (location : ParamLocation) (a : Directive) (target : String) (p : ParamNode) :
    ParamNode :=
  if names target p && p.location.isNone then bound location a p else p

/-- Parameters on the way of being bound, and what was noted. -/
structure Binding where
  params : List ParamNode
  unknownRefs : List LinkIssue := []
  duplicateRefs : List LinkIssue := []

/-- The parameters after one more directive. -/
def Binding.step (b : Binding) (entry : ParamLocation × Directive) : Binding :=
  let (location, a) := entry
  match a.value with
  | none => b
  | some target =>
    let issue : LinkIssue := ⟨target, a.valueOrSpan⟩
    if b.params.any (names target) then
      { b with
        params := b.params.map (bindIfNamed location a target)
        duplicateRefs := b.duplicateRefs ++
          (b.params.filter fun p => names target p && p.location.isSome).map fun _ => issue }
    else { b with unknownRefs := b.unknownRefs ++ [issue] }

/-- The parameters bound by the directives of a route. -/
def bindAll (set : DirectiveSet) (params : List ParamNode) : Binding :=
  set.locations.foldl Binding.step ⟨params, [], []⟩

def inPath (p : ParamNode) : Bool := p.location == some .path

/-- Binds the parameters of a route with a path to the places its directives tell. Findings about
placeholders point at `pathSpan`. -/
def linkParameters (fullPath : String) (pathSpan : Span) (set : DirectiveSet)
    (params : List ParamNode) : List ParamNode × Linkage :=
  let b := bindAll set params
  let slots := placeholders fullPath
  let unreferenced := b.params.filter fun p => !p.isContext && p.location.isNone
  let missing := slots.filter fun slot => !b.params.any fun p => inPath p && p.wireName == slot
  let outside := (b.params.filter inPath).filter fun p => !slots.contains p.wireName
  (b.params,
    { missingPathRefs := missing.map fun slot => ⟨slot, pathSpan⟩
      unreferenced := unreferenced.map fun p => ⟨p.name, p.span⟩
      unknownRefs := b.unknownRefs
      duplicateRefs := b.duplicateRefs
      notInRoute := outside.map fun p => ⟨p.wireName, p.directiveSpan.getD p.span⟩ })

end RouteAtlas.Route
