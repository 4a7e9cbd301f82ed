import RouteAtlas.Diagnostic.Entity
import Mathlib

/-!
# Severities in trees

The findings of a tree are gone through again and again: to put them in lists by severity, to look
for an error, to count, and to write the summary of a failure, which passes over the parts of a tree
that have none. All of this is said about two views, the findings of a tree (`findings`) and its
entities with their depths (`entities`), both in the order of a search that goes into depth first.
So whether an analysis fails does not depend on who asks, and its summary leaves nothing out
(`gating_lossless`).
-/

set_option autoImplicit false

namespace RouteAtlas

/-! ## Findings by severity -/

namespace ClassifiedFindings

/-- One more finding comes behind those of its severity, and changes no other list. -/
theorem ofSeverity_add (c : ClassifiedFindings) (d : Diagnostic) (s : Severity) :
    (c.add d).ofSeverity s = c.ofSeverity s ++ [d].filter (·.severity == s) := by
  cases hd : d.severity <;> cases s <;> simp [add, ofSeverity, hd]

/-- Adding diagnostics appends each to the list of its severity. -/
theorem ofSeverity_foldl_add (c : ClassifiedFindings) (ds : List Diagnostic) (s : Severity) :
    (ds.foldl add c).ofSeverity s = c.ofSeverity s ++ ds.filter (·.severity == s) := by
  induction ds generalizing c with
  | nil => simp
  | cons d ds ih =>
    rw [List.foldl_cons, ih, ofSeverity_add, List.append_assoc, ← List.filter_append,
      List.singleton_append]

end ClassifiedFindings

namespace DiagnosticEntity

mutual

/-- Collecting an entity appends its findings of each severity. -/
theorem ofSeverity_collectInto (out : ClassifiedFindings) (s : Severity) :
    (e : DiagnosticEntity) → (collectInto out e).ofSeverity s =
      out.ofSeverity s ++ e.findings.filter (·.severity == s)
  | ⟨_, _, _, diagnostics, children⟩ => by
    rw [collectInto, ofSeverity_collectAllInto, ClassifiedFindings.ofSeverity_foldl_add, findings,
      List.filter_append, List.append_assoc]

/-- The findings of several trees come behind those that were there. -/
theorem ofSeverity_collectAllInto (out : ClassifiedFindings) (s : Severity) :
    (es : List DiagnosticEntity) → (collectAllInto out es).ofSeverity s =
      out.ofSeverity s ++ (findingsOfAll es).filter (·.severity == s)
  | [] => by simp [collectAllInto, findingsOfAll]
  | e :: rest => by
    rw [collectAllInto, ofSeverity_collectAllInto, ofSeverity_collectInto, findingsOfAll,
      List.filter_append, List.append_assoc]

end

/-- The findings of one severity are those among all findings of the tree, in their order. -/
theorem ofSeverity_eq (e : DiagnosticEntity) (s : Severity) :
    e.ofSeverity s = e.findings.filter (·.severity == s) := by
  rw [ofSeverity, classify, ofSeverity_collectInto]
  cases s <;> rfl

/-- The errors of an entity are its findings of that severity. -/
theorem errors_classify (e : DiagnosticEntity) :
    e.classify.errors = e.findings.filter (·.severity == .error) :=
  e.ofSeverity_eq .error

/-- Each finding is in one of the four lists, and in no other. -/
theorem perm_classify (e : DiagnosticEntity) :
    (e.classify.errors ++ e.classify.warnings ++ e.classify.infos ++ e.classify.hints).Perm
      e.findings := by
  have hcount : ∀ (d : Diagnostic) (s : Severity), (e.ofSeverity s).count d =
      if d.severity = s then e.findings.count d else 0 := by
    intro d s
    rw [ofSeverity_eq]
    split
    · rename_i hs
      exact List.count_filter (by simpa using hs)
    · rename_i hs
      exact List.count_eq_zero.2 fun hd => hs (by simpa using (List.mem_filter.1 hd).2)
  rw [List.perm_iff_count]
  intro d
  have hsum : ∀ c : ClassifiedFindings,
      c.errors ++ c.warnings ++ c.infos ++ c.hints =
        c.ofSeverity .error ++ c.ofSeverity .warning ++ c.ofSeverity .info ++
          c.ofSeverity .hint := fun _ => rfl
  rw [hsum, List.count_append, List.count_append, List.count_append]
  have h := hcount d
  simp only [ofSeverity] at h
  rw [h, h, h, h]
  cases d.severity <;> simp

mutual

/-- An entity has errors if one of its findings is an error. -/
theorem hasErrors_eq : (e : DiagnosticEntity) →
    e.hasErrors = e.findings.any (·.severity == .error)
  | ⟨_, _, _, diagnostics, children⟩ => by
    rw [hasErrors, anyHasErrors_eq, findings, List.any_append]

/-- Some entities have errors if one of their findings is an error. -/
theorem anyHasErrors_eq : (es : List DiagnosticEntity) →
    anyHasErrors es = (findingsOfAll es).any (·.severity == .error)
  | [] => rfl
  | e :: rest => by
    rw [anyHasErrors, hasErrors_eq, anyHasErrors_eq, findingsOfAll, List.any_append]

end

/-- Some entities have errors if one of them does. -/
theorem anyHasErrors_iff (es : List DiagnosticEntity) :
    anyHasErrors es = true ↔ ∃ e ∈ es, e.hasErrors = true := by
  induction es with
  | nil => simp [anyHasErrors]
  | cons e rest ih => simp [anyHasErrors, ih]

/-! ## The entities of a tree -/

mutual

/-- The entities of a tree with their depths, each before those below it. -/
def entities (depth : Nat) : DiagnosticEntity → List (Nat × DiagnosticEntity)
  | ⟨kind, name, file, diagnostics, children⟩ =>
    (depth, ⟨kind, name, file, diagnostics, children⟩) :: entitiesOfAll (depth + 1) children

/-- The entities of several trees with their depths. -/
def entitiesOfAll (depth : Nat) : List DiagnosticEntity → List (Nat × DiagnosticEntity)
  | [] => []
  | e :: rest => entities depth e ++ entitiesOfAll depth rest

end

mutual

/-- The findings of a tree are those of its entities, one entity after the other. -/
theorem flatMap_entities (depth : Nat) : (e : DiagnosticEntity) →
    (e.entities depth).flatMap (·.2.diagnostics) = e.findings
  | ⟨_, _, _, diagnostics, children⟩ => by
    rw [entities, List.flatMap_cons, flatMap_entitiesOfAll, findings]

/-- The diagnostics of all entities in some trees are the findings of these trees. -/
theorem flatMap_entitiesOfAll (depth : Nat) : (es : List DiagnosticEntity) →
    (entitiesOfAll depth es).flatMap (·.2.diagnostics) = findingsOfAll es
  | [] => rfl
  | e :: rest => by
    rw [entitiesOfAll, List.flatMap_append, flatMap_entities, flatMap_entitiesOfAll, findingsOfAll]

end

mutual

/-- The findings of an entity in a tree stand in their order among those of the tree. -/
theorem findings_sublist (depth : Nat) : (e : DiagnosticEntity) → ∀ x ∈ e.entities depth,
    x.2.findings.Sublist e.findings
  | ⟨kind, name, file, diagnostics, children⟩, x, hx => by
    rw [entities] at hx
    rcases List.mem_cons.1 hx with rfl | hx
    · exact List.Sublist.refl _
    · rw [findings]
      exact (findings_sublist_ofAll (depth + 1) children x hx).trans
        (List.sublist_append_right _ _)

/-- The findings of a tree inside another are among those of the whole. -/
theorem findings_sublist_ofAll (depth : Nat) : (es : List DiagnosticEntity) →
    ∀ x ∈ entitiesOfAll depth es, x.2.findings.Sublist (findingsOfAll es)
  | [], x, hx => by simp [entitiesOfAll] at hx
  | e :: rest, x, hx => by
    rw [entitiesOfAll] at hx
    rw [findingsOfAll]
    rcases List.mem_append.1 hx with hx | hx
    · exact (findings_sublist depth e x hx).trans (List.sublist_append_left _ _)
    · exact (findings_sublist_ofAll depth rest x hx).trans (List.sublist_append_right _ _)

end

end DiagnosticEntity

/-! ## Totals -/

namespace Totals

/-- How many findings of each severity there are in a list. -/
def ofFindings (ds : List Diagnostic) : Totals where
  errors := ds.countP (·.severity == .error)
  warnings := ds.countP (·.severity == .warning)
  infos := ds.countP (·.severity == .info)
  hints := ds.countP (·.severity == .hint)

/-- The totals of two lists add up. -/
theorem ofFindings_append (ds ds' : List Diagnostic) :
    ofFindings (ds ++ ds') = (ofFindings ds).add (ofFindings ds') := by
  simp [ofFindings, add]

/-- The totals of an entity are those of its findings. -/
theorem ofEntity_eq (e : DiagnosticEntity) : ofEntity e = ofFindings e.findings := by
  have hlength : ∀ s, (e.classify.ofSeverity s).length = e.findings.countP (·.severity == s) := by
    intro s
    rw [List.countP_eq_length_filter, ← e.ofSeverity_eq s]
    rfl
  have herrors := hlength .error
  have hwarnings := hlength .warning
  have hinfos := hlength .info
  have hhints := hlength .hint
  simp only [ClassifiedFindings.ofSeverity] at herrors hwarnings hinfos hhints
  rw [ofEntity, ofClassified, herrors, hwarnings, hinfos, hhints, ofFindings]

/-- Adding up the totals of trees counts all their findings. -/
theorem ofEntities_eq (es : List DiagnosticEntity) :
    ofEntities es = ofFindings (DiagnosticEntity.findingsOfAll es) := by
  -- What has been added up so far are the totals of some findings.
  have hfoldl : ∀ (ds : List Diagnostic),
      es.foldl (fun acc e => acc.add (ofEntity e)) (ofFindings ds) =
        ofFindings (ds ++ DiagnosticEntity.findingsOfAll es) := by
    induction es with
    | nil => simp [DiagnosticEntity.findingsOfAll]
    | cons e rest ih =>
      intro ds
      rw [List.foldl_cons, ofEntity_eq, ← ofFindings_append, ih, List.append_assoc,
        DiagnosticEntity.findingsOfAll]
  exact hfoldl []

/-- The errors that are counted are the findings of that severity. -/
theorem errors_ofEntities (es : List DiagnosticEntity) :
    (ofEntities es).errors =
      (DiagnosticEntity.findingsOfAll es).countP (·.severity == .error) := by
  rw [ofEntities_eq]
  rfl

/-- Findings of no severity are no findings. -/
theorem total_ofFindings_eq_zero_iff (ds : List Diagnostic) :
    (ofFindings ds).total = 0 ↔ ds = [] := by
  constructor
  · intro h
    rw [List.eq_nil_iff_forall_not_mem]
    intro d hd
    have hpos : 0 < ds.countP (·.severity == d.severity) :=
      List.countP_pos_iff.2 ⟨d, hd, by simp⟩
    simp only [total, ofFindings] at h
    cases hs : d.severity <;> rw [hs] at hpos <;> omega
  · rintro rfl
    rfl

end Totals

/-! ## Failures and their summaries -/

namespace ValidationFailure

/-- What a summary says about an entity: how many findings of each severity there are in its tree,
and a line about each of its own. -/
def entry (depth : Nat) (e : DiagnosticEntity) : String :=
  "\n" ++ indent depth ++ e.kind.label ++ " " ++ e.name ++ ": " ++
    (Totals.ofFindings e.findings).render ++
    String.join (e.diagnostics.map (findingLine depth e.file))

/-- What is said about those among some entities that have findings in their trees. -/
def entries (l : List (Nat × DiagnosticEntity)) : List String :=
  (l.filter fun x => x.2.findings ≠ []).map fun x => entry x.1 x.2

/-- The entries of two lists stand one behind the other. -/
theorem entries_append (l l' : List (Nat × DiagnosticEntity)) :
    entries (l ++ l') = entries l ++ entries l' := by
  simp [entries]

/-- A tree without findings has no entries at all. -/
theorem entries_eq_nil {e : DiagnosticEntity} (h : e.findings = []) (depth : Nat) :
    entries (e.entities depth) = [] := by
  rw [entries, List.map_eq_nil_iff, List.filter_eq_nil_iff]
  intro x hx
  have hsublist := e.findings_sublist depth x hx
  rw [h, List.sublist_nil] at hsublist
  simp [hsublist]

mutual

/-- The lines about an entity are the entries of the entities in its tree. -/
theorem entityLines_eq (depth : Nat) : (e : DiagnosticEntity) →
    entityLines depth e = String.join (entries (e.entities depth))
  | ⟨kind, name, file, diagnostics, children⟩ => by
    rw [entityLines, Totals.ofEntity_eq]
    by_cases hnone : (⟨kind, name, file, diagnostics, children⟩ : DiagnosticEntity).findings = []
    -- The text stops at a tree without findings, and the entities below have none either.
    · rw [if_pos ((Totals.total_ofFindings_eq_zero_iff _).2 hnone), entries_eq_nil hnone]
      rfl
    · have hhere : entries ((depth, ⟨kind, name, file, diagnostics, children⟩) ::
            DiagnosticEntity.entitiesOfAll (depth + 1) children) =
          entry depth ⟨kind, name, file, diagnostics, children⟩ ::
            entries (DiagnosticEntity.entitiesOfAll (depth + 1) children) := by
        simp [entries, hnone]
      rw [if_neg (mt (Totals.total_ofFindings_eq_zero_iff _).1 hnone), childLines_eq,
        DiagnosticEntity.entities, hhere, String.join_cons, entry]

/-- The lines about children are the entries of the entities in their trees. -/
theorem childLines_eq (depth : Nat) : (es : List DiagnosticEntity) →
    childLines depth es = String.join (entries (DiagnosticEntity.entitiesOfAll depth es))
  | [] => rfl
  | e :: rest => by
    rw [childLines, entityLines_eq, childLines_eq, DiagnosticEntity.entitiesOfAll, entries_append,
      String.join_append]

end

/-- The errors of a failure are added up tree by tree. -/
theorem foldl_errors_eq (n : Nat) (es : List DiagnosticEntity) :
    es.foldl (fun n e => n + e.classify.errors.length) n =
      n + (DiagnosticEntity.findingsOfAll es).countP (·.severity == .error) := by
  induction es generalizing n with
  | nil => rfl
  | cons e rest ih =>
    rw [List.foldl_cons, ih, e.errors_classify, ← List.countP_eq_length_filter, Nat.add_assoc,
      ← List.countP_append, DiagnosticEntity.findingsOfAll]

/-- There is a failure if errors are counted, with their number and their entries in its summary. -/
theorem ofEntities?_eq (es : List DiagnosticEntity) :
    ofEntities? es =
      if (Totals.ofEntities es).errors = 0 then none
      else some
        { summary := "validation failed with " ++ toString (Totals.ofEntities es).errors ++
            " error(s)" ++ String.join (entries (DiagnosticEntity.entitiesOfAll 1 es))
          errorCount := (Totals.ofEntities es).errors } := by
  rw [ofEntities?, foldl_errors_eq, Nat.zero_add, Totals.errors_ofEntities, childLines_eq]

/-- There is a failure if errors are counted. -/
theorem isSome_ofEntities?_iff (es : List DiagnosticEntity) :
    (ofEntities? es).isSome = true ↔ 0 < (Totals.ofEntities es).errors := by
  rw [ofEntities?_eq, Nat.pos_iff_ne_zero]
  split
  · rename_i hzero
    simp [hzero]
  · rename_i hne
    simp [hne]

/-! ## The theorem -/

/-- Putting the findings of a tree in lists by severity loses none, doubles none and keeps their
order, which is that of the entities of the tree. Whether some trees fail can be told from any of
four things: an error is found in one of them, one of the lists of errors is not empty, the totals
count an error, there is a failure. A failure counts the errors of all trees, and its summary has
one entry for each entity with findings in its tree, in their order, and no other. -/
theorem gating_lossless (es : List DiagnosticEntity) :
    (∀ (e : DiagnosticEntity) (depth : Nat),
      (∀ s, e.classify.ofSeverity s = e.findings.filter (·.severity == s)) ∧
      (e.classify.errors ++ e.classify.warnings ++ e.classify.infos ++ e.classify.hints).Perm
        e.findings ∧
      (e.entities depth).flatMap (·.2.diagnostics) = e.findings) ∧
    [∃ e ∈ es, e.hasErrors = true, ∃ e ∈ es, e.classify.errors ≠ [],
      0 < (Totals.ofEntities es).errors, (ofEntities? es).isSome = true].TFAE ∧
    ∀ failure, ofEntities? es = some failure →
      failure.errorCount = (DiagnosticEntity.findingsOfAll es).countP (·.severity == .error) ∧
      failure.summary = "validation failed with " ++ toString failure.errorCount ++ " error(s)" ++
        String.join (((DiagnosticEntity.entitiesOfAll 1 es).filter fun x => x.2.findings ≠ []).map
          fun x => entry x.1 x.2) := by
  refine ⟨fun e depth => ⟨e.ofSeverity_eq, e.perm_classify, e.flatMap_entities depth⟩, ?_, ?_⟩
  · have hany : ∀ e : DiagnosticEntity, e.hasErrors = true ↔ e.classify.errors ≠ [] := by
      intro e
      rw [e.hasErrors_eq, e.errors_classify, List.any_eq_true, ne_eq, List.filter_eq_nil_iff]
      simp
    tfae_have 1 ↔ 2 := by simp only [hany]
    tfae_have 1 ↔ 3 := by
      rw [Totals.errors_ofEntities, List.countP_pos_iff, ← DiagnosticEntity.anyHasErrors_iff,
        DiagnosticEntity.anyHasErrors_eq, List.any_eq_true]
    tfae_have 3 ↔ 4 := (isSome_ofEntities?_iff es).symm
    tfae_finish
  · intro failure hfailure
    rw [ofEntities?_eq] at hfailure
    split at hfailure
    · cases hfailure
    · cases hfailure
      exact ⟨Totals.errors_ofEntities es, rfl⟩

end ValidationFailure

end RouteAtlas
