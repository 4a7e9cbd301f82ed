import RouteAtlas.Proofs.Text.Pieces
import RouteAtlas.Source.Doc

/-!
# Comments directly above declarations

Which comments belong to a declaration is said here without going through the siblings one after
another. Of the comments between it and the declaration before it, those that begin on the line
where that one ends are out of the question. If the last of the others ends on the line above the
declaration, then the longest run of comments that they end with, each on the line below the one
before it, belongs to it, and otherwise nothing does (`Attached`).

Going through the siblings in the order of the source finds these comments (`docs_exact`). What a
step keeps is `Scanned`: the block that is held is that longest run for the siblings read so far.
-/

set_option autoImplicit false

namespace RouteAtlas.Source

variable {α : Type}

namespace Sibling

/-- Where a sibling stands. -/
def span : Sibling α → Span
  | .comment _ span => span
  | .node _ span => span

/-- The comment that a sibling is. -/
def comment? : Sibling α → Option Comment
  | .comment text span => some (text, span)
  | .node _ _ => none

/-- The declaration that a sibling is. -/
def node? : Sibling α → Option (α × Span)
  | .comment _ _ => none
  | .node content span => some (content, span)

end Sibling

/-- Siblings in the order of the source: none begins above the line where one before it ends. -/
structure InOrder (siblings : List (Sibling α)) : Prop where
  upright : ∀ s ∈ siblings, s.span.startLine ≤ s.span.endLine
  ordered : siblings.Pairwise fun s t => s.span.endLine ≤ t.span.startLine

/-- The declarations among some siblings. -/
def declared (siblings : List (Sibling α)) : List (α × Span) := siblings.filterMap Sibling.node?

/-- The comments among some siblings. -/
def commentsOf (siblings : List (Sibling α)) : List Comment :=
  siblings.filterMap Sibling.comment?

/-- The line where the last declaration among some siblings ends. -/
def lastLine? (front : List (Sibling α)) : Option Nat :=
  (declared front).getLast?.map (·.2.endLine)

/-- The comments behind the last declaration. -/
def behindLast (front : List (Sibling α)) : List Comment :=
  commentsOf (front.rtakeWhile (·.comment?.isSome))

/-- The comments that may belong to what follows some siblings: those behind the last declaration
that do not begin on the line where it ends. -/
def candidates (front : List (Sibling α)) : List Comment :=
  (behindLast front).filter fun c => lastLine? front != some c.2.startLine

/-- Comments each of which begins on the line below the one before it. -/
def Contiguous (run : List Comment) : Prop :=
  run.IsChain fun a b => a.2.endLine + 1 = b.2.startLine

/-- The longest contiguous run that some comments end with. -/
structure IsLastRun (comments run : List Comment) : Prop where
  suffix : run <:+ comments
  contiguous : Contiguous run
  longest : ∀ other, other <:+ comments → Contiguous other → other <:+ run

/-- Which of the comments in question belong to a declaration that begins on a line. -/
inductive Attached (comments : List Comment) (line : Nat) : List Comment → Prop
  | above {last : Comment} {run : List Comment} (hlast : comments.getLast? = some last)
      (hline : last.2.endLine + 1 = line) (hrun : IsLastRun comments run) :
      Attached comments line run
  | apart (h : ∀ last, comments.getLast? = some last → last.2.endLine + 1 ≠ line) :
      Attached comments line []

/-- The line that a comment behind two slashes gives: what stands behind them and one blank, up to
the carriage returns at its end. -/
structure Gives (c : Comment) (line : CommentLine) : Prop where
  text : ∃ blank returns, c.1.toList = '/' :: '/' :: (blank ++ (line.text.toList ++ returns)) ∧
    (blank = [' '] ∨ blank = [] ∧ (line.text.toList ++ returns).head? ≠ some ' ') ∧
    (∀ r ∈ returns, r = '\r') ∧ line.text.toList.getLast? ≠ some '\r' ∧
    line.span = c.2.sub (2 + blank.length) (Text.byteCount line.text.toList)

/-- A declaration with the doc comment that some comments make. -/
def documented (node : α × Span) (block : List Comment) : α × Span × DocComment :=
  (node.1, node.2, docOf block)

variable {front siblings : List (Sibling α)} {blocks : List (List Comment)}
  {comments block run : List Comment} {c : Comment} {content : α} {span : Span} {line : Nat}

/-! ## One more sibling -/

/-- A comment declares nothing. -/
@[simp]
theorem declared_concat_comment (front : List (Sibling α)) (c : Comment) :
    declared (front ++ [Sibling.comment c.1 c.2]) = declared front := by
  simp [declared, Sibling.node?]

/-- A declaration is declared behind those before it. -/
@[simp]
theorem declared_concat_node (front : List (Sibling α)) (content : α) (span : Span) :
    declared (front ++ [Sibling.node content span]) = declared front ++ [(content, span)] := by
  simp [declared, Sibling.node?]

/-- A comment stands behind those before it. -/
@[simp]
theorem commentsOf_concat_comment (front : List (Sibling α)) (c : Comment) :
    commentsOf (front ++ [Sibling.comment c.1 c.2]) = commentsOf front ++ [c] := by
  simp [commentsOf, Sibling.comment?]

/-- A declaration adds no comment. -/
@[simp]
theorem commentsOf_concat_node (front : List (Sibling α)) (content : α) (span : Span) :
    commentsOf (front ++ [Sibling.node content span]) = commentsOf front := by
  simp [commentsOf, Sibling.comment?]

/-- A comment leaves the last line of a declaration as it was. -/
theorem lastLine?_concat_comment (front : List (Sibling α)) (c : Comment) :
    lastLine? (front ++ [Sibling.comment c.1 c.2]) = lastLine? front := by
  rw [lastLine?, declared_concat_comment, lastLine?]

/-- Behind a declaration the last line is the one that it ends on. -/
theorem lastLine?_concat_node (front : List (Sibling α)) (content : α) (span : Span) :
    lastLine? (front ++ [Sibling.node content span]) = some span.endLine := by
  simp [lastLine?]

/-- A comment stands behind the last declaration with those before it. -/
theorem behindLast_concat_comment (front : List (Sibling α)) (c : Comment) :
    behindLast (front ++ [Sibling.comment c.1 c.2]) = behindLast front ++ [c] := by
  rw [behindLast, List.rtakeWhile_concat_pos _ _ _ rfl, commentsOf_concat_comment, behindLast]

/-- Behind a declaration stands no comment yet. -/
theorem behindLast_concat_node (front : List (Sibling α)) (content : α) (span : Span) :
    behindLast (front ++ [Sibling.node content span]) = [] := by
  rw [behindLast, List.rtakeWhile_concat_neg _ _ _ (by simp [Sibling.comment?])]
  rfl

/-- Behind a declaration there is no candidate for the next one yet. -/
theorem candidates_concat_node (front : List (Sibling α)) (content : α) (span : Span) :
    candidates (front ++ [Sibling.node content span]) = [] := by
  rw [candidates, behindLast_concat_node, List.filter_nil]

/-- A comment comes into question unless it begins where the last declaration ends. -/
theorem candidates_concat_comment (front : List (Sibling α)) (c : Comment) :
    candidates (front ++ [Sibling.comment c.1 c.2]) =
      if lastLine? front = some c.2.startLine then candidates front
      else candidates front ++ [c] := by
  rw [candidates, behindLast_concat_comment, lastLine?_concat_comment, List.filter_append]
  split
  · rename_i h
    simp [h, candidates]
  · rename_i h
    simp [h, candidates]

/-- Siblings in order are in order without the last one. -/
theorem InOrder.of_concat {s : Sibling α} (h : InOrder (front ++ [s])) : InOrder front :=
  ⟨fun t ht => h.upright t (List.mem_append_left [s] ht), (List.pairwise_append.1 h.ordered).1⟩

/-- The candidates are among the comments. -/
theorem mem_commentsOf_of_mem_candidates (h : c ∈ candidates front) : c ∈ commentsOf front :=
  ((List.rtakeWhile_suffix _ front).sublist.filterMap _).mem (List.mem_of_mem_filter h)

/-- A comment that may belong to what follows begins no higher than the last declaration ends. -/
theorem le_startLine_of_mem_candidates (h : InOrder front) (hc : c ∈ candidates front)
    (hlast : lastLine? front = some line) : line ≤ c.2.startLine := by
  induction front using List.reverseRecOn with
  | nil => cases hc
  | append_singleton front s ih =>
    cases s with
    | node content span =>
      rw [candidates_concat_node] at hc
      cases hc
    | comment text span =>
      have hrest := ih h.of_concat
      rw [lastLine?_concat_comment front (text, span)] at hlast
      rw [candidates_concat_comment front (text, span)] at hc
      split at hc
      · exact hrest hc hlast
      · rcases List.mem_append.1 hc with hc | hc
        · exact hrest hc hlast
        · obtain rfl : c = (text, span) := by simpa using hc
          obtain ⟨node, hnode, rfl⟩ := Option.map_eq_some_iff.1 hlast
          obtain ⟨s, hs, hnode⟩ := List.mem_filterMap.1 (List.mem_of_getLast? hnode)
          cases s with
          | comment text' span' => cases hnode
          | node content' span' =>
            cases hnode
            exact (List.pairwise_append.1 h.ordered).2.2 _ hs _ (List.mem_singleton_self _)

/-! ## The last run -/

/-- A run of comments stands just above a line if its last one ends on the line before. -/
theorem isJustAbove_iff : isJustAbove block line = true ↔
    ∃ last, block.getLast? = some last ∧ last.2.endLine + 1 = line := by
  unfold isJustAbove
  cases block.getLast? with
  | none => simp
  | some last => simp

/-- Without comments the last run is empty. -/
theorem isLastRun_nil : IsLastRun [] [] :=
  ⟨List.suffix_rfl, .nil, fun _ hother _ => hother⟩

/-- The last run ends with the last of the comments. -/
theorem IsLastRun.getLast?_eq (h : IsLastRun comments run) : run.getLast? = comments.getLast? := by
  rcases List.eq_nil_or_concat comments with rfl | ⟨init, c, rfl⟩
  · rw [List.suffix_nil.1 h.suffix]
  · rw [List.concat_eq_append] at h ⊢
    obtain ⟨before, rfl⟩ := h.longest [c] (List.suffix_append init [c]) (.singleton c)
    rw [List.getLast?_concat, List.getLast?_concat]

/-- A comment on the line below the last run goes on it. -/
theorem IsLastRun.concat (h : IsLastRun comments run)
    (hbelow : ∃ last, run.getLast? = some last ∧ last.2.endLine + 1 = c.2.startLine) :
    IsLastRun (comments ++ [c]) (run ++ [c]) := by
  obtain ⟨last, hlast, hline⟩ := hbelow
  refine ⟨?_, ?_, fun other hother hrun => ?_⟩
  · obtain ⟨before, rfl⟩ := h.suffix
    exact ⟨before, by simp⟩
  · refine List.isChain_append.2 ⟨h.contiguous, .singleton c, fun a ha b hb => ?_⟩
    rw [hlast] at ha
    cases ha
    cases hb
    exact hline
  · rcases List.suffix_concat_iff.1 hother with rfl | ⟨rest, rfl, hrest⟩
    · exact List.nil_suffix
    · obtain ⟨before, rfl⟩ := h.longest rest hrest (List.isChain_append.1 hrun).1
      exact ⟨before, by simp⟩

/-- A comment anywhere else begins a run of its own. -/
theorem IsLastRun.restart (h : IsLastRun comments run)
    (hapart : ¬∃ last, run.getLast? = some last ∧ last.2.endLine + 1 = c.2.startLine) :
    IsLastRun (comments ++ [c]) [c] := by
  refine ⟨List.suffix_append comments [c], .singleton c, fun other hother hrun => ?_⟩
  rcases List.suffix_concat_iff.1 hother with rfl | ⟨rest, rfl, hrest⟩
  · exact List.nil_suffix
  · obtain ⟨hchain, -, hjoin⟩ := List.isChain_append.1 hrun
    rcases List.eq_nil_or_concat rest with rfl | ⟨init, last, rfl⟩
    · exact List.suffix_rfl
    · -- What stands before the comment would be the end of the run.
      rw [List.concat_eq_append] at hrest hchain hjoin
      obtain ⟨before, rfl⟩ := h.longest _ hrest hchain
      refine absurd ⟨last, ?_, hjoin last (by simp) c rfl⟩ hapart
      rw [← List.append_assoc, List.getLast?_concat]

/-- The last run is attached to a declaration if it stands just above it. -/
theorem IsLastRun.attached (h : IsLastRun comments run) (line : Nat) :
    Attached comments line (if isJustAbove run line then run else []) := by
  split
  · rename_i habove
    obtain ⟨last, hlast, hline⟩ := isJustAbove_iff.1 habove
    exact .above (h.getLast?_eq ▸ hlast) hline h
  · rename_i habove
    refine .apart fun last hlast hline => habove (isJustAbove_iff.2 ⟨last, ?_, hline⟩)
    rw [h.getLast?_eq]
    exact hlast

/-! ## Going through the siblings -/

/-- The block that is held behind one more comment. -/
def heldAfter (lastLine : Option Nat) (block : List Comment) (c : Comment) : List Comment :=
  if isJustAbove block c.2.startLine then block ++ [c]
  else if lastLine = some c.2.startLine then block else [c]

/-- The scan holds a comment or passes it over, and goes on. -/
theorem withDocsFrom_comment (block : List Comment) (lastLine : Option Nat) (c : Comment)
    (rest : List (Sibling α)) :
    withDocsFrom block lastLine (.comment c.1 c.2 :: rest) =
      withDocsFrom (heldAfter lastLine block c) lastLine rest := by
  rw [withDocsFrom, heldAfter]
  by_cases hlast : lastLine = some c.2.startLine
  · split_ifs <;> simp_all
  · split_ifs <;> simp_all

/-- What is known when some siblings have been gone through: `blocks` are the comments that belong
to the declarations among them, one block for each, and `block` is the one that is held. -/
structure Scanned (front : List (Sibling α)) (blocks : List (List Comment)) (block : List Comment) :
    Prop where
  length : blocks.length = (declared front).length
  attached : ∀ i content span, front[i]? = some (.node content span) →
    ∃ own, blocks[(declared (front.take i)).length]? = some own ∧
      Attached (candidates (front.take i)) span.startLine own
  once : (blocks.flatten ++ block).Sublist (commentsOf front)
  held : IsLastRun (candidates front) block

/-- At the beginning nothing has been scanned. -/
theorem scanned_nil : Scanned ([] : List (Sibling α)) [] [] where
  length := rfl
  attached := by simp
  once := List.Sublist.slnil
  held := isLastRun_nil

/-- A member of a list with one more is one of the list or the last, and what stands before it is
the same in both. -/
theorem getElem?_concat_cases {s t : Sibling α} {i : Nat} (h : (front ++ [s])[i]? = some t) :
    (front[i]? = some t ∧ (front ++ [s]).take i = front.take i) ∨
      (s = t ∧ (front ++ [s]).take i = front) := by
  rcases Nat.lt_or_ge i front.length with hi | hi
  · rw [List.getElem?_append_left hi] at h
    exact .inl ⟨h, List.take_append_of_le_length hi.le⟩
  · rw [List.getElem?_append_right hi, List.getElem?_singleton] at h
    split at h
    · obtain rfl : i = front.length := by omega
      exact .inr ⟨Option.some.inj h, List.take_left⟩
    · cases h

/-- What begins on the line where the last declaration ends is not below the block that is held. -/
theorem Scanned.ne_of_isJustAbove (hscan : Scanned front blocks block) (horder : InOrder front)
    (h : isJustAbove block line = true) : lastLine? front ≠ some line := by
  intro hlast
  obtain ⟨last, hmem, hline⟩ := isJustAbove_iff.1 h
  have hcandidate : last ∈ candidates front :=
    hscan.held.suffix.mem (List.mem_of_getLast? hmem)
  have hbelow := le_startLine_of_mem_candidates horder hcandidate hlast
  obtain ⟨s, hs, hcomment⟩ := List.mem_filterMap.1 (mem_commentsOf_of_mem_candidates hcandidate)
  cases s with
  | node content span => cases hcomment
  | comment text span =>
    cases hcomment
    have hupright : span.startLine ≤ span.endLine := horder.upright _ hs
    dsimp only at hline hbelow
    omega

/-- The scan of one more comment describes the siblings with it. -/
theorem Scanned.comment (hscan : Scanned front blocks block) (horder : InOrder front)
    (c : Comment) :
    Scanned (front ++ [Sibling.comment c.1 c.2]) blocks (heldAfter (lastLine? front) block c) where
  length := by rw [declared_concat_comment, hscan.length]
  attached i content span h := by
    rcases getElem?_concat_cases h with ⟨h, htake⟩ | ⟨h, -⟩
    · rw [htake]
      exact hscan.attached i content span h
    · cases h
  once := by
    rw [commentsOf_concat_comment, heldAfter]
    have hfront : blocks.flatten.Sublist (commentsOf front) :=
      (List.sublist_append_left _ block).trans hscan.once
    split_ifs
    · rw [← List.append_assoc]
      exact hscan.once.append (List.Sublist.refl [c])
    · exact hscan.once.trans (List.sublist_append_left _ _)
    · exact hfront.append (List.Sublist.refl [c])
  held := by
    rw [candidates_concat_comment, heldAfter]
    by_cases habove : isJustAbove block c.2.startLine = true
    · rw [if_pos habove, if_neg (hscan.ne_of_isJustAbove horder habove)]
      exact hscan.held.concat (isJustAbove_iff.1 habove)
    · rw [if_neg habove]
      split
      · exact hscan.held
      · exact hscan.held.restart (mt isJustAbove_iff.2 habove)

/-- The scan of one more declaration gives it the run just above it. -/
theorem Scanned.node (hscan : Scanned front blocks block) (content : α) (span : Span) :
    Scanned (front ++ [Sibling.node content span])
      (blocks ++ [if isJustAbove block span.startLine then block else []]) [] where
  length := by simp [hscan.length]
  attached i content' span' h := by
    rcases getElem?_concat_cases h with ⟨h, htake⟩ | ⟨h, htake⟩
    · obtain ⟨own, hown, hattached⟩ := hscan.attached i content' span' h
      rw [htake]
      refine ⟨own, ?_, hattached⟩
      rw [List.getElem?_append_left (List.getElem?_eq_some_iff.1 hown).1, hown]
    · cases h
      rw [htake, ← hscan.length, List.getElem?_concat_length]
      exact ⟨_, rfl, hscan.held.attached span.startLine⟩
  once := by
    rw [commentsOf_concat_node]
    split
    · simpa using hscan.once
    · simpa using (List.sublist_append_left _ block).trans hscan.once
  held := by
    rw [candidates_concat_node]
    exact isLastRun_nil

/-- Whatever comes behind some siblings, going through them first gives their declarations. -/
theorem exists_scanned (front rest : List (Sibling α)) (horder : InOrder front) :
    ∃ blocks block, Scanned front blocks block ∧ withDocs (front ++ rest) =
      List.zipWith documented (declared front) blocks ++
        withDocsFrom block (lastLine? front) rest := by
  induction front using List.reverseRecOn generalizing rest with
  | nil => exact ⟨[], [], scanned_nil, rfl⟩
  | append_singleton front s ih =>
    obtain ⟨blocks, block, hscan, heq⟩ := ih (s :: rest) horder.of_concat
    rw [List.append_assoc, List.singleton_append, heq]
    cases s with
    | comment text span =>
      refine ⟨blocks, _, hscan.comment horder.of_concat (text, span), ?_⟩
      rw [declared_concat_comment front (text, span), lastLine?_concat_comment front (text, span),
        withDocsFrom_comment block _ (text, span)]
    | node content span =>
      refine ⟨_, _, hscan.node content span, ?_⟩
      rw [declared_concat_node, lastLine?_concat_node, List.zipWith_append hscan.length.symm,
        List.append_assoc, withDocsFrom]
      split <;> rfl

/-! ## Lines of comments -/

/-- What is taken from behind the front of a comment, up to the carriage returns at its end. -/
theorem gives_of_append (blank : List Char) {rest : List Char}
    (hc : c.1.toList = '/' :: '/' :: (blank ++ rest))
    (hblank : blank = [' '] ∨ blank = [] ∧ rest.head? ≠ some ' ') :
    Gives c ⟨String.ofList (Text.dropTrailing (· == '\r') rest),
      c.2.sub (2 + blank.length) (Text.byteCount (Text.dropTrailing (· == '\r') rest))⟩ := by
  have hrest : Text.dropTrailing (· == '\r') rest ++ rest.rtakeWhile (· == '\r') = rest :=
    List.rdropWhile_append_rtakeWhile
  refine ⟨blank, rest.rtakeWhile (· == '\r'), ?_, ?_, fun r hr => ?_, ?_, ?_⟩
  · rw [String.toList_ofList, hrest, hc]
  · rw [String.toList_ofList, hrest]
    exact hblank
  · simpa using List.mem_rtakeWhile_imp hr
  · rw [String.toList_ofList]
    intro hlast
    have hne : rest.rdropWhile (· == '\r') ≠ [] := by
      intro hnil
      have hlast : (rest.rdropWhile (· == '\r')).getLast? = some '\r' := hlast
      rw [hnil] at hlast
      cases hlast
    have hlast : (rest.rdropWhile (· == '\r')).getLast? = some '\r' := hlast
    rw [List.getLast?_eq_some_getLast hne, Option.some.injEq] at hlast
    exact List.rdropWhile_last_not _ _ hne (by simp [hlast])
  · rw [String.toList_ofList]

/-- A line comment gives its line. -/
theorem exists_docLine? (h : Text.beginsWith "//" c.1 = true) :
    ∃ line, docLine? c = some line ∧ Gives c line := by
  obtain ⟨body, hbody⟩ := (Text.isSome_afterLead? _ _).1 h
  have hbody : c.1.toList = '/' :: '/' :: body := hbody.symm
  by_cases hblank : ∃ rest, body = ' ' :: rest
  · obtain ⟨rest, rfl⟩ := hblank
    exact ⟨_, by rw [docLine?, hbody]; rfl, gives_of_append [' '] hbody (.inl rfl)⟩
  · have hhead : body.head? ≠ some ' ' := by
      intro hhead
      obtain ⟨rest, hrest⟩ := List.head?_eq_some_iff.1 hhead
      exact hblank ⟨rest, hrest⟩
    refine ⟨_, ?_, gives_of_append [] hbody (.inr ⟨rfl, hhead⟩)⟩
    rw [docLine?, hbody]
    cases body with
    | nil => rfl
    | cons first rest =>
      have hfirst : first ≠ ' ' := fun hfirst => hblank ⟨rest, by rw [hfirst]⟩
      simp [hfirst]

/-- A comment between marks gives no line. -/
theorem docLine?_eq_none (h : Text.beginsWith "//" c.1 = false) : docLine? c = none := by
  unfold docLine?
  split
  · rename_i body hbody
    have hmarked : Text.beginsWith "//" c.1 = true :=
      (Text.isSome_afterLead? _ _).2 ⟨body, hbody.symm⟩
    rw [h] at hmarked
    cases hmarked
  · rfl

/-- The comments behind two slashes give one line each, in their order, and the others none. -/
theorem forall₂_gives (block : List Comment) :
    List.Forall₂ Gives (block.filter (Text.beginsWith "//" ·.1)) (docOf block).lines := by
  induction block with
  | nil => exact .nil
  | cons c block ih =>
    cases hmarked : Text.beginsWith "//" c.1 with
    | true =>
      obtain ⟨line, hline, hgives⟩ := exists_docLine? hmarked
      have hlines : (docOf (c :: block)).lines = line :: (docOf block).lines :=
        List.filterMap_cons_some hline
      simp only [List.filter_cons, hmarked, if_true, hlines]
      exact .cons hgives ih
    | false =>
      have hlines : (docOf (c :: block)).lines = (docOf block).lines :=
        List.filterMap_cons_none (docLine?_eq_none hmarked)
      simp only [List.filter_cons, hmarked, Bool.false_eq_true, if_false, hlines]
      exact ih

/-! ## The declarations and their comments -/

/-- A declaration has the number of those before it as its place. -/
theorem getElem?_declared {i : Nat} (h : siblings[i]? = some (.node content span)) :
    (declared siblings)[(declared (siblings.take i)).length]? = some (content, span) := by
  obtain ⟨hi, hnode⟩ := List.getElem?_eq_some_iff.1 h
  have hsplit : siblings = siblings.take i ++ .node content span :: siblings.drop (i + 1) := by
    rw [← hnode, List.getElem_cons_drop, List.take_append_drop]
  have hdeclared : declared siblings = declared (siblings.take i) ++
      (content, span) :: declared (siblings.drop (i + 1)) := by
    conv_lhs => rw [hsplit]
    exact List.filterMap_append
  rw [hdeclared, List.getElem?_append_right (Nat.le_refl _), Nat.sub_self]
  rfl

/-- Siblings in the order of the source give their declarations, each once and in order. To each of
them a block of comments belongs, which is one of `blocks`: out of the comments between it and the
declaration before it that do not begin on the line where that one ends, if the last of them ends on
the line above it, the longest run of comments each on the line below the one before, and otherwise
none. Its doc comment has a line for each comment of the block behind two slashes, in order. No
comment is in two of the blocks: put one behind the other they leave some comments out and have none
twice. -/
theorem docs_exact (h : InOrder siblings) :
    ∃ blocks : List (List Comment), blocks.length = (declared siblings).length ∧
      withDocs siblings = List.zipWith documented (declared siblings) blocks ∧
      (∀ i content span, siblings[i]? = some (.node content span) →
        ∃ block, blocks[(declared (siblings.take i)).length]? = some block ∧
          (withDocs siblings)[(declared (siblings.take i)).length]? =
            some (content, span, docOf block) ∧
          Attached (candidates (siblings.take i)) span.startLine block) ∧
      (∀ block ∈ blocks,
        List.Forall₂ Gives (block.filter (Text.beginsWith "//" ·.1)) (docOf block).lines) ∧
      blocks.flatten.Sublist (commentsOf siblings) := by
  obtain ⟨blocks, block, hscan, heq⟩ := exists_scanned siblings [] h
  rw [List.append_nil, withDocsFrom, List.append_nil] at heq
  refine ⟨blocks, hscan.length, heq, fun i content span hnode => ?_,
    fun block _ => forall₂_gives block, (List.sublist_append_left _ block).trans hscan.once⟩
  obtain ⟨own, hown, hattached⟩ := hscan.attached i content span hnode
  refine ⟨own, hown, ?_, hattached⟩
  rw [heq, List.getElem?_zipWith, getElem?_declared hnode, hown]
  rfl

/-- A span of which only the lines matter. -/
def onLines (first last : Nat) : Span := { startLine := first, endLine := last }

/-- Three declarations with comments between them: one behind the first on its own line, three above
the second, of which one takes up two lines, and one that an empty line keeps from the third. -/
def mixedSiblings : List (Sibling String) :=
  [.node "A" (onLines 1 1), .comment "// behind" (onLines 1 1), .comment "// one" (onLines 2 2),
    .comment "/* two\n */" (onLines 3 4), .comment "// three" (onLines 5 5),
    .node "B" (onLines 6 6), .comment "// apart" (onLines 8 8), .node "C" (onLines 10 10)]

/-- Of the siblings, the second declaration alone has comments attached to it. -/
theorem docs_exact_mixedSiblings :
    InOrder mixedSiblings ∧ ∃ blocks : List (List Comment),
      blocks.flatten.Sublist (commentsOf mixedSiblings) ∧
      (∃ block, blocks[1]? = some block ∧
        Attached (candidates (mixedSiblings.take 5)) 6 block) ∧
      (withDocs mixedSiblings).map (fun d => (d.1, d.2.2.lines.map (·.text))) =
        [("A", []), ("B", ["one", "three"]), ("C", [])] := by
  have horder : InOrder mixedSiblings := ⟨by decide, by decide⟩
  obtain ⟨blocks, -, -, hattached, -, honce⟩ := docs_exact horder
  obtain ⟨block, hblock, -, hattached⟩ := hattached 5 "B" (onLines 6 6) rfl
  exact ⟨horder, blocks, honce, ⟨block, hblock, hattached⟩, by decide +kernel⟩

end RouteAtlas.Source
