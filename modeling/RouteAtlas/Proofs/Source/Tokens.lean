import RouteAtlas.Proofs.Source.Marks
import RouteAtlas.Source.Doc

/-!
# Tokens stand where their spans say

A scan is always at the place to which the bytes before it lead (`exists_of_mem_tokens`). So the
span of a token marks its text, and that of a comment behind two slashes marks a text that begins
with them and is on one line (`lineComment_of_mem_tokens`).
-/

set_option autoImplicit false

namespace RouteAtlas.Source

/-- A token that was cut out of the bytes of a source: its text, its span, and how it begins what is
left of the source there. -/
def CutFrom (bytes : List UInt8) (t : Token) : Prop :=
  ∃ before text behind, bytes = before ++ text ++ behind ∧ t.lexeme = decode text ∧
    t.span = (Place.advance ⟨0, 0, 0⟩ before).spanTo (Place.advance ⟨0, 0, 0⟩ (before ++ text)) ∧
    ∃ length, tokenAt (text ++ behind) = (t.kind, length) ∧ text = (text ++ behind).take length

/-- Every token that is cut from what is left of a file stands in the file where it says. -/
theorem cutFrom_of_mem_tokensFrom {fuel : Nat} {before rest : List UInt8} {t : Token}
    (h : t ∈ tokensFrom fuel (Place.advance ⟨0, 0, 0⟩ before) rest) :
    CutFrom (before ++ rest) t := by
  induction fuel generalizing before rest with
  | zero => cases h
  | succ fuel ih =>
    cases rest with
    | nil => cases h
    | cons b rest =>
      rw [tokensFrom] at h
      split at h
      · rw [← Place.advance_append] at h
        have hcut := ih h
        rwa [List.append_assoc, List.singleton_append] at hcut
      · cases htoken : tokenAt (b :: rest) with
        | mk kind length =>
          rw [htoken] at h
          dsimp only at h
          have hsplit := List.take_append_drop length (b :: rest)
          rcases List.mem_cons.1 h with rfl | h
          · refine ⟨before, (b :: rest).take length, (b :: rest).drop length, ?_, rfl, ?_, length,
              ?_, ?_⟩
            · rw [List.append_assoc, hsplit]
            · rw [Place.advance_append]
            · rw [hsplit, htoken]
            · rw [hsplit]
          · rw [← Place.advance_append] at h
            have hcut := ih h
            rwa [List.append_assoc, hsplit] at hcut

/-- Every token of a file stands in it where it says. -/
theorem cutFrom_of_mem_tokens {bytes : List UInt8} {t : Token} (h : t ∈ tokens bytes) :
    CutFrom bytes t := by
  unfold tokens at h
  split at h
  · -- A byte order mark leads three columns on.
    have hmark : (⟨3, 0, 3⟩ : Place) = Place.advance ⟨0, 0, 0⟩ [0xEF, 0xBB, 0xBF] := by decide
    rw [hmark] at h
    exact cutFrom_of_mem_tokensFrom h
  · have hstart : (⟨0, 0, 0⟩ : Place) = Place.advance ⟨0, 0, 0⟩ [] := rfl
    rw [hstart] at h
    exact cutFrom_of_mem_tokensFrom h

/-- Bytes that are UTF-8 are the encoding of their text. -/
theorem encoded_decode {bytes : List UInt8} (h : decode bytes ≠ "") :
    Text.encoded (decode bytes).toList = bytes := by
  unfold decode at h ⊢
  cases htext : String.fromUTF8? ⟨bytes.toArray⟩ with
  | none =>
    rw [htext] at h
    exact absurd rfl h
  | some s =>
    obtain ⟨hvalid, hs⟩ := Option.dite_none_right_eq_some.1 htext
    have hbytes : s.toByteArray = ⟨bytes.toArray⟩ := by
      rw [← Option.some.inj hs]
      rfl
    have hencoded : s.toByteArray.data.toList = Text.encoded s.toList := by
      rw [← String.utf8Encode_toList, List.utf8Encode, List.toList_data_toByteArray]
      rfl
    rw [Option.getD_some, ← hencoded, hbytes]

/-- Only two slashes begin a comment up to the end of the line. -/
theorem eq_of_tokenAt_lineComment {bytes : List UInt8} {length : Nat}
    (h : tokenAt bytes = (.lineComment, length)) :
    ∃ rest, bytes = 47 :: 47 :: rest ∧ length = (rest.takeWhile (· != 10)).length + 2 := by
  unfold tokenAt at h
  split at h <;> try cases h
  · exact ⟨_, rfl, rfl⟩
  · split_ifs at h <;> cases h

/-- A comment behind two slashes: it is on one line, and its span marks it. -/
structure Comment.IsLine (bytes : List UInt8) (c : Comment) : Prop where
  mark : ['/', '/'] <+: c.1.toList
  line : '\n' ∉ c.1.toList
  marks : c.2.Marks bytes c.1.toList

/-- The span of a token marks its text. -/
theorem CutFrom.marks {bytes : List UInt8} {t : Token} (h : CutFrom bytes t)
    (htext : t.lexeme ≠ "") : t.span.Marks bytes t.lexeme.toList := by
  obtain ⟨before, text, behind, hbytes, hlexeme, hspan, -⟩ := h
  rw [hlexeme] at htext ⊢
  have hencoded := encoded_decode htext
  refine Span.marks_iff.2 ⟨before, behind, ?_, ?_⟩
  · rw [hencoded]
    exact hbytes
  · rw [hencoded]
    exact hspan

/-- The comments behind two slashes that are found in a source are on one line, and their spans mark
them. -/
theorem lineComment_of_mem_tokens {bytes : List UInt8} {t : Token} (h : t ∈ tokens bytes)
    (hkind : t.kind = .lineComment) (htext : t.lexeme ≠ "") :
    Comment.IsLine bytes (t.lexeme, t.span) := by
  have hcut := cutFrom_of_mem_tokens h
  obtain ⟨before, text, behind, -, hlexeme, -, length, htoken, hlength⟩ := id hcut
  rw [hkind] at htoken
  obtain ⟨rest, hrest, rfl⟩ := eq_of_tokenAt_lineComment htoken
  have hbytes : text = 47 :: 47 :: rest.takeWhile (· != 10) := by
    rw [hlength, hrest, List.take_succ_cons, List.take_succ_cons, ← List.prefix_iff_eq_take.1
      (List.takeWhile_prefix _)]
  have hencoded : Text.encoded t.lexeme.toList = 47 :: 47 :: rest.takeWhile (· != 10) := by
    rw [hlexeme] at htext ⊢
    rw [encoded_decode htext, hbytes]
  obtain ⟨cs, hfirst, hmore⟩ :=
    Text.exists_of_encoded_eq_cons (c := '/') rfl (by decide) hencoded
  obtain ⟨body, hsecond, -⟩ := Text.exists_of_encoded_eq_cons (c := '/') rfl (by decide) hmore
  refine ⟨⟨body, ?_⟩, ?_, hcut.marks htext⟩
  · show '/' :: '/' :: body = t.lexeme.toList
    rw [hfirst, hsecond]
  · apply Text.notMem_of_ten_notMem_encoded
    show 10 ∉ Text.encoded t.lexeme.toList
    rw [hencoded]
    intro hmem
    rcases List.mem_cons.1 hmem with hmem | hmem
    · exact absurd hmem (by decide)
    · rcases List.mem_cons.1 hmem with hmem | hmem
      · exact absurd hmem (by decide)
      · simpa using List.mem_takeWhile_imp hmem

end RouteAtlas.Source
