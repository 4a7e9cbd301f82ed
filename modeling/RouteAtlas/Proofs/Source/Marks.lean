import RouteAtlas.Source.Token
import RouteAtlas.Text.Pieces
import Mathlib

/-!
# Spans that mark a text

A span marks a text in the bytes of a source when the bytes at the span are the text in UTF-8, and
its lines and columns are those of its two ends (`Span.Marks`). A part of such a text that stands on
one line is marked by the part of the span that is as many bytes in and as many bytes wide
(`Span.Marks.sub`), however many bytes its characters take.
-/

set_option autoImplicit false

namespace RouteAtlas

namespace Text

/-- Characters in UTF-8. -/
def encoded (cs : List Char) : List UInt8 := cs.flatMap String.utf8EncodeChar

/-- Texts are encoded one after the other. -/
theorem encoded_append (cs ds : List Char) : encoded (cs ++ ds) = encoded cs ++ encoded ds :=
  List.flatMap_append

/-- A text has as many bytes as are counted for it. -/
theorem length_encoded (cs : List Char) : (encoded cs).length = byteCount cs := by
  induction cs with
  | nil => rfl
  | cons c cs ih =>
    rw [encoded, List.flatMap_cons, List.length_append, String.length_utf8EncodeChar, ← encoded, ih]
    rfl

/-- The bytes of two texts are counted one after the other. -/
theorem byteCount_append (cs ds : List Char) :
    byteCount (cs ++ ds) = byteCount cs + byteCount ds := by
  rw [← length_encoded, encoded_append, List.length_append, length_encoded, length_encoded]

/-- A byte of ASCII stands for a character of ASCII, and is all of its encoding. -/
theorem toNat_eq_of_mem_utf8EncodeChar {c : Char} {b : UInt8} (hb : b.toNat < 128)
    (h : b ∈ String.utf8EncodeChar c) : c.toNat = b.toNat ∧ String.utf8EncodeChar c = [b] := by
  -- A byte of a longer encoding is at least 128.
  have hlong : ∀ n, 128 ≤ n → n < 256 → ¬ b = UInt8.ofNat n := by
    intro n hlow hhigh heq
    have hnat := congrArg UInt8.toNat heq
    rw [UInt8.toNat_ofNat', Nat.mod_eq_of_lt (by omega)] at hnat
    omega
  unfold String.utf8EncodeChar at h ⊢
  dsimp only at h ⊢
  split at h
  · rename_i hsmall
    rw [if_pos hsmall]
    rw [List.mem_singleton] at h
    have hnat := congrArg UInt8.toNat h
    rw [UInt8.toNat_ofNat', Nat.mod_eq_of_lt (by omega)] at hnat
    exact ⟨hnat.symm, by rw [h]⟩
  · exfalso
    split at h
    · simp only [List.mem_cons, List.not_mem_nil, or_false] at h
      rcases h with h | h <;> exact hlong _ (by omega) (by omega) h
    · split at h
      · simp only [List.mem_cons, List.not_mem_nil, or_false] at h
        rcases h with h | h | h <;> exact hlong _ (by omega) (by omega) h
      · simp only [List.mem_cons, List.not_mem_nil, or_false] at h
        rcases h with h | h | h | h <;> exact hlong _ (by omega) (by omega) h

/-- A text begins with the character of ASCII that its encoding begins with. -/
theorem exists_of_encoded_eq_cons {c : Char} {b : UInt8} (hc : c.toNat = b.toNat)
    (hb : b.toNat < 128) {cs : List Char} {bytes : List UInt8} (h : encoded cs = b :: bytes) :
    ∃ rest, cs = c :: rest ∧ encoded rest = bytes := by
  cases cs with
  | nil => cases h
  | cons first rest =>
    have hfirst : encoded (first :: rest) = String.utf8EncodeChar first ++ encoded rest := rfl
    have hmem : b ∈ String.utf8EncodeChar first := by
      cases hbytes : String.utf8EncodeChar first with
      | nil => exact absurd hbytes String.utf8EncodeChar_ne_nil
      | cons b' more =>
        rw [hfirst, hbytes, List.cons_append, List.cons.injEq] at h
        rw [h.1]
        exact List.mem_cons_self ..
    obtain ⟨hnat, hone⟩ := toNat_eq_of_mem_utf8EncodeChar hb hmem
    rw [hfirst, hone, List.singleton_append, List.cons.injEq] at h
    have hsame : first = c := Char.toNat_inj.1 (hnat.trans hc.symm)
    exact ⟨rest, by rw [hsame], h.2⟩

/-- A text on one line is encoded without the byte of a line feed. -/
theorem ten_notMem_encoded {cs : List Char} (h : '\n' ∉ cs) : 10 ∉ encoded cs := by
  intro hmem
  obtain ⟨c, hc, hbyte⟩ := List.mem_flatMap.1 hmem
  have hnat := (toNat_eq_of_mem_utf8EncodeChar (by decide) hbyte).1
  have hfeed : c = '\n' := Char.toNat_inj.1 hnat
  exact h (hfeed ▸ hc)

/-- Bytes without that of a line feed encode a text on one line. -/
theorem notMem_of_ten_notMem_encoded {cs : List Char} (h : 10 ∉ encoded cs) : '\n' ∉ cs := by
  intro hmem
  exact h (List.mem_flatMap.2 ⟨'\n', hmem, by decide⟩)

end Text

namespace Source

/-- The place of an offset in the bytes of a source. -/
def placeAt (bytes : List UInt8) (offset : Nat) : Place :=
  Place.advance ⟨0, 0, 0⟩ (bytes.take offset)

namespace Place

/-- A place is advanced over bytes one after the other. -/
theorem advance_append (p : Place) (bytes more : List UInt8) :
    p.advance (bytes ++ more) = (p.advance bytes).advance more :=
  List.foldl_append

/-- A place is advanced by the number of the bytes. -/
theorem byte_advance (p : Place) (bytes : List UInt8) :
    (p.advance bytes).byte = p.byte + bytes.length := by
  induction bytes generalizing p with
  | nil => rfl
  | cons b bytes ih =>
    have hstep : (p.advance (b :: bytes)) = (p.advance [b]).advance bytes := rfl
    have hone : (p.advance [b]).byte = p.byte + 1 := by
      rw [advance, List.foldl_cons, List.foldl_nil]
      split <;> rfl
    rw [hstep, ih, hone, List.length_cons]
    omega

/-- Bytes on one line lead to as many columns on. -/
theorem advance_of_notMem {bytes : List UInt8} (h : 10 ∉ bytes) (p : Place) :
    p.advance bytes = ⟨p.byte + bytes.length, p.row, p.column + bytes.length⟩ := by
  induction bytes generalizing p with
  | nil => rfl
  | cons b bytes ih =>
    rw [List.mem_cons, not_or] at h
    have hstep : p.advance (b :: bytes) =
        advance ⟨p.byte + 1, p.row, p.column + 1⟩ bytes := by
      rw [advance, List.foldl_cons, if_neg (Ne.symm h.1)]
      rfl
    rw [hstep, ih h.2, List.length_cons]
    simp only [Place.mk.injEq, true_and]
    omega

end Place

end Source

namespace Span

open Source

/-- The bytes at a span are a text, and the lines and columns of the span are those of its ends. -/
structure Marks (bytes : List UInt8) (span : Span) (cs : List Char) : Prop where
  le : span.startByte ≤ span.endByte
  bound : span.endByte ≤ bytes.length
  text : (bytes.take span.endByte).drop span.startByte = Text.encoded cs
  places : span = (placeAt bytes span.startByte).spanTo (placeAt bytes span.endByte)

/-- The text at a span stands between what is before it and what is behind it. -/
theorem marks_iff {bytes : List UInt8} {span : Span} {cs : List Char} :
    span.Marks bytes cs ↔ ∃ before behind, bytes = before ++ Text.encoded cs ++ behind ∧
      span = (Place.advance ⟨0, 0, 0⟩ before).spanTo
        (Place.advance ⟨0, 0, 0⟩ (before ++ Text.encoded cs)) := by
  constructor
  · intro h
    have hfront : bytes.take span.endByte =
        bytes.take span.startByte ++ Text.encoded cs := by
      rw [← h.text]
      have hsplit := List.take_append_drop span.startByte (bytes.take span.endByte)
      rw [List.take_take, min_eq_left h.le] at hsplit
      exact hsplit.symm
    refine ⟨bytes.take span.startByte, bytes.drop span.endByte, ?_, ?_⟩
    · rw [← hfront, List.take_append_drop]
    · rw [← hfront]
      exact h.places
  · rintro ⟨before, behind, rfl, rfl⟩
    have hstart : (Place.advance ⟨0, 0, 0⟩ before).byte = before.length := by
      rw [Place.byte_advance, Nat.zero_add]
    have hend : (Place.advance ⟨0, 0, 0⟩ (before ++ Text.encoded cs)).byte =
        (before ++ Text.encoded cs).length := by
      rw [Place.byte_advance, Nat.zero_add]
    have hfront : (before ++ Text.encoded cs ++ behind).take before.length = before := by
      rw [List.append_assoc, List.take_left]
    have hback : (before ++ Text.encoded cs ++ behind).take (before ++ Text.encoded cs).length =
        before ++ Text.encoded cs := List.take_left
    refine ⟨?_, ?_, ?_, ?_⟩ <;> simp only [Place.spanTo, hstart, hend]
    · simp
    · simp
    · rw [hback, List.drop_left]
    · simp only [placeAt, hfront, hback, hstart, hend]

/-- The part of a span that is as many bytes in and as many bytes wide as a part of the text. -/
theorem Marks.sub {bytes : List UInt8} {span : Span} {front cs back : List Char}
    (h : span.Marks bytes (front ++ cs ++ back)) (hline : '\n' ∉ front ++ cs) :
    (span.sub (Text.byteCount front) (Text.byteCount cs)).Marks bytes cs := by
  obtain ⟨before, behind, rfl, rfl⟩ := marks_iff.1 h
  rw [List.mem_append, not_or] at hline
  have hfront := Text.ten_notMem_encoded hline.1
  have hcs := Text.ten_notMem_encoded hline.2
  refine marks_iff.2 ⟨before ++ Text.encoded front, Text.encoded back ++ behind, ?_, ?_⟩
  · simp [Text.encoded_append]
  · have hstart : Place.advance ⟨0, 0, 0⟩ (before ++ Text.encoded front) =
        (Place.advance ⟨0, 0, 0⟩ before).advance (Text.encoded front) :=
      Place.advance_append _ before _
    rw [Place.advance_append _ (before ++ Text.encoded front), hstart,
      Place.advance_of_notMem hcs, Place.advance_of_notMem hfront, Text.length_encoded,
      Text.length_encoded]
    simp only [Span.sub, Place.spanTo, Span.mk.injEq, true_and]
    omega

end Span

end RouteAtlas
