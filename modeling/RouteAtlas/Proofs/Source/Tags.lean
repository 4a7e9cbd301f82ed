import RouteAtlas.Proofs.Text.Search
import RouteAtlas.Source.Declaration

/-!
# Looking up keys in tags

A tag is a list of pairs with blanks between them, and in each pair a key, a colon and a value in
quotes. The value of a key is looked up as what stands between the quotes behind the first place
where the key, a colon and a quote stand together. In a tag of pairs that is at the opening quote of
a value whose key ends with the one that is looked up, or at the closing quote of a value that ends
with the key and a colon. So the lookup is right until the key shows in a pair that is not its own
(`tagValue?_exact`).
-/

set_option autoImplicit false

namespace RouteAtlas

/-- What can be a key of a tag. -/
structure IsTagKey (key : List Char) : Prop where
  nonempty : key ≠ []
  unspaced : ' ' ∉ key
  unquoted : '"' ∉ key
  undivided : ':' ∉ key

/-- A pair of a tag. -/
structure TagPair where
  key : String
  value : String
  isTagKey : IsTagKey key.toList
  unquoted : '"' ∉ value.toList

namespace TagPair

/-- A pair as it is written in a tag. -/
def text (p : TagPair) : String := p.key ++ ":\"" ++ p.value ++ "\""

/-- Whether a key, a colon and a quote stand together in a pair: before its value, or at the end of
that. -/
def Shows (key : String) (p : TagPair) : Prop :=
  key.toList <:+ p.key.toList ∨ key.toList ++ [':'] <:+ p.value.toList

instance (key : String) (p : TagPair) : Decidable (p.Shows key) :=
  inferInstanceAs (Decidable (_ ∨ _))

/-- What is read for a key where it shows first in a pair: the value of the pair, or what stands
between its closing quote and the next opening one. -/
def readAt? (key : String) (p : TagPair) (after : List TagPair) : Option String :=
  if key.toList <:+ p.key.toList then some p.value
  else after.head?.map fun q => " " ++ q.key ++ ":"

end TagPair

/-- The pairs of a tag, with a blank between them. -/
def tagText (pairs : List TagPair) : String := Text.join " " (pairs.map TagPair.text)

/-- The pairs from the first one on that a key shows in. -/
def shown (key : String) (pairs : List TagPair) : List TagPair :=
  pairs.dropWhile fun p => ¬ p.Shows key

/-- What is read for a key in a tag: what the first pair that it shows in gives. -/
def readIn? (key : String) (pairs : List TagPair) : Option String :=
  match shown key pairs with
  | [] => none
  | p :: after => p.readAt? key after

/-- The value of a key among some pairs. -/
def valueIn? (key : String) (pairs : List TagPair) : Option String :=
  (pairs.find? (·.key == key)).map (·.value)

/-! ## Searching the pairs -/

variable {key : String} {p : TagPair} {after pairs : List TagPair}

/-- What stands behind a pair. -/
def behindPair (after : List TagPair) : List Char :=
  if after.isEmpty then [] else ' ' :: (tagText after).toList

/-- A tag is its first key, a colon, its value between quotes, and the rest of the pairs. -/
theorem toList_tagText_cons (p : TagPair) (after : List TagPair) :
    (tagText (p :: after)).toList =
      p.key.toList ++ ':' :: '"' :: (p.value.toList ++ '"' :: behindPair after) := by
  cases after with
  | nil => simp [tagText, Text.join, TagPair.text, behindPair]
  | cons q after =>
    have hjoin : tagText (p :: q :: after) = p.text ++ " " ++ tagText (q :: after) := by
      simp [tagText, Text.join, String.intercalate_cons_cons]
    rw [hjoin]
    simp [TagPair.text, behindPair]

/-- What the lookup of a key searches for. -/
def tagNeedle (key : String) : List Char := key.toList ++ [':', '"']

/-- The text before the next quote, if there is one. -/
def untilQuote? (rest : List Char) : Option String :=
  if rest.contains '"' then some (String.ofList (rest.takeWhile (· != '"'))) else none

/-- A value is what stands between the key with its colon and quote and the next quote. -/
theorem tagValue?_eq (tag key : String) :
    tagValue? (some tag) key = (Text.afterFirst? (tagNeedle key) tag.toList).bind untilQuote? := rfl

/-- A value without quotes ends at the quote behind it. -/
theorem untilQuote?_append {value : List Char} (h : '"' ∉ value) (rest : List Char) :
    untilQuote? (value ++ '"' :: rest) = some (String.ofList value) := by
  have hquote : (value ++ '"' :: rest).contains '"' = true := by simp
  rw [untilQuote?, if_pos hquote, Text.takeWhile_append_cons h]

/-- Between the quote behind a value and the next one stand a blank and the next key. -/
theorem untilQuote?_behindPair (after : List TagPair) :
    untilQuote? (behindPair after) = after.head?.map fun q => " " ++ q.key ++ ":" := by
  cases after with
  | nil => rfl
  | cons q after =>
    have hkey : '"' ∉ ' ' :: (q.key.toList ++ [':']) := by
      simpa using q.isTagKey.unquoted
    have hbehind : behindPair (q :: after) =
        (' ' :: (q.key.toList ++ [':'])) ++ '"' :: (q.value.toList ++ '"' :: behindPair after) := by
      rw [behindPair, if_neg (by simp), toList_tagText_cons]
      simp
    rw [hbehind, untilQuote?_append hkey, List.head?_cons, Option.map_some, Option.some.injEq,
      ← String.toList_inj]
    simp

/-- What is searched for in a tag is not empty. -/
theorem tagNeedle_ne_nil (key : String) : tagNeedle key ≠ [] := by simp [tagNeedle]

/-- What is searched for in a tag ends with a colon and a quote. -/
theorem tagNeedle_eq (key : String) : tagNeedle key = (key.toList ++ [':']) ++ '"' :: [] := by
  simp [tagNeedle]

section Needle

variable (hkey : IsTagKey key.toList)

include hkey

/-- A key begins neither with a blank nor with a colon or a quote. -/
theorem afterFirst?_tagNeedle_cons {c : Char} (hc : c = ' ' ∨ c = ':' ∨ c = '"') (cs : List Char) :
    Text.afterFirst? (tagNeedle key) (c :: cs) = Text.afterFirst? (tagNeedle key) cs := by
  rw [tagNeedle]
  cases hchars : key.toList with
  | nil => exact absurd hchars hkey.nonempty
  | cons k ks =>
    have hk : k ∈ key.toList := hchars ▸ List.mem_cons_self ..
    refine Text.afterFirst?_cons ?_ cs
    rintro rfl
    rcases hc with rfl | rfl | rfl
    · exact hkey.unspaced hk
    · exact hkey.undivided hk
    · exact hkey.unquoted hk

/-- A key is not found before a value whose key does not end with it. -/
theorem afterFirst?_of_not_suffix_key (h : ¬ key.toList <:+ p.key.toList) (rest : List Char) :
    Text.afterFirst? (tagNeedle key) (p.key.toList ++ ':' :: '"' :: rest) =
      Text.afterFirst? (tagNeedle key) rest := by
  have hcolon := Text.afterFirst?_of_not_suffix hkey.undivided p.isTagKey.undivided h ['"']
    ('"' :: rest)
  rw [tagNeedle, hcolon, ← tagNeedle, afterFirst?_tagNeedle_cons hkey (.inr (.inl rfl)),
    afterFirst?_tagNeedle_cons hkey (.inr (.inr rfl))]

/-- A key is not found in a value that does not end with it and a colon. -/
theorem afterFirst?_of_not_suffix_value (h : ¬ key.toList ++ [':'] <:+ p.value.toList)
    (rest : List Char) :
    Text.afterFirst? (tagNeedle key) (p.value.toList ++ '"' :: rest) =
      Text.afterFirst? (tagNeedle key) rest := by
  have hunquoted : '"' ∉ key.toList ++ [':'] := by simpa using hkey.unquoted
  have hquote := Text.afterFirst?_of_not_suffix hunquoted p.unquoted h [] rest
  rw [← tagNeedle_eq] at hquote
  rw [hquote, afterFirst?_tagNeedle_cons hkey (.inr (.inr rfl))]

end Needle

/-- A key is found before a value whose key ends with it. -/
theorem afterFirst?_of_suffix_key (h : key.toList <:+ p.key.toList) (rest : List Char) :
    Text.afterFirst? (tagNeedle key) (p.key.toList ++ ':' :: '"' :: rest) = some rest :=
  Text.afterFirst?_of_suffix p.isTagKey.undivided h ['"'] rest

/-- A key is found at the end of a value that ends with it and a colon. -/
theorem afterFirst?_of_suffix_value (h : key.toList ++ [':'] <:+ p.value.toList)
    (rest : List Char) :
    Text.afterFirst? (tagNeedle key) (p.value.toList ++ '"' :: rest) = some rest := by
  rw [tagNeedle_eq]
  exact Text.afterFirst?_of_suffix p.unquoted h [] rest

/-- The first pair is what is found if it shows the key. -/
theorem shown_cons_of_shows (h : p.Shows key) (after : List TagPair) :
    shown key (p :: after) = p :: after :=
  List.dropWhile_cons_of_neg (by simpa using h)

/-- A pair that does not show the key is passed over. -/
theorem shown_cons_of_not_shows (h : ¬ p.Shows key) (after : List TagPair) :
    shown key (p :: after) = shown key after :=
  List.dropWhile_cons_of_pos (by simpa using h)

/-- A key is looked up in a tag as the first pair tells that it shows in. -/
theorem tagValue?_tagText (hkey : IsTagKey key.toList) (pairs : List TagPair) :
    tagValue? (some (tagText pairs)) key = readIn? key pairs := by
  rw [tagValue?_eq, readIn?]
  induction pairs with
  | nil =>
    have hnone : Text.afterFirst? (tagNeedle key) (tagText []).toList = none := by
      rw [Text.afterFirst?_eq_none_iff (tagNeedle_ne_nil key)]
      exact fun hempty => tagNeedle_ne_nil key (List.infix_nil.1 hempty)
    rw [hnone]
    rfl
  | cons p after ih =>
    rw [toList_tagText_cons]
    by_cases hends : key.toList <:+ p.key.toList
    · rw [afterFirst?_of_suffix_key hends, Option.bind_some, untilQuote?_append p.unquoted,
        shown_cons_of_shows (.inl hends), String.ofList_toList]
      exact (if_pos hends).symm
    · rw [afterFirst?_of_not_suffix_key hkey hends]
      by_cases hvalue : key.toList ++ [':'] <:+ p.value.toList
      · rw [afterFirst?_of_suffix_value hvalue, Option.bind_some, untilQuote?_behindPair,
          shown_cons_of_shows (.inr hvalue)]
        exact (if_neg hends).symm
      · rw [afterFirst?_of_not_suffix_value hkey hvalue,
          shown_cons_of_not_shows (not_or.2 ⟨hends, hvalue⟩), ← ih, behindPair]
        split
        · rename_i hlast
          rw [List.isEmpty_iff.1 hlast]
          rfl
        · rw [afterFirst?_tagNeedle_cons hkey (.inl rfl)]

/-! ## Right and wrong answers -/

/-- With distinct keys an answer is the value of the pair with the key, and nothing without such a
pair. -/
theorem eq_valueIn?_iff (hdistinct : (pairs.map (·.key)).Nodup) (answer : Option String) :
    answer = valueIn? key pairs ↔
      (∀ p ∈ pairs, p.key = key → answer = some p.value) ∧
        ((∀ p ∈ pairs, p.key ≠ key) → answer = none) := by
  rw [valueIn?]
  cases hfound : pairs.find? (·.key == key) with
  | none =>
    have habsent : ∀ p ∈ pairs, p.key ≠ key := by simpa using hfound
    exact ⟨fun h => ⟨fun p hp heq => absurd heq (habsent p hp), fun _ => h⟩, fun h => h.2 habsent⟩
  | some own =>
    have hown : own.key = key := by simpa using List.find?_some hfound
    have hmem := List.mem_of_find?_eq_some hfound
    constructor
    · rintro rfl
      refine ⟨fun p hp heq => ?_, fun habsent => absurd hown (habsent own hmem)⟩
      obtain rfl := List.inj_on_of_nodup_map hdistinct hmem hp (hown.trans heq.symm)
      rfl
    · exact fun h => h.1 own hmem hown

/-- A pair shows its own key. -/
theorem TagPair.shows_key (p : TagPair) : p.Shows p.key := .inl List.suffix_rfl

/-- What is read is right if the first pair that the key shows in is its own, or if what that pair
gives happens to be what the pairs behind it have for the key. -/
theorem readIn?_eq_valueIn?_iff (key : String) (pairs : List TagPair) :
    readIn? key pairs = valueIn? key pairs ↔
      ∀ p after, shown key pairs = p :: after → p.key ≠ key →
        p.readAt? key after = valueIn? key after := by
  rw [readIn?]
  induction pairs with
  | nil => exact iff_of_true rfl nofun
  | cons p pairs ih =>
    by_cases hown : p.key = key
    · subst hown
      rw [shown_cons_of_shows p.shows_key]
      refine iff_of_true ?_ ?_
      · show p.readAt? p.key pairs = _
        rw [TagPair.readAt?, if_pos List.suffix_rfl, valueIn?, List.find?_cons_of_pos (by simp),
          Option.map_some]
      · rintro q after hq hne
        cases hq
        exact absurd rfl hne
    · have hvalue : valueIn? key (p :: pairs) = valueIn? key pairs := by
        rw [valueIn?, List.find?_cons_of_neg (by simpa using hown), valueIn?]
      rw [hvalue]
      by_cases hshows : p.Shows key
      · rw [shown_cons_of_shows hshows]
        constructor
        · rintro h q after hq -
          cases hq
          exact h
        · exact fun h => h p pairs rfl hown
      · rw [shown_cons_of_not_shows hshows]
        exact ih

/-- The lookup of a key in a tag of pairs with distinct keys gives what the first pair tells that
the key shows in. It gives the value of the pair with the key, and nothing without such a pair, if
and only if that first pair is the one with the key, or by chance tells what the pairs behind it
have for the key. -/
theorem tagValue?_exact {pairs : List TagPair} (hdistinct : (pairs.map (·.key)).Nodup)
    {key : String} (hkey : IsTagKey key.toList) :
    tagValue? (some (tagText pairs)) key = readIn? key pairs ∧
      (((∀ p ∈ pairs, p.key = key → tagValue? (some (tagText pairs)) key = some p.value) ∧
          ((∀ p ∈ pairs, p.key ≠ key) → tagValue? (some (tagText pairs)) key = none)) ↔
        ∀ p after, shown key pairs = p :: after → p.key ≠ key →
          p.readAt? key after = valueIn? key after) := by
  have hread := tagValue?_tagText hkey pairs
  refine ⟨hread, ?_⟩
  rw [← eq_valueIn?_iff hdistinct, hread, readIn?_eq_valueIn?_iff]

/-- A field that is checked: `json:"id" validate:"required"`. -/
def checkedPairs : List TagPair :=
  [{ key := "json", value := "id", isTagKey := ⟨by decide, by decide, by decide, by decide⟩,
     unquoted := by decide },
   { key := "validate", value := "required",
     isTagKey := ⟨by decide, by decide, by decide, by decide⟩, unquoted := by decide }]

/-- The value of the second key of a tag is found. -/
theorem tagValue?_exact_checked :
    (checkedPairs.map (·.key)).Nodup ∧ IsTagKey "validate".toList ∧
      tagValue? (some (tagText checkedPairs)) "validate" = some "required" := by
  have hdistinct : (checkedPairs.map (·.key)).Nodup := by decide
  have hkey : IsTagKey "validate".toList := ⟨by decide, by decide, by decide, by decide⟩
  refine ⟨hdistinct, hkey, ?_⟩
  rw [(tagValue?_exact hdistinct hkey).1]
  decide +kernel

/-- A place on a map: `geojson:"point" json:"location"`. -/
def placePairs : List TagPair :=
  [{ key := "geojson", value := "point", isTagKey := ⟨by decide, by decide, by decide, by decide⟩,
     unquoted := by decide },
   { key := "json", value := "location", isTagKey := ⟨by decide, by decide, by decide, by decide⟩,
     unquoted := by decide }]

/-- The key of the second pair is found at the end of the key of the first. -/
theorem tagValue?_inLongerKey :
    (placePairs.map (·.key)).Nodup ∧ IsTagKey "json".toList ∧
      (∃ p ∈ placePairs, p.key = "json" ∧ p.value = "location") ∧
      tagValue? (some (tagText placePairs)) "json" = some "point" :=
  ⟨by decide, ⟨by decide, by decide, by decide, by decide⟩, by decide +kernel, by decide +kernel⟩

end RouteAtlas
