import Mathlib.Data.List.Infix
import SketchLang.Proofs.Lexeme.Reading

/-!
This module contains the longest lexeme at the start of a text, found by trying all prefixes of the
text (`Lexeme.longest?`). A lexeme that is over where the rest begins is the longest one
(`Lexeme.longest_of_closed`), so that `Lexeme.first?` finds it without trying another.
-/

namespace SketchLang.Lexeme

def wholeWord? (text : List Char) : Option Lexeme :=
  if IsWord text then some (word text) else none

def wholeNumber? (text : List Char) : Option Lexeme :=
  (Decimal.ofText? text).map fun d => number text (.ofDecimal d)

def wholeQuoted? : List Char → Option Lexeme
  | [] => none
  | mark :: rest =>
    if isQuote mark ∧ rest.getLast? = some mark ∧ mark ∉ rest.dropLast then
      some (quoted mark rest.dropLast)
    else
      none

def ofRaw? (text : List Char) : Option Lexeme :=
  wholeWord? text <|> wholeNumber? text <|> wholeQuoted? text <|> exactOperator? text

def longest? (text : List Char) : Option Lexeme := text.inits.reverse.findSome? ofRaw?

structure Longest (text whole : List Char) : Prop where
  isPrefix : text <+: whole
  isTokenText : IsTokenText text
  longest : ∀ other, other <+: whole → IsTokenText other → other.length ≤ text.length

variable {c : Char} {text whole rest other : List Char} {l : Lexeme}

theorem lawful_of_wholeQuoted? (h : wholeQuoted? text = some l) : l.Lawful ∧ l.raw = text := by
  unfold wholeQuoted? at h
  split at h
  . contradiction
  . next mark rest =>
    split at h
    . next hmark =>
      rcases hmark with ⟨hquote, hlast, hmem⟩
      injection h with h
      subst h
      refine ⟨.quoted hquote hmem, ?_⟩
      rcases List.getLast?_eq_some_iff.mp hlast with ⟨inner, rfl⟩
      simp [raw]
    . contradiction

theorem lawful_of_exactOperator? (h : exactOperator? text = some l) :
    l.Lawful ∧ l.raw = text := by
  unfold exactOperator? at h
  rw [Option.map_eq_some_iff] at h
  rcases h with ⟨kind, hkind, rfl⟩
  rw [operatorKind?_eq_some_iff] at hkind
  exact ⟨.operator hkind, rfl⟩

theorem lawful_of_ofRaw? (h : ofRaw? text = some l) : l.Lawful ∧ l.raw = text := by
  simp only [ofRaw?, Option.orElse_eq_orElse, Option.orElse_eq_or, Option.or_eq_some_iff] at h
  rcases h with h | ⟨-, h | ⟨-, h | ⟨-, h⟩⟩⟩
  . unfold wholeWord? at h
    split at h
    . next hword =>
      injection h with h
      subst h
      exact ⟨.word hword, rfl⟩
    . contradiction
  . unfold wholeNumber? at h
    rw [Option.map_eq_some_iff] at h
    rcases h with ⟨d, hd, rfl⟩
    exact ⟨.number (numeral_of_ofText? hd), rfl⟩
  . exact lawful_of_wholeQuoted? h
  . exact lawful_of_exactOperator? h

theorem isSome_ofRaw? (h : IsTokenText text) : (ofRaw? text).isSome := by
  simp only [ofRaw?, Option.orElse_eq_orElse, Option.orElse_eq_or, Option.isSome_or,
    Bool.or_eq_true]
  rcases h with hword | ⟨d, hnumeral⟩ | ⟨mark, inner, rfl, hmark, hinner⟩ | ⟨kind, hmem⟩
  . simp [wholeWord?, hword]
  . simp [wholeNumber?, ofText?_of_numeral hnumeral]
  . simp [wholeQuoted?, hmark, hinner]
  . simp [exactOperator?_of_mem hmem]

theorem ofRaw?_eq_some_iff : ofRaw? text = some l ↔ l.Lawful ∧ l.raw = text := by
  constructor
  . exact lawful_of_ofRaw?
  . intro h
    rcases h with ⟨hlawful, hraw⟩
    have hsome := isSome_ofRaw? ((isTokenText_iff text).mpr ⟨l, hlawful, hraw⟩)
    rcases Option.isSome_iff_exists.mp hsome with ⟨found, hfound⟩
    rcases lawful_of_ofRaw? hfound with ⟨hlawful', hraw'⟩
    rw [hfound, hlawful'.eq_of_raw_eq hlawful (hraw'.trans hraw.symm)]

theorem isTokenText_iff_isSome : IsTokenText text ↔ (ofRaw? text).isSome := by
  rw [isTokenText_iff, Option.isSome_iff_exists]
  simp only [ofRaw?_eq_some_iff]

instance : DecidablePred IsTokenText := fun _ => decidable_of_iff _ isTokenText_iff_isSome.symm

theorem Longest.unique (h : Longest text whole) (h' : Longest other whole) : text = other := by
  have hle := h.longest other h'.isPrefix h'.isTokenText
  have hge := h'.longest text h.isPrefix h.isTokenText
  exact (List.prefix_of_prefix_length_le h.isPrefix h'.isPrefix hge).eq_of_length (by omega)

theorem pairwise_inits (text : List Char) :
    text.inits.Pairwise fun x y => x.length ≤ y.length := by
  induction text with
  | nil => simp
  | cons c text ih =>
    rw [List.inits_cons, List.pairwise_cons, List.pairwise_map]
    constructor
    . simp
    . simpa using ih

theorem longest_of_longest? (h : longest? whole = some l) : l.Lawful ∧ Longest l.raw whole := by
  unfold longest? at h
  rw [List.findSome?_eq_some_iff] at h
  rcases h with ⟨longer, text, shorter, hinits, hfound, hlonger⟩
  rcases ofRaw?_eq_some_iff.mp hfound with ⟨hlawful, rfl⟩
  have hmem : ∀ x, x <+: whole ↔ x ∈ longer ∨ x = l.raw ∨ x ∈ shorter := by
    intro x
    rw [← List.mem_inits, ← List.mem_reverse, hinits]
    simp
  have hlengths := pairwise_inits whole
  rw [← List.reverse_reverse whole.inits, hinits, List.pairwise_reverse, List.pairwise_append,
    List.pairwise_cons] at hlengths
  refine ⟨hlawful, (hmem _).mpr (.inr (.inl rfl)), (isTokenText_iff _).mpr ⟨l, hlawful, rfl⟩, ?_⟩
  intro other hother htoken
  rw [isTokenText_iff_isSome] at htoken
  rcases (hmem other).mp hother with h | rfl | h
  . rw [hlonger other h] at htoken
    contradiction
  . exact Nat.le_refl _
  . exact hlengths.2.1.1 other h

theorem longest?_eq_none_iff :
    longest? whole = none ↔ ∀ text, text <+: whole → ¬ IsTokenText text := by
  unfold longest?
  rw [List.findSome?_eq_none_iff]
  simp only [List.mem_reverse, List.mem_inits, isTokenText_iff_isSome, Option.not_isSome_iff_eq_none]

theorem longest?_eq_some_iff : longest? whole = some l ↔ l.Lawful ∧ Longest l.raw whole := by
  constructor
  . exact longest_of_longest?
  . intro h
    rcases h with ⟨hlawful, hlongest⟩
    cases hfound : longest? whole with
    | none =>
      rw [longest?_eq_none_iff] at hfound
      exact absurd hlongest.isTokenText (hfound _ hlongest.isPrefix)
    | some found =>
      rcases longest_of_longest? hfound with ⟨hlawful', hlongest'⟩
      rw [hlawful'.eq_of_raw_eq hlawful (hlongest'.unique hlongest)]

theorem longest_of_closed (h : l.Lawful) (hclosed : l.Closed rest) :
    Longest l.raw (l.raw ++ rest) := by
  refine ⟨List.prefix_append _ _, (isTokenText_iff _).mpr ⟨l, h, rfl⟩, ?_⟩
  intro other hother htoken
  rcases (isTokenText_iff other).mp htoken with ⟨l', h', rfl⟩
  rcases List.prefix_or_prefix_of_prefix hother (List.prefix_append l.raw rest) with
    hshort | ⟨more, hmore⟩
  . exact hshort.length_le
  -- A longer one would begin with the same lexeme, which is over before the rest of it.
  . rw [← hmore, List.prefix_append_right_inj] at hother
    have hhead : l.Closed more := by
      intro c hc
      apply hclosed c
      rcases List.head?_eq_some_iff.mp hc with ⟨tail, rfl⟩
      rcases hother with ⟨after, rfl⟩
      rfl
    have hfound := first?_of_closed h hhead
    rw [hmore, first?_raw h'] at hfound
    injection hfound with hsame
    rw [hsame]

theorem Stuck.of_isPrefix (h : Stuck whole) (hstart : c :: text <+: whole) :
    Stuck (c :: text) := by
  rcases hstart with ⟨rest, rfl⟩
  cases h with
  | quote hc hrest =>
    apply Stuck.quote hc
    intro hmem
    exact hrest (List.mem_append_left rest hmem)
  | mark hquote hletter hdigit hmark hdouble =>
    apply Stuck.mark hquote hletter hdigit hmark
    intro hc hhead
    apply hdouble hc
    rcases List.head?_eq_some_iff.mp hhead with ⟨tail, rfl⟩
    rfl

theorem not_isTokenText_of_stuck (h : Stuck whole) (htext : text <+: whole) :
    ¬ IsTokenText text := by
  intro htoken
  rcases (isTokenText_iff text).mp htoken with ⟨l, hlawful, rfl⟩
  have hfound := first?_raw hlawful
  cases hraw : l.raw with
  | nil => exact (raw_first? hfound).2 hraw
  | cons c inner =>
    rw [hraw] at htext hfound
    rw [first?_of_stuck (h.of_isPrefix htext)] at hfound
    contradiction

theorem first?_eq_longest? (text : List Char) : first? text = longest? text := by
  cases hfound : first? text with
  | some l =>
    rcases first?_eq_some_iff.mp hfound with ⟨rest, rfl, hlawful, hclosed⟩
    exact (longest?_eq_some_iff.mpr ⟨hlawful, longest_of_closed hlawful hclosed⟩).symm
  | none =>
    symm
    rw [longest?_eq_none_iff]
    intro other hother
    rcases first?_eq_none_iff.mp hfound with rfl | hstuck
    . rw [List.prefix_nil] at hother
      rw [hother]
      intro htoken
      rcases (isTokenText_iff []).mp htoken with ⟨l, hlawful, hraw⟩
      exact (raw_first? (first?_raw hlawful)).2 hraw
    . exact not_isTokenText_of_stuck hstuck hother

end SketchLang.Lexeme
