import SketchLang.Proofs.Binary64.Correct
import SketchLang.Proofs.Lexeme.Recognition

namespace SketchLang.Lexeme

inductive Reads : List Char → Token.Kind → String → Token.Value → Prop
  | keyword (k : Keyword) : Reads k.spelling.toList .keyword k.spelling (.keyword k)
  | true : Reads "true".toList .boolean "true" (.boolean true)
  | false : Reads "false".toList .boolean "false" (.boolean false)
  | identifier {text : List Char} (h : IsWord text)
    (hkeyword : ∀ k : Keyword, String.ofList text ≠ k.spelling)
    (htrue : String.ofList text ≠ "true") (hfalse : String.ofList text ≠ "false") :
    Reads text .identifier (String.ofList text) (.text (String.ofList text))
  | number {text : List Char} {d : Decimal} {x : Binary64} (h : Numeral text d)
    (hrounds : Binary64.RoundsToNearest d.toRat x) :
    Reads text .number (String.ofList text) (.number x)
  | quoted {mark : Char} {inner : List Char} (hmark : isQuote mark) (hinner : mark ∉ inner) :
    Reads (mark :: inner ++ [mark]) .string (String.ofList inner) (.text (String.ofList inner))
  | operator {text : List Char} {kind : Token.Kind}
    (h : (String.ofList text, kind) ∈ Token.operators) :
    Reads text kind (String.ofList text) (.text (String.ofList text))

theorem spelling_of_lookup? {word : String} {k : Keyword} (h : Keyword.lookup? word = some k) :
    k.spelling = word := by
  have := List.find?_some h
  simpa using this

theorem ne_spelling_of_lookup? {word : String} (h : Keyword.lookup? word = none) (k : Keyword) :
    word ≠ k.spelling := by
  rintro rfl
  rw [Keyword.lookup?_spelling] at h
  contradiction

theorem reads_word {text : List Char} (h : IsWord text) :
    Reads text (classify (String.ofList text)).1 (String.ofList text)
      (classify (String.ofList text)).2 := by
  unfold classify
  split
  . next k hk =>
    have hspelling := spelling_of_lookup? hk
    have htext : text = k.spelling.toList := by simp [hspelling]
    rw [htext, String.ofList_toList]
    apply Reads.keyword
  . next hnone =>
    split
    . next htrue =>
      have htext : text = "true".toList := by simp [← htrue]
      rw [htrue, htext]
      apply Reads.true
    . next htrue =>
      split
      . next hfalse =>
        have htext : text = "false".toList := by simp [← hfalse]
        rw [hfalse, htext]
        apply Reads.false
      . next hfalse =>
        apply Reads.identifier
        . assumption
        . apply ne_spelling_of_lookup?
          assumption
        . assumption
        . assumption

theorem reads_token {lexeme : Lexeme} (h : lexeme.Lawful) (position : Position) :
    let token := lexeme.token position
    Reads lexeme.raw token.kind token.lexeme token.value := by
  cases h with
  | word h =>
    apply reads_word
    assumption
  | number h =>
    apply Reads.number
    . assumption
    . apply Binary64.roundsToNearest_ofDecimal
  | quoted hmark htext =>
    apply Reads.quoted
    . assumption
    . assumption
  | operator h =>
    apply Reads.operator
    assumption

theorem classify_of_ne {word : String} (hkeyword : ∀ k : Keyword, word ≠ k.spelling)
    (htrue : word ≠ "true") (hfalse : word ≠ "false") :
    classify word = (.identifier, .text word) := by
  have hnone : Keyword.lookup? word = none := by
    cases hfound : Keyword.lookup? word with
    | none => rfl
    | some k => exact absurd (spelling_of_lookup? hfound).symm (hkeyword k)
  unfold classify
  rw [hnone]
  simp [htrue, hfalse]

theorem token_word (s : String) (position : Position) :
    (word s.toList).token position =
      ⟨(classify s).1, s, (classify s).2, position⟩ := by
  simp [token]

theorem exists_lawful_of_reads {text : List Char} {kind : Token.Kind} {lexeme : String}
    {value : Token.Value} (h : Reads text kind lexeme value) :
    ∃ l : Lexeme, l.Lawful ∧ l.raw = text ∧ ∀ p, l.token p = ⟨kind, lexeme, value, p⟩ := by
  cases h with
  | keyword k =>
    have hword : IsWord k.spelling.toList := by
      cases k <;> decide +kernel
    refine ⟨_, .word hword, rfl, ?_⟩
    intro p
    rw [token_word]
    unfold classify
    rw [Keyword.lookup?_spelling]
  | true =>
    have hword : IsWord "true".toList := by decide +kernel
    refine ⟨_, .word hword, rfl, ?_⟩
    intro p
    rw [token_word]
    rfl
  | false =>
    have hword : IsWord "false".toList := by decide +kernel
    refine ⟨_, .word hword, rfl, ?_⟩
    intro p
    rw [token_word]
    rfl
  | identifier h hkeyword htrue hfalse =>
    refine ⟨_, .word h, rfl, ?_⟩
    intro p
    simp only [token]
    rw [classify_of_ne hkeyword htrue hfalse]
  | number h hrounds =>
    rw [hrounds.eq_ofDecimal]
    exact ⟨_, .number h, rfl, fun _ => rfl⟩
  | quoted hmark hinner => exact ⟨_, .quoted hmark hinner, rfl, fun _ => rfl⟩
  | operator h => exact ⟨_, .operator h, rfl, fun _ => rfl⟩

theorem Lawful.eq_of_raw_eq {l l' : Lexeme} (h : l.Lawful) (h' : l'.Lawful)
    (hraw : l.raw = l'.raw) : l = l' := by
  -- Both are what is found at the start of the one text.
  have hfound := first?_raw h
  rw [hraw, first?_raw h'] at hfound
  injection hfound with heq
  exact heq.symm

theorem Reads.unique {text : List Char} {kind kind' : Token.Kind} {lexeme lexeme' : String}
    {value value' : Token.Value} (h : Reads text kind lexeme value)
    (h' : Reads text kind' lexeme' value') : kind = kind' ∧ lexeme = lexeme' ∧ value = value' := by
  rcases exists_lawful_of_reads h with ⟨l, hlawful, hraw, htoken⟩
  rcases exists_lawful_of_reads h' with ⟨l', hlawful', hraw', htoken'⟩
  have hsame : l = l' := by
    apply Lawful.eq_of_raw_eq
    . assumption
    . assumption
    . rw [hraw, hraw']
  have heq := htoken .start
  rw [hsame, htoken'] at heq
  injection heq with hkind hlexeme hvalue
  exact ⟨hkind.symm, hlexeme.symm, hvalue.symm⟩

theorem kind_of_mem_operators {lexeme : String} {kind : Token.Kind}
    (h : (lexeme, kind) ∈ Token.operators) : kind ≠ .string ∧ kind ≠ .eof := by
  have htable : ∀ entry ∈ Token.operators, entry.2 ≠ .string ∧ entry.2 ≠ .eof := by decide +kernel
  exact htable _ h

section Reads

variable {text : List Char} {kind : Token.Kind} {lexeme : String} {value : Token.Value}

theorem Reads.kind_ne_eof (h : Reads text kind lexeme value) : kind ≠ .eof := by
  cases h with
  | operator h => exact (kind_of_mem_operators h).2
  | _ => decide

theorem Reads.isQuoted (h : Reads text .string lexeme value) : IsQuoted text := by
  cases h with
  | quoted hmark hinner => exact ⟨_, _, rfl, hmark, hinner⟩
  | operator h => exact absurd rfl (kind_of_mem_operators h).1

theorem Reads.beq_value (h : Reads text kind lexeme value) : value == value := by
  cases h with
  | @number text d x h hrounds =>
    have hbeq := Binary64.beq_self x
    rw [hrounds.not_nan] at hbeq
    exact hbeq
  | keyword k => exact beq_self_eq_true k
  | true => rfl
  | false => rfl
  | identifier => exact beq_self_eq_true (String.ofList text)
  | quoted => exact beq_self_eq_true (String.ofList _)
  | operator => exact beq_self_eq_true (String.ofList text)

theorem Reads.eq_toList (h : Reads text kind lexeme value) (hkind : kind ≠ .string) :
    text = lexeme.toList := by
  cases h with
  | quoted => contradiction
  | _ => simp

theorem Reads.value_of_string (h : Reads text .string lexeme value) : value = .text lexeme := by
  cases h with
  | quoted => rfl
  | operator => rfl

theorem Reads.value_unique {text' : List Char} {value' : Token.Value}
    (h : Reads text kind lexeme value) (h' : Reads text' kind lexeme value') : value = value' := by
  by_cases hkind : kind = .string
  . subst hkind
    rw [h.value_of_string, h'.value_of_string]
  . have htext := h.eq_toList hkind
    rw [← h'.eq_toList hkind] at htext
    subst htext
    exact (h.unique h').2.2

end Reads

theorem Lawful.exists_eq_quoted {l : Lexeme} (h : l.Lawful) {position : Position}
    (hkind : (l.token position).kind = .string) : ∃ mark inner, l = .quoted mark inner := by
  have hreads := reads_token h position
  simp only [hkind] at hreads
  rcases hreads.isQuoted with ⟨mark, inner, hraw, hmark, hinner⟩
  exact ⟨mark, inner, h.eq_of_raw_eq (.quoted hmark hinner) hraw⟩

end SketchLang.Lexeme
