import Mathlib.Data.List.Basic
import SketchLang.Proofs.Lexeme.Reading
import SketchLang.Proofs.Scan.Run

/-!
This module contains the tokens that a scan has found when it ends. A scan that fails hands out
none of them, so they are taken from the events that it reports. More text after the source can
change the last of them only, and not even that one if the scan fails, or if a blank or a closing
quotation mark ends the source (`Scan.emitted_isPrefix_append`).
-/

namespace SketchLang.Scan

def Event.token? : Event → Option Token
  | .token t => some t
  | .finished _ | .failed _ _ => none

def emitted (mode : LineMode) (source : String) : List Token :=
  ((ofString mode source).log.filterMap Event.token?).takeWhile (!·.isEof)

variable {mode : LineMode} {source : String} {position : Position} {token : Token}
  {text rest : List Char} {pieces : List Piece}

theorem exists_reads_of_mem_tokensFrom (h : Cuts text pieces rest)
    (htoken : token ∈ tokensFrom mode position pieces) :
    ∃ x, Lexeme.Reads x token.kind token.lexeme token.value := by
  induction h generalizing position with
  | halt => contradiction
  | @cons piece text pieces rest hlawful hclosed hcuts ih =>
    simp only [tokensFrom, List.mem_append] at htoken
    cases htoken with
    | inl htoken =>
      cases piece with
      | blank c => contradiction
      | lexeme l =>
        simp only [Piece.token?, Option.toList_some, List.mem_singleton] at htoken
        rw [htoken]
        exact ⟨l.raw, Lexeme.reads_token hlawful _⟩
    | inr htoken => exact ih htoken

theorem isEof_eq_false_of_mem_tokensFrom (h : Cuts text pieces rest)
    (htoken : token ∈ tokensFrom mode position pieces) : token.isEof = false := by
  rcases exists_reads_of_mem_tokensFrom h htoken with ⟨x, hreads⟩
  simpa [Token.isEof] using hreads.kind_ne_eof

theorem emitted_of_cuts (mode : LineMode) (h : Cuts source.toList pieces rest) :
    emitted mode source = tokensFrom mode .start pieces := by
  have hrun : Cuts (Cursor.ofString mode source).rest pieces rest := h
  have hstanding : ∀ token ∈ tokensFrom mode .start pieces, !token.isEof := by
    intro token htoken
    rw [isEof_eq_false_of_mem_tokensFrom h htoken]
    rfl
  have htokens : Event.token? ∘ .token = some := rfl
  unfold emitted ofString
  rw [run_start_of_cuts hrun]
  simp only [Cursor.ofString]
  cases rest with
  | nil =>
    simp only [reportFrom, List.filterMap_append, List.filterMap_map, htokens, List.filterMap_some]
    rw [List.takeWhile_append_of_pos hstanding]
    simp [Event.token?, Token.isEof, Token.eof, Token.plain]
  | cons c rest =>
    simp only [reportFrom, List.filterMap_append, List.filterMap_map, htokens, List.filterMap_some]
    rw [List.takeWhile_append_of_pos hstanding]
    simp [Event.token?, List.filterMap]

theorem eq_emitted_of_tokenize {tokens : List Token} (h : tokenize mode source = .ok tokens) :
    tokens = emitted mode source ++ [.eof (.reached mode source.toList)] := by
  have haccepts : Accepts mode source := ⟨tokens, h⟩
  rw [accepts_iff] at haccepts
  rcases haccepts with ⟨pieces, hcuts⟩
  rw [tokenize_of_cuts_nil hcuts] at h
  injection h with h
  rw [emitted_of_cuts mode hcuts, h]

theorem tokensFrom_isPrefix_emitted {a b : String} {tail : List Piece} (mode : LineMode)
    (h : Cuts a.toList (pieces ++ tail) rest)
    (hlast : ∀ piece, pieces.getLast? = some piece → piece.Closed (textOf tail ++ rest) →
      piece.Closed (textOf tail ++ rest ++ b.toList)) :
    tokensFrom mode .start pieces <+: emitted mode (a ++ b) := by
  rcases h.exists_extend b.toList hlast with ⟨tail', rest', hcuts⟩
  rw [← String.toList_append] at hcuts
  rw [emitted_of_cuts mode hcuts, tokensFrom_append]
  apply List.prefix_append

theorem emitted_isPrefix_of_closed {a : String} (mode : LineMode) (b : String)
    (h : Cuts a.toList pieces rest)
    (hlast : rest = [] → ∀ piece, pieces.getLast? = some piece → ∀ more, piece.Closed more) :
    emitted mode a <+: emitted mode (a ++ b) := by
  rw [emitted_of_cuts mode h]
  rw [← List.append_nil pieces] at h
  apply tokensFrom_isPrefix_emitted mode h
  intro piece hpiece hclosed
  simp only [textOf_nil, List.nil_append] at hclosed ⊢
  by_cases hrest : rest = []
  . exact hlast hrest piece hpiece _
  . exact Piece.closed_congr (List.head?_append_of_ne_nil _ hrest).symm hclosed

theorem dropLast_emitted_isPrefix (mode : LineMode) (a b : String) :
    (emitted mode a).dropLast <+: emitted mode (a ++ b) := by
  rcases exists_cuts a.toList with ⟨pieces, rest, hcuts⟩
  rw [emitted_of_cuts mode hcuts]
  rcases List.eq_nil_or_concat pieces with rfl | ⟨front, last, rfl⟩
  . apply List.nil_prefix
  . rw [List.concat_eq_append] at hcuts ⊢
    have hlawful : last.Lawful := hcuts.lawful_of_mem (by simp)
    have hne : textOf [last] ++ rest ≠ [] := by simp [Piece.raw_ne_nil hlawful]
    -- The last piece keeps its first character, so the pieces before it stay.
    have hfront : tokensFrom mode .start front <+: emitted mode (a ++ b) := by
      apply tokensFrom_isPrefix_emitted mode hcuts
      intro piece _ hclosed
      exact Piece.closed_congr (List.head?_append_of_ne_nil _ hne).symm hclosed
    apply List.IsPrefix.trans _ hfront
    rw [tokensFrom_append]
    cases last with
    | blank c =>
      simp only [tokensFrom, Piece.token?, Option.toList_none, List.append_nil]
      apply List.dropLast_prefix
    | lexeme l => simp [tokensFrom, Piece.token?]

theorem exists_eq_blank_of_getLast? {c : Char} {piece : Piece} (h : Cuts text pieces [])
    (hpiece : pieces.getLast? = some piece) (hlast : text.getLast? = some c) (hc : isBlank c) :
    ∃ d, piece = .blank d := by
  have hlawful := h.lawful_of_mem (List.mem_of_getLast? hpiece)
  rcases List.getLast?_eq_some_iff.mp hpiece with ⟨front, rfl⟩
  cases piece with
  | blank d => exact ⟨d, rfl⟩
  | lexeme l =>
    rcases not_isBlank_last_of_lawful hlawful with ⟨inner, d, hraw, hd⟩
    rw [h.text_eq, textOf_append, textOf_cons, Piece.raw, hraw] at hlast
    simp only [textOf_nil, List.append_nil, ← List.append_assoc, List.getLast?_concat,
      Option.some.injEq] at hlast
    rw [hlast, hc] at hd
    contradiction

theorem closed_of_kind_eq_string {piece : Piece} (h : Cuts text pieces [])
    (hpiece : pieces.getLast? = some piece)
    (htoken : (tokensFrom mode position pieces).getLast? = some token)
    (hkind : token.kind = .string) (more : List Char) : piece.Closed more := by
  have hlawful := h.lawful_of_mem (List.mem_of_getLast? hpiece)
  rcases List.getLast?_eq_some_iff.mp hpiece with ⟨front, rfl⟩
  cases piece with
  | blank d => trivial
  | lexeme l =>
    rw [tokensFrom_append] at htoken
    simp only [tokensFrom, Piece.token?, Option.toList_some, List.append_nil,
      List.getLast?_concat, Option.some.injEq] at htoken
    rw [← htoken] at hkind
    rcases Lexeme.Lawful.exists_eq_quoted hlawful hkind with ⟨mark, inner, rfl⟩
    intro c _ hcontinued
    exact hcontinued

theorem emitted_isPrefix_append (mode : LineMode) (a b : String) :
    (emitted mode a).dropLast <+: emitted mode (a ++ b) ∧
    (¬ Accepts mode a → emitted mode a <+: emitted mode (a ++ b)) ∧
    (∀ c, a.toList.getLast? = some c → c = ' ' ∨ c = '\t' ∨ c = '\r' ∨ c = '\n' →
      emitted mode a <+: emitted mode (a ++ b)) ∧
    ∀ token, (emitted mode a).getLast? = some token → token.kind = .string →
      emitted mode a <+: emitted mode (a ++ b) := by
  rcases exists_cuts a.toList with ⟨pieces, rest, hcuts⟩
  refine ⟨?_, ?_, ?_, ?_⟩
  . apply dropLast_emitted_isPrefix
  . intro hnot
    apply emitted_isPrefix_of_closed mode b hcuts
    rintro rfl
    rw [accepts_iff] at hnot
    exact absurd ⟨pieces, hcuts⟩ hnot
  . intro c hlast hc
    rw [← isBlank_iff] at hc
    apply emitted_isPrefix_of_closed mode b hcuts
    rintro rfl piece hpiece more
    rcases exists_eq_blank_of_getLast? hcuts hpiece hlast hc with ⟨d, rfl⟩
    trivial
  . intro token htoken hkind
    apply emitted_isPrefix_of_closed mode b hcuts
    rintro rfl piece hpiece more
    rw [emitted_of_cuts mode hcuts] at htoken
    exact closed_of_kind_eq_string hcuts hpiece htoken hkind more

theorem emitted_isPrefix_append_of_string :
    (emitted .track "x '\n'").getLast? = some (.plain .string "\n" ⟨2, 1⟩) ∧
      emitted .track "x '\n'" <+: emitted .track ("x '\n'" ++ "'") := by
  have hlast : (emitted .track "x '\n'").getLast? = some (.plain .string "\n" ⟨2, 1⟩) := by
    with_unfolding_all rfl
  exact ⟨hlast, (emitted_isPrefix_append .track "x '\n'" "'").2.2.2 _ hlast rfl⟩

end SketchLang.Scan
