import SketchLang.Proofs.Scan.Emitted
import SketchLang.Proofs.Scan.Fault
import SketchLang.Proofs.Scan.Resume

namespace SketchLang.Scan

variable {mode : LineMode} {a b : String} {c : Char} {rest : List Char} {pieces pieces' : List Piece}

theorem tokenize_append_of_cuts (ha : textOf pieces = a.toList) (hb : Cuts b.toList pieces' rest)
    (h : Cuts (a ++ b).toList (pieces ++ pieces') rest) :
    tokenize mode (a ++ b) = (Result.shift (.reached mode a.toList) (tokenize mode b)).map
      (tokensFrom mode .start pieces ++ ·) := by
  have htokens := tokensFrom_append mode .start pieces pieces'
  rw [Position.after_start, ha, tokensFrom_eq_shift mode (.reached mode a.toList)] at htokens
  have hposition : Position.reached mode (textOf (pieces ++ pieces')) =
      (Position.reached mode a.toList).shift (.reached mode (textOf pieces')) := by
    rw [textOf_append, ha, ← Position.after_reached, Position.after_eq_shift]
  rw [tokenize_of_cuts h, htokens, hposition]
  cases rest with
  | nil =>
    rw [tokenize_of_cuts_nil hb]
    rw [hb.text_eq, List.append_nil]
    simp [reportFrom, Result.shift, Except.map, Token.shift, Token.eof, Token.plain]
  | cons d rest =>
    rw [tokenize_of_cuts_cons hb]
    simp only [reportFrom]
    rw [errorFrom_shift]
    rfl

theorem tokenize_push_append_of_accepts (b : String) (h : Accepts mode a) (hc : isBlank c) :
    tokenize mode (a.push c ++ b) =
      (Result.shift (.reached mode (a.push c).toList) (tokenize mode b)).map
        (emitted mode a ++ ·) := by
  rw [accepts_iff] at h
  rcases h with ⟨pieces, ha⟩
  rcases exists_cuts b.toList with ⟨pieces', rest, hb⟩
  have hblank : (Piece.blank c).Lawful := hc
  have hcuts := ha.append (.cons hblank trivial hb) fun _ =>
    separates_of_head? (separates_of_isBlank hc)
  have htext : textOf (pieces ++ [.blank c]) = (a.push c).toList := by
    rw [textOf_append, String.toList_push, ha.text_eq]
    simp [Piece.raw]
  have hwhole : Cuts (a.push c ++ b).toList (pieces ++ [.blank c] ++ pieces') rest := by
    rw [String.toList_append, String.toList_push]
    simpa [Piece.raw] using hcuts
  -- The blank makes no token.
  have htokens := tokensFrom_append mode .start pieces [.blank c]
  simp only [tokensFrom, Piece.token?, Option.toList_none, List.append_nil] at htokens
  rw [tokenize_append_of_cuts htext hb hwhole]
  rw [htokens, emitted_of_cuts mode ha]

theorem tokenize_push_append (mode : LineMode) (a b : String)
    (hc : c = ' ' ∨ c = '\t' ∨ c = '\r' ∨ c = '\n') :
    (∀ tokens, tokenize mode a = .ok tokens →
      ∃ standing, tokens = standing ++ [.eof (.reached mode a.toList)] ∧
        (∀ tokens', tokenize mode b = .ok tokens' →
          tokenize mode (a.push c ++ b) =
            .ok (standing ++ tokens'.map (Token.shift (.reached mode (a.push c).toList)))) ∧
        ∀ error, tokenize mode b = .error error →
          tokenize mode (a.push c ++ b) =
            .error (error.shift (.reached mode (a.push c).toList))) ∧
    ∀ d position, tokenize mode a = .error ⟨.unrecognizedCharacter d, position⟩ →
      tokenize mode (a.push c ++ b) = .error ⟨.unrecognizedCharacter d, position⟩ := by
  rw [← isBlank_iff] at hc
  constructor
  . intro tokens h
    refine ⟨emitted mode a, eq_emitted_of_tokenize h, ?_, ?_⟩
    . intro tokens' hb
      rw [tokenize_push_append_of_accepts b ⟨tokens, h⟩ hc]
      rw [hb]
      rfl
    . intro error hb
      rw [tokenize_push_append_of_accepts b ⟨tokens, h⟩ hc]
      rw [hb]
      rfl
  . intro d position h
    rcases exists_stopsAt_of_tokenize h with ⟨before, rest, hstops⟩
    rw [(hstops.push_append hc b).tokenize_eq]
    rw [← hstops.tokenize_eq]
    exact h

theorem tokenize_push_append_line_feed :
    ('\n' = ' ' ∨ '\n' = '\t' ∨ '\n' = '\r' ∨ '\n' = '\n') ∧
    tokenize .track ("x=".push '\n' ++ "='\n'.") =
      .ok [.plain .identifier "x" ⟨1, 1⟩, .plain .assign "=" ⟨1, 2⟩, .plain .assign "=" ⟨2, 1⟩,
        .plain .string "\n" ⟨3, 1⟩, .plain .period "." ⟨3, 2⟩, .eof ⟨3, 2⟩] ∧
    tokenize .track ("&".push '\n' ++ "&") = .error ⟨.unrecognizedCharacter '&', ⟨1, 1⟩⟩ := by
  have hfirst : tokenize .track "x=" = .ok ([.plain .identifier "x" ⟨1, 1⟩,
      .plain .assign "=" ⟨1, 2⟩] ++ [.eof ⟨1, 2⟩]) := by
    with_unfolding_all rfl
  have hsecond : tokenize .track "='\n'." = .ok [.plain .assign "=" ⟨1, 1⟩,
      .plain .string "\n" ⟨2, 1⟩, .plain .period "." ⟨2, 2⟩, .eof ⟨2, 2⟩] := by
    with_unfolding_all rfl
  have hfault : tokenize .track "&" = .error ⟨.unrecognizedCharacter '&', ⟨1, 1⟩⟩ := by
    with_unfolding_all rfl
  refine ⟨by decide, ?_, ?_⟩
  . rcases (tokenize_push_append .track "x=" "='\n'." (.inr (.inr (.inr rfl)))).1 _ hfirst with
      ⟨standing, htokens, haccepted, -⟩
    have hstanding := (List.append_inj' htokens rfl).1
    rw [haccepted _ hsecond, ← hstanding]
    rfl
  . exact (tokenize_push_append .track "&" "&" (.inr (.inr (.inr rfl)))).2 _ _ hfault

end SketchLang.Scan
