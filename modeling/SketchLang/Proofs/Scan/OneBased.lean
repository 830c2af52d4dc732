import SketchLang.Proofs.Scan.Consumed
import SketchLang.Proofs.Scan.Emitted
import SketchLang.Proofs.Scan.SourceMap

/-!
This module contains which character the position of a token or of an error names, where lines and
columns are counted from 1. It is the last character that was read, but for a source in track mode
that ends by a line feed inside a string: the position of that error names no character, because its
column is 0 (`Scan.positions_oneBased`).
-/

namespace SketchLang.Scan

structure NamesLast (mode : LineMode) (source : List Char) (span : Span) (token : Token) :
    Prop where
  nonempty : span.start < span.stop
  inside : span.stop ≤ source.length
  raw : StandsAs token (span.slice source)
  last : ∃ before c, source.take span.stop = before ++ [c] ∧ token.position = .oneBased mode before

variable {mode : LineMode} {source done rest : List Char}

theorem namesLast_token {l : Lexeme} (mode : LineMode) (hlawful : l.Lawful)
    (hsource : source = done ++ l.raw ++ rest) :
    NamesLast mode source ⟨done.length, done.length + l.raw.length⟩
      (l.token (.reached mode (done ++ l.raw))) := by
  have hmarks := marks_token mode hlawful hsource
  have hposition := hmarks.position
  rcases not_isBlank_last_of_lawful hlawful with ⟨inner, c, hraw, hc⟩
  have htake : source.take (done.length + l.raw.length) = done ++ inner ++ [c] := by
    rw [hsource, ← List.length_append, List.take_left, hraw]
    simp
  have hline : ¬ (mode = .track ∧ c = '\n') := by
    rintro ⟨-, rfl⟩
    contradiction
  refine ⟨hmarks.nonempty, hmarks.inside, hmarks.raw, done ++ inner, c, htake, ?_⟩
  rw [hposition, htake]
  exact Position.reached_append_of_not hline _

theorem positions_oneBased (mode : LineMode) (source : String) :
    (∀ tokens, tokenize mode source = .ok tokens →
      ∃ position, tokens = emitted mode source ++ [.eof position]) ∧
    (∃ spans, spans.IsChain (fun span next => span.stop ≤ next.start) ∧
      List.Forall₂ (NamesLast mode source.toList) spans (emitted mode source)) ∧
    ∀ error, tokenize mode source = .error error →
      ∃ before c, Consumes mode source (before ++ [c]) ∧
        if mode = .track ∧ c = '\n' then
          ∃ mark, error = ⟨.unterminatedString mark, ⟨2 + before.count '\n', 0⟩⟩
        else
          error.position = .oneBased mode before := by
  refine ⟨?_, ?_, ?_⟩
  . intro tokens h
    exact ⟨_, eq_emitted_of_tokenize h⟩
  . rcases exists_cuts source.toList with ⟨pieces, rest, hcuts⟩
    refine ⟨spansOf 0 pieces, isChain_spansOf 0 pieces, ?_⟩
    rw [emitted_of_cuts mode hcuts, ← Position.reached_nil mode]
    apply forall₂_spansOf hcuts (List.nil_append _).symm
    intro done rest l hlawful
    exact namesLast_token mode hlawful
  . intro error h
    rcases exists_consumes_of_tokenize h with ⟨before, c, hconsumes, hposition, hfault⟩
    refine ⟨before, c, hconsumes, ?_⟩
    split
    . next hline =>
      rcases hfault hline.2 with ⟨mark, hmark⟩
      rw [hline.1, hline.2, Position.reached_append_line_feed] at hposition
      exact ⟨mark, by rw [← hmark, ← hposition]⟩
    . next hline =>
      rw [hposition]
      exact Position.reached_append_of_not hline before

theorem not_oneBased_of_line_feed :
    ∃ error, tokenize .track "'\n" = .error error ∧
      Consumes .track "'\n" (['\''] ++ ['\n']) ∧ error.position = ⟨2, 0⟩ ∧
      error.position ≠ .oneBased .track ['\''] := by
  have hopen : LeavesOpen .track "'\n" [] '\'' ['\n'] := by
    constructor
    . rfl
    . exact ⟨[.eof .start], by with_unfolding_all rfl⟩
    . rfl
    . decide
  refine ⟨⟨.unterminatedString '\'', ⟨2, 0⟩⟩, ?_, .leavesOpen hopen, rfl, ?_⟩
  . with_unfolding_all rfl
  . decide

end SketchLang.Scan
