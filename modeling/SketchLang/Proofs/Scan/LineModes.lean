import SketchLang.Proofs.Scan.Consumed
import SketchLang.Proofs.Scan.Equality

namespace SketchLang.Scan

structure SamePlace (source : List Char) (flat track : Position) : Prop where
  line : flat.line = 1
  inside : flat.column ≤ source.length
  track : track = .reached .track (source.take flat.column)

structure SameToken (source : List Char) (flat track : Token) : Prop where
  kind : flat.kind = track.kind
  lexeme : flat.lexeme = track.lexeme
  value : flat.value = track.value
  place : SamePlace source flat.position track.position

inductive SameResult (source : List Char) : Result → Result → Prop
  | ok {tokens tokens' : List Token} (h : List.Forall₂ (SameToken source) tokens tokens') :
    SameResult source (.ok tokens) (.ok tokens')
  | error {fault : Fault} {flat track : Position} (h : SamePlace source flat track) :
    SameResult source (.error ⟨fault, flat⟩) (.error ⟨fault, track⟩)

variable {source : String} {done text rest : List Char} {pieces : List Piece}

theorem samePlace_reached (done rest : List Char) :
    SamePlace (done ++ rest) (.reached .flat done) (.reached .track done) := by
  constructor
  . rfl
  . simp [Position.reached]
  . have htake : (done ++ rest).take (Position.reached .flat done).column = done := List.take_left
    rw [htake]

theorem sameToken_token (l : Lexeme) {flat track : Position} (h : SamePlace text flat track) :
    SameToken text (l.token flat) (l.token track) := by
  cases l with
  | _ => exact ⟨rfl, rfl, rfl, h⟩

theorem sameToken_tokensFrom (done : List Char) (pieces : List Piece) (rest : List Char) :
    List.Forall₂ (SameToken (done ++ textOf pieces ++ rest))
      (tokensFrom .flat (.reached .flat done) pieces)
      (tokensFrom .track (.reached .track done) pieces) := by
  -- Both scans have consumed `done`, and one more piece of the source after each step.
  induction pieces generalizing done with
  | nil => apply List.Forall₂.nil
  | cons piece pieces ih =>
    have hrest := ih (done ++ piece.raw)
    have hplace := samePlace_reached (done ++ piece.raw) (textOf pieces ++ rest)
    simp only [tokensFrom]
    rw [Position.after_reached, Position.after_reached]
    simp only [textOf_cons, List.append_assoc] at hrest hplace ⊢
    cases piece with
    | blank c => exact hrest
    | lexeme l =>
      apply List.Forall₂.cons
      . apply sameToken_token
        exact hplace
      . exact hrest

theorem sameResult_of_cuts (h : Cuts source.toList pieces rest) :
    SameResult source.toList (tokenize .flat source) (tokenize .track source) := by
  have htokens := sameToken_tokensFrom [] pieces rest
  rw [List.nil_append, ← h.text_eq, Position.reached_nil, Position.reached_nil] at htokens
  rcases consumedFrom_isPrefix pieces rest with ⟨left, hleft⟩
  have hplace := samePlace_reached (consumedFrom pieces rest) left
  rw [hleft, ← h.text_eq] at hplace
  rw [tokenize_eq_resultFrom .flat h, tokenize_eq_resultFrom .track h]
  cases rest with
  | nil =>
    apply SameResult.ok
    apply List.rel_append htokens
    exact .cons ⟨rfl, rfl, rfl, hplace⟩ .nil
  | cons c rest => exact .error hplace

theorem tokensFrom_of_not_mem (mode mode' : LineMode) (position : Position)
    (h : '\n' ∉ textOf pieces) :
    tokensFrom mode position pieces = tokensFrom mode' position pieces := by
  induction pieces generalizing position with
  | nil => rfl
  | cons piece pieces ih =>
    rw [textOf_cons, List.mem_append, not_or] at h
    simp only [tokensFrom]
    rw [Position.after_of_not_mem mode mode' position h.1]
    rw [ih _ h.2]

theorem resultFrom_of_not_mem (hnot : '\n' ∉ consumedFrom pieces rest) :
    resultFrom .flat pieces rest = resultFrom .track pieces rest := by
  have hreached := (Position.reached_flat_eq_track_iff _).mpr hnot
  cases rest with
  | nil =>
    simp only [resultFrom]
    rw [hreached, tokensFrom_of_not_mem .flat .track .start hnot]
  | cons c rest =>
    simp only [resultFrom]
    rw [hreached]

theorem not_mem_of_resultFrom_beq
    (hbeq : resultFrom .flat pieces rest == resultFrom .track pieces rest) :
    '\n' ∉ consumedFrom pieces rest := by
  -- The last position that a scan reports is the one after all that it has read.
  rw [← Position.reached_flat_eq_track_iff]
  cases rest with
  | nil =>
    have hlast := Token.beq_of_append_beq_append hbeq
    exact Token.position_eq_of_beq hlast
  | cons c rest =>
    have herror := error_eq_of_beq hbeq
    injection herror

theorem tokenize_flat_track (source : String) :
    SameResult source.toList (tokenize .flat source) (tokenize .track source) ∧
    ∃ text, (∀ mode text', Consumes mode source text' ↔ text' = text) ∧
      (tokenize .flat source == tokenize .track source ↔ '\n' ∉ text) := by
  rcases exists_cuts source.toList with ⟨pieces, rest, hcuts⟩
  refine ⟨sameResult_of_cuts hcuts, consumedFrom pieces rest, ?_, ?_⟩
  . intro mode text'
    exact consumes_iff_of_cuts mode hcuts
  . have hself := tokenize_beq_self .track source
    rw [tokenize_eq_resultFrom .track hcuts] at hself
    rw [tokenize_eq_resultFrom .flat hcuts, tokenize_eq_resultFrom .track hcuts]
    constructor
    . exact not_mem_of_resultFrom_beq
    . intro hnot
      rw [resultFrom_of_not_mem hnot]
      exact hself

end SketchLang.Scan
