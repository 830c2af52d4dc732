import Mathlib.Data.List.Chain
import Mathlib.Data.List.Forall2
import SketchLang.Proofs.Lexeme.Reading
import SketchLang.Proofs.Scan.Run

/-!
This module contains where the tokens of an accepted source stand in it. Their places follow one
another, nothing but blanks is left between them, and from the position of a token its place can be
told (`Scan.tokenize_sourceMap`).
-/

namespace SketchLang.Scan

structure Span where
  start : Nat
  stop : Nat

def Span.slice (span : Span) (source : List Char) : List Char :=
  (source.take span.stop).drop span.start

def StandsAs (token : Token) (text : List Char) : Prop :=
  if token.kind = .string then
    ∃ mark, Lexeme.isQuote mark ∧ text = mark :: token.lexeme.toList ++ [mark]
  else
    text = token.lexeme.toList

def rawLength (token : Token) : Nat :=
  if token.kind = .string then token.lexeme.length + 2 else token.lexeme.length

structure LineStart (source : List Char) (line offset : Nat) : Prop where
  count : 1 + (source.take offset).count '\n' = line
  start : offset = 0 ∨ source[offset - 1]? = some '\n'

structure Marks (mode : LineMode) (source : List Char) (span : Span) (token : Token) : Prop where
  nonempty : span.start < span.stop
  inside : span.stop ≤ source.length
  raw : StandsAs token (span.slice source)
  position : token.position = .reached mode (source.take span.stop)

/--
The span can be told from the position of the token. In flat mode the column is an offset into the
source, in track mode into a line, if the token lies in one.
-/
structure Columns (mode : LineMode) (source : List Char) (span : Span) (token : Token) : Prop where
  flat : mode = .flat →
    token.position.line = 1 ∧
      span = ⟨token.position.column - rawLength token, token.position.column⟩
  track : mode = .track → '\n' ∉ span.slice source →
    rawLength token ≤ token.position.column ∧
      ∃ offset, LineStart source token.position.line offset ∧
        span = ⟨offset + (token.position.column - rawLength token),
          offset + token.position.column⟩

structure SourceMap (mode : LineMode) (source : List Char) (spans : List Span)
    (tokens : List Token) : Prop where
  marks : List.Forall₂ (Marks mode source) spans tokens
  columns : List.Forall₂ (Columns mode source) spans tokens
  ordered : spans.IsChain fun span next => span.stop ≤ next.start
  blank : ∀ i c, source[i]? = some c → (∀ span ∈ spans, ¬ (span.start ≤ i ∧ i < span.stop)) →
    isBlank c

def spansOf (offset : Nat) : List Piece → List Span
  | [] => []
  | .blank _ :: pieces => spansOf (offset + 1) pieces
  | .lexeme l :: pieces =>
    ⟨offset, offset + l.raw.length⟩ :: spansOf (offset + l.raw.length) pieces

variable {mode : LineMode} {source done text rest : List Char} {pieces : List Piece} {span : Span}
  {token : Token}

theorem standsAs_of_reads (h : Lexeme.Reads text token.kind token.lexeme token.value) :
    StandsAs token text := by
  unfold StandsAs
  generalize token.kind = kind, token.lexeme = lexeme, token.value = value at h ⊢
  cases h with
  | quoted hmark hinner =>
    simp only [↓reduceIte, String.toList_ofList]
    exact ⟨_, hmark, rfl⟩
  | operator h => simp [(Lexeme.kind_of_mem_operators h).1]
  | _ => simp

theorem standsAs_token {l : Lexeme} (h : l.Lawful) (position : Position) :
    StandsAs (l.token position) l.raw := by
  apply standsAs_of_reads
  apply Lexeme.reads_token
  exact h

theorem length_of_standsAs (h : StandsAs token text) : text.length = rawLength token := by
  unfold StandsAs at h
  unfold rawLength
  rw [← String.length_toList]
  split
  . next hkind =>
    rw [if_pos hkind] at h
    rcases h with ⟨mark, -, rfl⟩
    simp
  . next hkind =>
    rw [if_neg hkind] at h
    rw [h]

theorem slice_append (done text rest : List Char) :
    Span.slice ⟨done.length, done.length + text.length⟩ (done ++ text ++ rest) = text := by
  unfold Span.slice
  rw [← List.length_append]
  rw [List.take_left']
  . rw [List.drop_left]
  . rfl

theorem marks_token {l : Lexeme} (mode : LineMode) (hlawful : l.Lawful)
    (hsource : source = done ++ l.raw ++ rest) :
    Marks mode source ⟨done.length, done.length + l.raw.length⟩
      (l.token (.reached mode (done ++ l.raw))) := by
  have hpiece : (Piece.lexeme l).Lawful := hlawful
  have hpos := List.length_pos_iff.mpr (Piece.raw_ne_nil hpiece)
  simp only [Piece.raw] at hpos
  constructor
  . dsimp
    omega
  . rw [hsource]
    simp
  . rw [hsource, slice_append]
    apply standsAs_token
    assumption
  . rw [hsource]
    dsimp
    rw [← List.length_append, List.take_left']
    . cases l <;> rfl
    . rfl

theorem forall₂_spansOf {R : Span → Token → Prop} (h : Cuts text pieces rest)
    (hsource : source = done ++ text)
    (hR : ∀ (done rest : List Char) (l : Lexeme), l.Lawful → source = done ++ l.raw ++ rest →
      R ⟨done.length, done.length + l.raw.length⟩ (l.token (.reached mode (done ++ l.raw)))) :
    List.Forall₂ R (spansOf done.length pieces) (tokensFrom mode (.reached mode done) pieces) := by
  induction h generalizing done with
  | halt => apply List.Forall₂.nil
  | @cons piece text pieces rest hlawful hclosed hcuts ih =>
    rw [← List.append_assoc] at hsource
    have hrest := ih hsource
    rw [List.length_append] at hrest
    simp only [tokensFrom]
    rw [Position.after_reached]
    cases piece with
    | blank c => exact hrest
    | lexeme l =>
      apply List.Forall₂.cons
      . apply hR
        . exact hlawful
        . exact hsource
      . exact hrest

theorem marks_spansOf (mode : LineMode) (h : Cuts text pieces rest)
    (hsource : source = done ++ text) :
    List.Forall₂ (Marks mode source) (spansOf done.length pieces)
      (tokensFrom mode (.reached mode done) pieces) := by
  apply forall₂_spansOf h hsource
  intro done rest l hlawful
  exact marks_token mode hlawful

theorem le_start_of_mem_spansOf {offset : Nat} (h : span ∈ spansOf offset pieces) :
    offset ≤ span.start := by
  induction pieces generalizing offset with
  | nil => contradiction
  | cons piece pieces ih =>
    cases piece with
    | blank c =>
      have := ih h
      omega
    | lexeme l =>
      simp only [spansOf, List.mem_cons] at h
      cases h with
      | inl h => rw [h]
      | inr h =>
        have := ih h
        omega

theorem isChain_spansOf (offset : Nat) (pieces : List Piece) :
    (spansOf offset pieces).IsChain fun span next => span.stop ≤ next.start := by
  induction pieces generalizing offset with
  | nil => apply List.IsChain.nil
  | cons piece pieces ih =>
    cases piece with
    | blank c => apply ih
    | lexeme l =>
      simp only [spansOf]
      rw [List.isChain_cons]
      constructor
      . intro next hnext
        apply le_start_of_mem_spansOf
        apply List.mem_of_mem_head?
        assumption
      . apply ih

theorem isBlank_of_not_mem_spansOf {i : Nat} {c : Char} (h : Cuts text pieces [])
    (hsource : source = done ++ text) (hi : done.length ≤ i) (hc : source[i]? = some c)
    (hspans : ∀ span ∈ spansOf done.length pieces, ¬ (span.start ≤ i ∧ i < span.stop)) :
    isBlank c := by
  generalize hnil : [] = rest at h
  induction h generalizing done with
  | halt =>
    subst hnil
    rw [hsource, List.append_nil] at hc
    rw [List.getElem?_eq_none hi] at hc
    contradiction
  | @cons piece text pieces rest hlawful hclosed hcuts ih =>
    rw [← List.append_assoc] at hsource
    have hrest := ih hsource
    rw [List.length_append] at hrest
    cases piece with
    | blank d =>
      cases Nat.eq_or_lt_of_le hi with
      | inl heq =>
        rw [hsource, ← heq] at hc
        simp [Piece.raw] at hc
        rw [← hc]
        exact hlawful
      | inr hlt =>
        apply hrest
        . exact hlt
        . exact hspans
        . exact hnil
    | lexeme l =>
      simp only [spansOf] at hspans
      rw [List.forall_mem_cons] at hspans
      apply hrest
      . have hspan := hspans.1
        dsimp at hspan
        simp only [Piece.raw]
        omega
      . exact hspans.2
      . exact hnil

theorem exists_lastLine (text : List Char) :
    ∃ lines last, text = lines ++ last ∧ '\n' ∉ last ∧
      (lines = [] ∨ ∃ before, lines = before ++ ['\n']) ∧
      Position.reached .track text = ⟨1 + lines.count '\n', last.length⟩ := by
  -- The last line is counted from the end, so the text is split there.
  let p : Char → Bool := (· != '\n')
  have hsplit := List.takeWhile_append_dropWhile (p := p) (l := text.reverse)
  have hall : ∀ c ∈ text.reverse.takeWhile p, c ≠ '\n' := by
    intro c hc
    have := List.all_eq_true.mp List.all_takeWhile c hc
    simpa [p] using this
  have hlines := List.head?_dropWhile_not p text.reverse
  generalize hlast : text.reverse.takeWhile p = last at hsplit hall
  generalize text.reverse.dropWhile p = lines at hsplit hlines
  have htext : text = lines.reverse ++ last.reverse := by
    rw [← List.reverse_append, hsplit, List.reverse_reverse]
  have hnot : '\n' ∉ last.reverse := by
    rw [List.mem_reverse]
    intro hmem
    exact hall _ hmem rfl
  refine ⟨lines.reverse, last.reverse, htext, hnot, ?_, ?_⟩
  . cases lines with
    | nil => exact .inl rfl
    | cons c lines =>
      have hc : c = '\n' := by simpa [p] using hlines
      refine .inr ⟨lines.reverse, ?_⟩
      rw [hc]
      simp
  . have hcount : text.count '\n' = lines.reverse.count '\n' := by
      rw [htext, List.count_append, List.count_eq_zero.mpr hnot, Nat.add_zero]
    simp only [Position.reached]
    rw [hcount, hlast, List.length_reverse]

theorem lineStart_of_take {stop : Nat} {lines last : List Char}
    (htake : source.take stop = lines ++ last)
    (hlines : lines = [] ∨ ∃ before, lines = before ++ ['\n']) :
    LineStart source (1 + lines.count '\n') lines.length := by
  have hle : lines.length ≤ stop := by
    have := congrArg List.length htake
    rw [List.length_take, List.length_append] at this
    omega
  constructor
  . have htaken : source.take lines.length = lines := by
      have htwice := congrArg (List.take lines.length) htake
      rw [List.take_take, Nat.min_eq_left hle, List.take_left] at htwice
      exact htwice
    rw [htaken]
  . cases hlines with
    | inl hnil =>
      apply Or.inl
      rw [hnil]
      rfl
    | inr hbefore =>
      rcases hbefore with ⟨before, rfl⟩
      apply Or.inr
      rw [List.length_append] at hle ⊢
      simp only [List.length_cons, List.length_nil, Nat.zero_add, Nat.add_sub_cancel] at hle ⊢
      have hget : (source.take stop)[before.length]? = some '\n' := by
        rw [htake]
        simp
      rw [List.getElem?_take] at hget
      split at hget
      . exact hget
      . contradiction

theorem columns_of_marks (h : Marks mode source span token) : Columns mode source span token := by
  rcases span with ⟨start, stop⟩
  have hnonempty := h.nonempty
  have hinside := h.inside
  have hposition := h.position
  have hlength := length_of_standsAs h.raw
  simp only [Span.slice, List.length_drop, List.length_take] at hlength
  dsimp at hnonempty hinside hposition
  constructor
  . rintro rfl
    simp only [Position.reached, List.length_take] at hposition
    rw [hposition]
    simp only [Span.mk.injEq, true_and]
    omega
  . rintro rfl hslice
    rcases exists_lastLine (source.take stop) with ⟨lines, last, htake, hlast, hlines, hreached⟩
    rw [hreached] at hposition
    have hsum : lines.length + last.length = stop := by
      rw [← List.length_append, ← htake, List.length_take]
      omega
    -- The line feed before the last line is not in the span, so the span begins after it.
    have hbegin : lines.length ≤ start := by
      cases hlines with
      | inl hnil =>
        rw [hnil]
        apply Nat.zero_le
      | inr hbefore =>
        rcases hbefore with ⟨before, rfl⟩
        rw [List.length_append]
        apply Nat.le_of_not_lt
        intro hlt
        apply hslice
        simp only [Span.slice]
        rw [htake, List.append_assoc, List.drop_append_of_le_length]
        . simp
        . simp only [List.length_cons, List.length_nil] at hlt
          omega
    rw [hposition]
    refine ⟨?_, lines.length, lineStart_of_take htake hlines, ?_⟩
    . dsimp
      omega
    . simp only [Span.mk.injEq]
      omega

theorem sourceMap_of_cuts (mode : LineMode) (h : Cuts source pieces []) :
    SourceMap mode source (spansOf 0 pieces) (tokensFrom mode .start pieces) := by
  have hsource : source = [] ++ source := rfl
  have hmarks := marks_spansOf mode h hsource
  rw [Position.reached_nil] at hmarks
  constructor
  . exact hmarks
  . apply List.Forall₂.imp _ hmarks
    intro span token hmark
    exact columns_of_marks hmark
  . apply isChain_spansOf
  . intro i c hc hspans
    apply isBlank_of_not_mem_spansOf h hsource
    . apply Nat.zero_le
    . exact hc
    . exact hspans

theorem tokenize_sourceMap {mode : LineMode} {source : String} {tokens : List Token}
    (h : tokenize mode source = .ok tokens) :
    ∃ spans standing, tokens = standing ++ [.eof (.reached mode source.toList)] ∧
      SourceMap mode source.toList spans standing := by
  have haccepts : Accepts mode source := ⟨tokens, h⟩
  rw [accepts_iff] at haccepts
  rcases haccepts with ⟨pieces, hcuts⟩
  rw [tokenize_of_cuts_nil hcuts] at h
  injection h with h
  exact ⟨_, _, h.symm, sourceMap_of_cuts mode hcuts⟩

theorem tokenize_sourceMap_lines :
    ∃ spans standing,
      [.plain .identifier "x" ⟨1, 1⟩, .plain .string "\n" ⟨2, 1⟩, .plain .equiv "==" ⟨2, 3⟩,
        .eof ⟨2, 3⟩] = standing ++ [.eof (.reached .track "x'\n'==".toList)] ∧
      SourceMap .track "x'\n'==".toList spans standing := by
  have h : tokenize .track "x'\n'==" =
      .ok [.plain .identifier "x" ⟨1, 1⟩, .plain .string "\n" ⟨2, 1⟩, .plain .equiv "==" ⟨2, 3⟩,
        .eof ⟨2, 3⟩] := by
    with_unfolding_all rfl
  exact tokenize_sourceMap h

end SketchLang.Scan
