import Mathlib.Data.List.Chain
import Mathlib.Data.List.Forall2
import SketchLang.Proofs.Lexeme.Clash
import SketchLang.Proofs.Lexeme.Reading
import SketchLang.Proofs.Scan.Run

/-!
This module contains the lexical grammar of a whole source: a source is written with token texts,
with blanks before, between and after them, such that no two token texts clash that stand next to
each other. A scan accepts what is written in this way and nothing else, no source is written in two
ways, and the tokens are those that the token texts make
(`Writing.accepts_iff_exists_writing`).
-/

namespace SketchLang

open Scan

/--
A source as token texts, each with the run of blanks that stands before it, and a last run of
blanks.
-/
structure Writing where
  items : List (List Char × List Char)
  trailing : List Char

namespace Writing

def text (w : Writing) : List Char :=
  w.items.flatMap (fun item => item.1 ++ item.2) ++ w.trailing

def texts (w : Writing) : List (List Char) := w.items.map (·.2)

structure Lawful (w : Writing) : Prop where
  blanks : ∀ item ∈ w.items, ∀ c ∈ item.1, isBlank c
  texts : ∀ item ∈ w.items, Lexeme.IsTokenText item.2
  apart : w.items.IsChain fun item next => next.1 = [] → ¬ Lexeme.Clashes item.2 next.2
  trailing : ∀ c ∈ w.trailing, isBlank c

def indent (c : Char) : Writing → Writing
  | ⟨[], trailing⟩ => ⟨[], c :: trailing⟩
  | ⟨(blanks, x) :: items, trailing⟩ => ⟨(c :: blanks, x) :: items, trailing⟩

def ofPieces : List Piece → Writing
  | [] => ⟨[], []⟩
  | .blank c :: pieces => (ofPieces pieces).indent c
  | .lexeme l :: pieces => ⟨([], l.raw) :: (ofPieces pieces).items, (ofPieces pieces).trailing⟩

variable {c : Char} {text blanks trailing rest : List Char} {pieces : List Piece}
  {items : List (List Char × List Char)}

theorem text_indent (w : Writing) (c : Char) : (w.indent c).text = c :: w.text := by
  unfold indent
  split
  all_goals simp [Writing.text]

theorem texts_indent (w : Writing) (c : Char) : (w.indent c).texts = w.texts := by
  unfold indent
  split
  all_goals rfl

theorem text_ofPieces (pieces : List Piece) : (ofPieces pieces).text = textOf pieces := by
  induction pieces with
  | nil => rfl
  | cons piece pieces ih =>
    rw [textOf_cons, ← ih]
    cases piece with
    | blank c =>
      simp only [ofPieces]
      rw [text_indent]
      rfl
    | lexeme l => simp [ofPieces, Writing.text, Piece.raw]

theorem closed_text_iff {lexeme : Lexeme} {w : Writing} (hlexeme : lexeme.Lawful) (h : w.Lawful) :
    lexeme.Closed w.text ↔
      ∀ next, w.items.head? = some next → next.1 = [] → ¬ Lexeme.Clashes lexeme.raw next.2 := by
  rcases w with ⟨items, trailing⟩
  cases items with
  | nil =>
    have htext : Writing.text ⟨[], trailing⟩ = trailing := rfl
    rw [htext]
    constructor
    . intro _ next hnext
      contradiction
    . intro _ c hc
      apply separates_of_isBlank
      . apply h.trailing
        apply List.mem_of_mem_head?
        assumption
      . assumption
  | cons item items =>
    rcases item with ⟨blanks, x⟩
    have htext : Writing.text ⟨(blanks, x) :: items, trailing⟩ =
        blanks ++ (x ++ Writing.text ⟨items, trailing⟩) := by
      simp [Writing.text]
    rw [htext]
    cases blanks with
    | nil =>
      have hx : Lexeme.IsTokenText x := h.texts ([], x) (by simp)
      rw [List.nil_append]
      rw [Lexeme.closed_append_iff hlexeme hx]
      simp
    | cons c blanks =>
      have hc : isBlank c := h.blanks (c :: blanks, x) (by simp) c (by simp)
      constructor
      . intro _ next hnext hnil
        simp only [List.head?_cons, Option.some.injEq] at hnext
        rw [← hnext] at hnil
        contradiction
      . intro _ d hd
        simp only [List.cons_append, List.head?_cons, Option.some.injEq] at hd
        rw [← hd]
        apply separates_of_isBlank
        . assumption
        . assumption

theorem lawful_cons_iff (items : List (List Char × List Char)) (trailing blanks x : List Char) :
    Lawful ⟨(blanks, x) :: items, trailing⟩ ↔
      (∀ c ∈ blanks, isBlank c) ∧ Lexeme.IsTokenText x ∧ Lawful ⟨items, trailing⟩ ∧
        ∀ next, items.head? = some next → next.1 = [] → ¬ Lexeme.Clashes x next.2 := by
  constructor
  . intro h
    have hblanks := h.blanks
    have htexts := h.texts
    have hapart := h.apart
    rw [List.forall_mem_cons] at hblanks htexts
    rw [List.isChain_cons] at hapart
    exact ⟨hblanks.1, htexts.1, ⟨hblanks.2, htexts.2, hapart.2, h.trailing⟩, hapart.1⟩
  . intro h
    rcases h with ⟨hblanks, hx, h, hapart⟩
    constructor
    . rw [List.forall_mem_cons]
      exact ⟨hblanks, h.blanks⟩
    . rw [List.forall_mem_cons]
      exact ⟨hx, h.texts⟩
    . rw [List.isChain_cons]
      exact ⟨hapart, h.apart⟩
    . exact h.trailing

theorem lawful_indent {w : Writing} (hc : isBlank c) (h : w.Lawful) : (w.indent c).Lawful := by
  unfold indent
  split
  . next trailing =>
    constructor
    . exact h.blanks
    . exact h.texts
    . exact h.apart
    . rw [List.forall_mem_cons]
      exact ⟨hc, h.trailing⟩
  . next blanks x items trailing =>
    rw [lawful_cons_iff] at h ⊢
    rw [List.forall_mem_cons]
    exact ⟨⟨hc, h.1⟩, h.2⟩

theorem lawful_ofPieces (h : Cuts text pieces []) : (ofPieces pieces).Lawful := by
  generalize hnil : [] = rest at h
  induction h with
  | halt => constructor <;> simp [ofPieces]
  | @cons piece text pieces rest hlawful hclosed hcuts ih =>
    cases piece with
    | blank c =>
      apply lawful_indent
      . exact hlawful
      . exact ih hnil
    | lexeme l =>
      have htext : text = (ofPieces pieces).text := by
        rw [text_ofPieces, hcuts.text_eq, ← hnil]
        simp
      have hl : l.Lawful := hlawful
      have hrest : l.Closed text := hclosed
      rw [htext, closed_text_iff hl (ih hnil)] at hrest
      simp only [ofPieces]
      rw [lawful_cons_iff]
      refine ⟨?_, ?_, ih hnil, hrest⟩
      . simp
      . rw [Lexeme.isTokenText_iff]
        exact ⟨l, hl, rfl⟩

theorem reads_ofPieces (mode : LineMode) (position : Position) (h : Cuts text pieces rest) :
    List.Forall₂ (fun x token => Lexeme.Reads x token.kind token.lexeme token.value)
      (ofPieces pieces).texts (tokensFrom mode position pieces) := by
  induction h generalizing position with
  | halt => apply List.Forall₂.nil
  | @cons piece text pieces rest hlawful hclosed hcuts ih =>
    cases piece with
    | blank c =>
      simp only [ofPieces]
      rw [texts_indent]
      apply ih
    | lexeme l =>
      apply List.Forall₂.cons
      . apply Lexeme.reads_token
        exact hlawful
      . apply ih

-- The way back from a writing to pieces.

theorem cuts_blanks (hblanks : ∀ c ∈ blanks, isBlank c) (h : Cuts text pieces rest) :
    Cuts (blanks ++ text) (blanks.map .blank ++ pieces) rest := by
  induction blanks with
  | nil => exact h
  | cons c blanks ih =>
    rw [List.forall_mem_cons] at hblanks
    have hlawful : (Piece.blank c).Lawful := hblanks.1
    exact .cons hlawful trivial (ih hblanks.2)

theorem ofPieces_blanks (hpieces : ofPieces pieces = ⟨([], text) :: items, trailing⟩) :
    ofPieces (blanks.map .blank ++ pieces) = ⟨(blanks, text) :: items, trailing⟩ := by
  induction blanks with
  | nil => exact hpieces
  | cons c blanks ih =>
    simp only [List.map_cons, List.cons_append, ofPieces]
    rw [ih]
    rfl

theorem ofPieces_trailing (trailing : List Char) :
    ofPieces (trailing.map .blank) = ⟨[], trailing⟩ := by
  induction trailing with
  | nil => rfl
  | cons c trailing ih =>
    simp only [List.map_cons, ofPieces]
    rw [ih]
    rfl

theorem exists_cuts_of_lawful {w : Writing} (h : w.Lawful) :
    ∃ pieces, Cuts w.text pieces [] ∧ ofPieces pieces = w := by
  rcases w with ⟨items, trailing⟩
  induction items with
  | nil =>
    refine ⟨trailing.map .blank, ?_, ofPieces_trailing trailing⟩
    have := cuts_blanks h.trailing (.halt .nil)
    simpa [Writing.text] using this
  | cons item items ih =>
    rcases item with ⟨blanks, x⟩
    rw [lawful_cons_iff] at h
    rcases h with ⟨hblanks, hx, h, hapart⟩
    rw [Lexeme.isTokenText_iff] at hx
    rcases hx with ⟨l, hl, rfl⟩
    rcases ih h with ⟨pieces, hcuts, hpieces⟩
    rw [← closed_text_iff hl h] at hapart
    have hlawful : (Piece.lexeme l).Lawful := hl
    have hlexeme : Cuts (l.raw ++ Writing.text ⟨items, trailing⟩) (.lexeme l :: pieces) [] :=
      .cons hlawful hapart hcuts
    refine ⟨blanks.map .blank ++ .lexeme l :: pieces, ?_, ?_⟩
    . have htext : Writing.text ⟨(blanks, l.raw) :: items, trailing⟩ =
          blanks ++ (l.raw ++ Writing.text ⟨items, trailing⟩) := by
        simp [Writing.text]
      rw [htext]
      exact cuts_blanks hblanks hlexeme
    . apply ofPieces_blanks
      simp [ofPieces, hpieces]

theorem unique {w w' : Writing} (h : w.Lawful) (h' : w'.Lawful) (htext : w.text = w'.text) :
    w = w' := by
  rcases exists_cuts_of_lawful h with ⟨pieces, hcuts, hpieces⟩
  rcases exists_cuts_of_lawful h' with ⟨pieces', hcuts', hpieces'⟩
  rw [← htext] at hcuts'
  rw [← hpieces, ← hpieces', (hcuts.unique hcuts').1]

theorem accepts_iff_exists_writing (mode : LineMode) (source : String) :
    (Accepts mode source ↔ ∃ w : Writing, w.Lawful ∧ w.text = source.toList) ∧
    (∀ w w' : Writing, w.Lawful → w'.Lawful → w.text = source.toList → w'.text = source.toList →
      w = w') ∧
    (∀ w : Writing, w.Lawful → w.text = source.toList →
      ∃ tokens, tokenize mode source = .ok (tokens ++ [.eof (.reached mode source.toList)]) ∧
        List.Forall₂ (fun x token => Lexeme.Reads x token.kind token.lexeme token.value)
          w.texts tokens) := by
  refine ⟨?_, ?_, ?_⟩
  . rw [accepts_iff]
    constructor
    . intro h
      rcases h with ⟨pieces, hcuts⟩
      refine ⟨ofPieces pieces, lawful_ofPieces hcuts, ?_⟩
      rw [text_ofPieces, hcuts.text_eq, List.append_nil]
    . intro h
      rcases h with ⟨w, hlawful, htext⟩
      rcases exists_cuts_of_lawful hlawful with ⟨pieces, hcuts, -⟩
      rw [htext] at hcuts
      exact ⟨pieces, hcuts⟩
  . intro w w' h h' htext htext'
    rw [← htext'] at htext
    exact unique h h' htext
  . intro w h htext
    rcases exists_cuts_of_lawful h with ⟨pieces, hcuts, hpieces⟩
    rw [htext] at hcuts
    refine ⟨_, tokenize_of_cuts_nil hcuts, ?_⟩
    rw [← hpieces]
    exact reads_ofPieces mode .start hcuts

end Writing

end SketchLang
