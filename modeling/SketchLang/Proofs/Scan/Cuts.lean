import SketchLang.Proofs.Lexeme.Recognition
import SketchLang.Scan.Step

/-!
This module contains how a scan cuts a text into pieces, without tokens, positions or a cursor. A
text is cut in exactly one way (`Scan.exists_cuts`, `Scan.Cuts.unique`). What is cut stays cut when
more text follows, unless the first character of it continues the last piece
(`Scan.Cuts.append`).
-/

namespace SketchLang.Scan

inductive Piece where
  | blank (c : Char)
  | lexeme (lexeme : Lexeme)

namespace Piece

def raw : Piece → List Char
  | blank c => [c]
  | lexeme l => l.raw

def Lawful : Piece → Prop
  | blank c => isBlank c
  | lexeme l => l.Lawful

def Closed : Piece → List Char → Prop
  | blank _, _ => True
  | lexeme l, rest => l.Closed rest

def lexeme? : Piece → Option Lexeme
  | blank _ => none
  | lexeme l => some l

end Piece

def textOf (pieces : List Piece) : List Char := pieces.flatMap Piece.raw

inductive Halted : List Char → Prop
  | nil : Halted []
  | cons {c : Char} {rest : List Char} (hblank : isBlank c = false)
    (hstuck : Lexeme.Stuck (c :: rest)) : Halted (c :: rest)

/--
`Cuts text pieces rest`: a scan of `text` takes `pieces` and halts before `rest`.
-/
inductive Cuts : List Char → List Piece → List Char → Prop
  | halt {rest : List Char} (h : Halted rest) : Cuts rest [] rest
  | cons {piece : Piece} {text : List Char} {pieces : List Piece} {rest : List Char}
    (hlawful : piece.Lawful) (hclosed : piece.Closed text) (h : Cuts text pieces rest) :
    Cuts (piece.raw ++ text) (piece :: pieces) rest

variable {c : Char} {text more rest : List Char} {piece : Piece} {pieces : List Piece}

@[simp]
theorem textOf_nil : textOf [] = [] := rfl

@[simp]
theorem textOf_cons (piece : Piece) (pieces : List Piece) :
    textOf (piece :: pieces) = piece.raw ++ textOf pieces := rfl

theorem textOf_append (pieces pieces' : List Piece) :
    textOf (pieces ++ pieces') = textOf pieces ++ textOf pieces' := by
  simp [textOf]

theorem isBlank_iff (c : Char) :
    isBlank c = true ↔ c = ' ' ∨ c = '\t' ∨ c = '\r' ∨ c = '\n' := by
  simp [isBlank, or_assoc]

theorem not_class_of_isBlank (hc : isBlank c) :
    ¬ Lexeme.IsLetter c ∧ ¬ Lexeme.IsDigit c ∧ Lexeme.isQuote c = false ∧ c ∉ Lexeme.marks ∧
      ¬ (c = '&' ∨ c = '|') := by
  rw [isBlank_iff] at hc
  rcases hc with rfl | rfl | rfl | rfl
  all_goals decide

theorem isBlank_eq_false_of_isQuote (h : Lexeme.isQuote c) : isBlank c = false := by
  rw [Bool.eq_false_iff]
  intro hc
  rw [(not_class_of_isBlank hc).2.2.1] at h
  contradiction

theorem first?_of_isBlank (hc : isBlank c) : Lexeme.first? (c :: rest) = none := by
  rcases not_class_of_isBlank hc with ⟨hletter, hdigit, hquote, hmark, hdoubled⟩
  rw [Lexeme.first?_eq_none_iff]
  apply Or.inr
  apply Lexeme.Stuck.mark
  . exact hquote
  . exact hletter
  . exact hdigit
  . exact hmark
  . intro h
    contradiction

theorem not_isBlank_of_lawful {lexeme : Lexeme} (h : lexeme.Lawful) :
    ∃ c inner, lexeme.raw = c :: inner ∧ isBlank c = false := by
  have hfound := Lexeme.first?_raw h
  cases hraw : lexeme.raw with
  | nil => exact absurd hraw (Lexeme.raw_first? hfound).2
  | cons c inner =>
    refine ⟨c, inner, rfl, ?_⟩
    rw [Bool.eq_false_iff]
    intro hc
    rw [hraw, first?_of_isBlank hc] at hfound
    contradiction

theorem not_isBlank_of_mem {lexeme : Lexeme} (h : lexeme.Lawful) (hc : c ∈ lexeme.raw) :
    isBlank c = false ∨ ∃ mark text, lexeme = .quoted mark text := by
  cases hblank : isBlank c with
  | false => exact .inl rfl
  | true =>
    rcases not_class_of_isBlank hblank with ⟨hletter, hdigit, -, hmark, hdoubled⟩
    cases h with
    | word hword =>
      cases Lexeme.isLetter_or_isDigit_of_mem hword hc with
      | inl h => contradiction
      | inr h => contradiction
    | number hnumeral =>
      cases Lexeme.isDigit_or_eq_point_of_mem hnumeral hc with
      | inl h => contradiction
      | inr h =>
        rw [h] at hmark
        exact absurd (by decide) hmark
    | quoted => exact .inr ⟨_, _, rfl⟩
    | operator hmem =>
      cases Lexeme.mem_marks_or_doubled_of_mem ⟨_, hmem⟩ hc with
      | inl h => contradiction
      | inr h => contradiction

theorem not_isBlank_last_of_lawful {lexeme : Lexeme} (h : lexeme.Lawful) :
    ∃ inner c, lexeme.raw = inner ++ [c] ∧ isBlank c = false := by
  rcases not_isBlank_of_lawful h with ⟨first, inner, hraw, -⟩
  have hne : lexeme.raw ≠ [] := by simp [hraw]
  have hlast := List.dropLast_concat_getLast hne
  cases not_isBlank_of_mem h (List.getLast_mem hne) with
  | inl hblank => exact ⟨_, _, hlast.symm, hblank⟩
  | inr hquoted =>
    rcases hquoted with ⟨mark, text, rfl⟩
    cases h with
    | quoted hmark => exact ⟨mark :: text, mark, rfl, isBlank_eq_false_of_isQuote hmark⟩

theorem Piece.raw_ne_nil (h : piece.Lawful) : piece.raw ≠ [] := by
  cases piece with
  | blank => simp [raw]
  | lexeme l =>
    rcases not_isBlank_of_lawful h with ⟨c, inner, hraw, -⟩
    simp [raw, hraw]

theorem Piece.head?_raw_append (h : piece.Lawful) (rest : List Char) :
    (piece.raw ++ rest).head? = piece.raw.head? := by
  cases hraw : piece.raw with
  | nil => exact absurd hraw (raw_ne_nil h)
  | cons c inner => rfl

theorem Cuts.text_eq (h : Cuts text pieces rest) : text = textOf pieces ++ rest := by
  induction h with
  | halt => rfl
  | cons _ _ _ ih =>
    rw [ih]
    simp

theorem Cuts.lawful_of_mem (h : Cuts text pieces rest) (hpiece : piece ∈ pieces) :
    piece.Lawful := by
  induction h with
  | halt => contradiction
  | cons hlawful _ _ ih =>
    rw [List.mem_cons] at hpiece
    rcases hpiece with rfl | hmem
    . exact hlawful
    . exact ih hmem

theorem Cuts.halted (h : Cuts text pieces rest) : Halted rest := by
  induction h with
  | halt h => exact h
  | cons _ _ _ ih => exact ih

theorem halted_or_piece (text : List Char) :
    Halted text ∨
      ∃ piece rest, text = Piece.raw piece ++ rest ∧ piece.Lawful ∧ piece.Closed rest := by
  cases text with
  | nil => exact .inl .nil
  | cons c rest =>
    cases hblank : isBlank c with
    | true => exact .inr ⟨.blank c, rest, rfl, hblank, trivial⟩
    | false =>
      cases Lexeme.starts_or_stuck c rest with
      | inl hstarts =>
        rcases hstarts with ⟨lexeme, after, heq, hlawful, hclosed⟩
        exact .inr ⟨.lexeme lexeme, after, heq, hlawful, hclosed⟩
      | inr hstuck => exact .inl (.cons hblank hstuck)

theorem exists_cuts (text : List Char) : ∃ pieces rest, Cuts text pieces rest := by
  generalize hn : text.length = n
  induction n using Nat.strongRecOn generalizing text with
  | ind n ih =>
    cases halted_or_piece text with
    | inl hhalted => exact ⟨[], text, .halt hhalted⟩
    | inr hpiece =>
      rcases hpiece with ⟨piece, after, rfl, hlawful, hclosed⟩
      have hpos := List.length_pos_iff.mpr (Piece.raw_ne_nil hlawful)
      have hlt : after.length < n := by
        rw [← hn, List.length_append]
        omega
      rcases ih after.length hlt after rfl with ⟨pieces, rest, hcuts⟩
      exact ⟨piece :: pieces, rest, .cons hlawful hclosed hcuts⟩

theorem first?_of_piece (hlawful : piece.Lawful) (hclosed : piece.Closed rest) :
    Lexeme.first? (piece.raw ++ rest) = piece.lexeme? := by
  cases piece with
  | blank c => exact first?_of_isBlank hlawful
  | lexeme l => exact Lexeme.first?_of_closed hlawful hclosed

theorem not_halted_of_piece (hlawful : piece.Lawful) (hclosed : piece.Closed rest) :
    ¬ Halted (piece.raw ++ rest) := by
  intro h
  have hfound := first?_of_piece hlawful hclosed
  cases piece with
  | blank c =>
    have hblank : isBlank c = true := hlawful
    cases h with
    | cons hnot _ =>
      rw [hblank] at hnot
      contradiction
  | lexeme l =>
    generalize Piece.raw (.lexeme l) ++ rest = text at h hfound
    cases h with
    | nil => contradiction
    | cons _ hstuck =>
      rw [Lexeme.first?_of_stuck hstuck] at hfound
      contradiction

theorem piece_unique {piece' : Piece} {rest' : List Char}
    (heq : piece.raw ++ rest = piece'.raw ++ rest') (hlawful : piece.Lawful)
    (hclosed : piece.Closed rest) (hlawful' : piece'.Lawful) (hclosed' : piece'.Closed rest') :
    piece = piece' ∧ rest = rest' := by
  have hfound := first?_of_piece hlawful hclosed
  rw [heq, first?_of_piece hlawful' hclosed'] at hfound
  have hsame : piece = piece' := by
    cases piece with
    | blank c =>
      cases piece' with
      | blank c' =>
        injection heq with hc
        rw [hc]
      | lexeme l' => contradiction
    | lexeme l =>
      cases piece' with
      | blank c' => contradiction
      | lexeme l' =>
        injection hfound with hl
        rw [hl]
  subst hsame
  exact ⟨rfl, List.append_cancel_left heq⟩

theorem Cuts.unique {pieces' : List Piece} {rest' : List Char} (h : Cuts text pieces rest)
    (h' : Cuts text pieces' rest') : pieces = pieces' ∧ rest = rest' := by
  induction h generalizing pieces' with
  | halt hhalted =>
    cases h' with
    | halt => exact ⟨rfl, rfl⟩
    | cons hlawful hclosed => exact absurd hhalted (not_halted_of_piece hlawful hclosed)
  | @cons piece text pieces rest hlawful hclosed _ ih =>
    generalize htext : piece.raw ++ text = whole at h'
    cases h' with
    | halt hhalted =>
      rw [← htext] at hhalted
      exact absurd hhalted (not_halted_of_piece hlawful hclosed)
    | cons hlawful' hclosed' hcuts' =>
      rcases piece_unique htext hlawful hclosed hlawful' hclosed' with ⟨rfl, rfl⟩
      rcases ih hcuts' with ⟨rfl, rfl⟩
      exact ⟨rfl, rfl⟩

def Separates (c : Char) : Prop := ∀ lexeme : Lexeme, lexeme.Lawful → ¬ lexeme.ContinuedBy c

theorem separates_of_ne (hletter : ¬ Lexeme.IsLetter c) (hdigit : ¬ Lexeme.IsDigit c)
    (hpoint : c ≠ '.') (hequals : c ≠ '=') : Separates c := by
  intro lexeme hlawful hcontinued
  cases hlawful with
  | word => exact hcontinued.elim hletter hdigit
  | number =>
    cases hcontinued with
    | inl h => exact hdigit h
    | inr h => exact hpoint h.1
  | quoted => exact hcontinued
  | @operator text kind hmem =>
    have hcompound := (Lexeme.isOperator_append_singleton ⟨kind, hmem⟩ c).mp hcontinued
    exact hequals hcompound.2

theorem separates_of_not (hletter : ¬ Lexeme.IsLetter c) (hdigit : ¬ Lexeme.IsDigit c)
    (hmark : c ∉ Lexeme.marks) : Separates c := by
  apply separates_of_ne hletter hdigit
  . rintro rfl
    exact hmark (by decide)
  . rintro rfl
    exact hmark (by decide)

theorem separates_of_isBlank (hc : isBlank c) : Separates c := by
  rcases not_class_of_isBlank hc with ⟨hletter, hdigit, -, hmark, -⟩
  exact separates_of_not hletter hdigit hmark

theorem separates_of_isQuote (hc : Lexeme.isQuote c) : Separates c := by
  apply separates_of_not
  . exact (Lexeme.not_class_of_isQuote hc).1
  . exact (Lexeme.not_class_of_isQuote hc).2
  . intro hmark
    rw [(Lexeme.not_class_of_mem_marks hmark).2.2] at hc
    contradiction

theorem separates_of_stuck (h : Lexeme.Stuck (c :: rest)) : Separates c := by
  cases h with
  | quote hc => exact separates_of_isQuote hc
  | mark _ hletter hdigit hmark => exact separates_of_not hletter hdigit hmark

theorem separates_of_head? (h : Separates c) {d : Char} (hd : (c :: rest).head? = some d) :
    Separates d := by
  injection hd with hd
  rw [← hd]
  exact h

theorem Piece.closed_of_separates (hlawful : piece.Lawful)
    (hrest : ∀ c, rest.head? = some c → Separates c) : piece.Closed rest := by
  cases piece with
  | blank => trivial
  | lexeme l =>
    intro c hc
    apply hrest c hc
    exact hlawful

theorem Piece.closed_congr {rest' : List Char} (hhead : rest.head? = rest'.head?)
    (h : piece.Closed rest) : piece.Closed rest' := by
  cases piece with
  | blank => trivial
  | lexeme l =>
    intro c hc
    apply h
    rw [hhead]
    exact hc

/--
The pieces before some place stay what they are if something else stands there, unless it continues
the last of them.
-/
theorem Cuts.replace {tail tail' : List Piece} {rest' : List Char}
    (h : Cuts text (pieces ++ tail) rest) (h' : Cuts more tail' rest')
    (hlast : ∀ piece, pieces.getLast? = some piece → piece.Closed (textOf tail ++ rest) →
      piece.Closed more) :
    Cuts (textOf pieces ++ more) (pieces ++ tail') rest' := by
  induction pieces generalizing text with
  | nil => exact h'
  | cons piece pieces ih =>
    rw [List.cons_append] at h
    cases h with
    | @cons _ text _ _ hlawful hclosed hcuts =>
      rw [textOf_cons, List.append_assoc]
      -- Only the first character after a piece matters, and it changes after the last piece only.
      cases pieces with
      | nil =>
        refine .cons hlawful ?_ h'
        have htext : text = textOf tail ++ rest := hcuts.text_eq
        rw [htext] at hclosed
        exact hlast piece rfl hclosed
      | cons next pieces =>
        rw [List.getLast?_cons_cons] at hlast
        refine .cons hlawful ?_ (ih hcuts hlast)
        have hnext : next.Lawful := hcuts.lawful_of_mem (by simp)
        apply Piece.closed_congr _ hclosed
        rw [hcuts.text_eq]
        simp only [List.cons_append, textOf_cons, List.append_assoc]
        rw [Piece.head?_raw_append hnext]
        rw [Piece.head?_raw_append hnext]

theorem Cuts.exists_extend {tail : List Piece} (h : Cuts text (pieces ++ tail) rest)
    (more : List Char)
    (hlast : ∀ piece, pieces.getLast? = some piece → piece.Closed (textOf tail ++ rest) →
      piece.Closed (textOf tail ++ rest ++ more)) :
    ∃ tail' rest', Cuts (text ++ more) (pieces ++ tail') rest' := by
  rcases exists_cuts (textOf tail ++ rest ++ more) with ⟨tail', rest', htail⟩
  refine ⟨tail', rest', ?_⟩
  have hreplace := h.replace htail hlast
  rw [h.text_eq]
  simpa only [textOf_append, List.append_assoc] using hreplace

theorem Cuts.textOf_append {pieces' : List Piece} {rest' : List Char} (h : Cuts text pieces rest)
    (h' : Cuts more pieces' rest') (hmore : ∀ c, more.head? = some c → Separates c) :
    Cuts (textOf pieces ++ more) (pieces ++ pieces') rest' := by
  rw [← List.append_nil pieces] at h
  apply h.replace h'
  intro piece hpiece _
  apply Piece.closed_of_separates
  . apply h.lawful_of_mem
    rw [List.append_nil]
    exact List.mem_of_getLast? hpiece
  . exact hmore

theorem Cuts.append {pieces' : List Piece} (h : Cuts text pieces []) (h' : Cuts more pieces' rest)
    (hmore : ∀ c, more.head? = some c → Separates c) :
    Cuts (text ++ more) (pieces ++ pieces') rest := by
  have htext := h.text_eq
  rw [List.append_nil] at htext
  rw [htext]
  exact h.textOf_append h' hmore

theorem Cuts.cuts_textOf (h : Cuts text pieces rest) : Cuts (textOf pieces) pieces [] := by
  have hnil : ∀ c, ([] : List Char).head? = some c → Separates c := by
    intro c hc
    contradiction
  have := h.textOf_append (.halt .nil) hnil
  rwa [List.append_nil, List.append_nil] at this

end SketchLang.Scan
