import SketchLang.Proofs.Cursor
import SketchLang.Proofs.Lexeme.Longest
import SketchLang.Proofs.Lexeme.Pattern

/-!
This module contains the scan with a check wherever it could be stopped from inside: at the slices
of the source, the searches that have to find something, the numbers that have to be readable, the
counters and the number of its steps. Every part of it is shown to pass its checks where the cursor
lies between two parts of the source.
-/

namespace SketchLang.Scan.Checked

open Lexeme (IsDigit IsLetter)

inductive Defect where
  | slice (first last : Nat)
  | underflow (offset size : Nat)
  | noMatch (first : Nat)
  | unreadable (text : String)
  | counter (cursor : Cursor)
  | steps

abbrev Outcome := Except Error (Option Token) × Cursor

def Bounded (source : String) (cursor : Cursor) : Prop :=
  cursor.position.line ≤ source.length + 1 ∧ cursor.position.column ≤ source.length ∧
    cursor.offset ≤ source.utf8ByteSize

instance (source : String) (cursor : Cursor) : Decidable (Bounded source cursor) :=
  inferInstanceAs (Decidable (_ ∧ _ ∧ _))

section Definitions

variable (source : String)

def slice (first last : Nat) : Except Defect String :=
  if first ≤ last ∧ last ≤ source.utf8ByteSize ∧ String.Pos.Raw.IsValid source ⟨first⟩ ∧
      String.Pos.Raw.IsValid source ⟨last⟩ then
    .ok (String.Pos.Raw.extract source ⟨first⟩ ⟨last⟩)
  else
    .error (.slice first last)

def back (offset size : Nat) : Except Defect Nat :=
  if size ≤ offset then .ok (offset - size) else .error (.underflow offset size)

def advance (cursor : Cursor) : Except Defect (Option Char × Cursor) :=
  match cursor.next? with
  | none => .ok (none, cursor)
  | some (c, next) => if Bounded source next then .ok (some c, next) else .error (.counter next)

def accept (expected : Char) (cursor : Cursor) : Except Defect (Bool × Cursor) :=
  if cursor.peek = some expected then do
    let (_, cursor) ← advance source cursor
    return (true, cursor)
  else
    return (false, cursor)

def seek (mark : Char) : Nat → Cursor → Except Defect (Bool × Cursor)
  | 0, _ => .error .steps
  | steps + 1, cursor => do
    match ← advance source cursor with
    | (none, cursor) => return (false, cursor)
    | (some c, cursor) => if c = mark then return (true, cursor) else seek mark steps cursor

def string (mark : Char) (cursor : Cursor) : Except Defect Outcome := do
  match ← seek source mark (cursor.rest.length + 1) cursor with
  | (false, last) => return (.error ⟨.unterminatedString mark, last.position⟩, last)
  | (true, last) =>
    let closing ← back last.offset mark.utf8Size
    let text ← slice source cursor.offset closing
    return (.ok (some (.plain .string text last.position)), last)

def advanceBy : Nat → Cursor → Except Defect Cursor
  | 0, cursor => return cursor
  | n + 1, cursor => do
    let (_, cursor) ← advance source cursor
    advanceBy n cursor

/--
Advance over the longest text that matches the pattern. It begins at `first`, and its first
character is consumed before.
-/
def consumeMatch (pattern : Pattern) (first : Nat) (cursor : Cursor) :
    Except Defect (String × Cursor) := do
  let ahead ← slice source first source.utf8ByteSize
  match pattern.find? ahead.toList with
  | none => .error (.noMatch first)
  | some found =>
    let text ← slice source first (first + (String.ofList found).utf8ByteSize)
    let cursor ← advanceBy source (text.length - 1) cursor
    return (text, cursor)

def read? (text : List Char) : Option Binary64 :=
  if text ∈ Pattern.float.matches' then (Decimal.ofText? text).map .ofDecimal else none

def number (first : Nat) (cursor : Cursor) : Except Defect Outcome := do
  let (text, cursor) ← consumeMatch source .number first cursor
  match read? text.toList with
  | none => .error (.unreadable text)
  | some x => return (.ok (some ⟨.number, text, .number x, cursor.position⟩), cursor)

def word (first : Nat) (cursor : Cursor) : Except Defect Outcome := do
  let (text, cursor) ← consumeMatch source .word first cursor
  let (kind, value) := Lexeme.classify text
  return (.ok (some ⟨kind, text, value, cursor.position⟩), cursor)

def single (first : Char) (cursor : Cursor) : Outcome :=
  match Token.operatorKind? (String.ofList [first]) with
  | some kind => (.ok (some (.plain kind (String.ofList [first]) cursor.position)), cursor)
  | none => (.error ⟨.unrecognizedCharacter first, cursor.position⟩, cursor)

def operator (first : Char) (cursor : Cursor) : Except Defect Outcome := do
  match cursor.peek with
  | none => return single first cursor
  | some second =>
    match Token.operatorKind? (String.ofList [first, second]) with
    | none => return single first cursor
    | some kind =>
      match ← accept source second cursor with
      | (true, cursor) =>
        return (.ok (some (.plain kind (String.ofList [first, second]) cursor.position)), cursor)
      | (false, cursor) => return single first cursor

def step (cursor : Cursor) : Except Defect Outcome := do
  match ← advance source cursor with
  | (none, next) => return (.ok none, next)
  | (some c, next) =>
    if isBlank c then return (.ok none, next)
    else if Lexeme.isQuote c then string source c next
    else if IsDigit c then number source cursor.offset next
    else if IsLetter c then word source cursor.offset next
    else operator source c next

def run (steps : Nat) (scan : Scan) : Except Defect Report :=
  match scan.cursor.peek with
  | none => return scan.finish
  | some _ =>
    match steps with
    | 0 => .error .steps
    | steps + 1 => do
      match ← step source scan.cursor with
      | (.ok token?, cursor) => run steps (scan.moveTo cursor token?)
      | (.error error, _) => return scan.fail error

end Definitions

open Cursor (between next?_between)

variable {source : String} {c : Char} {done text inner rest : List Char}

@[simp]
theorem ok_bind {α β : Type} (a : α) (f : α → Except Defect β) :
    ((.ok a : Except Defect α) >>= f) = f a := rfl

@[simp]
theorem pure_eq_ok {α : Type} (a : α) : (pure a : Except Defect α) = .ok a := rfl

theorem rest_between (mode : LineMode) (done rest : List Char) :
    (between mode done rest).rest = rest := rfl

theorem peek_between (mode : LineMode) (done : List Char) (c : Char) (rest : List Char) :
    (between mode done (c :: rest)).peek = some c := rfl

theorem bounded_between (mode : LineMode) (h : source.toList = done ++ rest) :
    Bounded source (between mode done rest) := by
  have hlength : done.length ≤ source.length := by
    rw [← String.length_toList, h, List.length_append]
    omega
  have hsource : source = String.ofList done ++ String.ofList rest := by
    rw [← String.ofList_append, ← h, String.ofList_toList]
  refine ⟨?_, ?_, ?_⟩
  . exact Nat.le_trans (Position.line_reached_le mode done) (by omega)
  . exact Nat.le_trans (Position.column_reached_le mode done) hlength
  . rw [hsource, String.utf8ByteSize_append]
    exact Nat.le_add_right _ _

theorem slice_of_toList_eq (h : source.toList = done ++ text ++ rest) :
    slice source (String.ofList done).utf8ByteSize (String.ofList (done ++ text)).utf8ByteSize =
      .ok (String.ofList text) := by
  have hfirst := Cursor.law_between .flat (h.trans (List.append_assoc done text rest))
  have hlast := Cursor.law_between .flat h
  have hbounded := bounded_between .flat h
  have hle : (String.ofList done).utf8ByteSize ≤ (String.ofList (done ++ text)).utf8ByteSize := by
    rw [String.ofList_append, String.utf8ByteSize_append]
    exact Nat.le_add_right _ _
  unfold slice
  rw [if_pos ⟨hle, hbounded.2.2, hfirst.boundary, hlast.boundary⟩]
  rw [String.utf8ByteSize_ofList, String.ofList_append, String.utf8ByteSize_append,
    String.utf8ByteSize_ofList, String.utf8ByteSize_ofList, ← String.ofList_toList (s := source), h,
    String.extract_of_valid]

theorem slice_rest (h : source.toList = done ++ rest) :
    slice source (String.ofList done).utf8ByteSize source.utf8ByteSize =
      .ok (String.ofList rest) := by
  have hslice := slice_of_toList_eq (h.trans (List.append_nil _).symm)
  rwa [← h, String.ofList_toList] at hslice

theorem advance_nil (mode : LineMode) (source : String) (done : List Char) :
    advance source (between mode done []) = .ok (none, between mode done []) := rfl

theorem advance_cons (mode : LineMode) (h : source.toList = done ++ c :: rest) :
    advance source (between mode done (c :: rest)) =
      .ok (some c, between mode (done ++ [c]) rest) := by
  have hbounded : Bounded source (between mode (done ++ [c]) rest) := by
    apply bounded_between
    rw [h, List.append_assoc, List.singleton_append]
  unfold advance
  rw [next?_between]
  exact if_pos hbounded

theorem accept_cons (mode : LineMode) (h : source.toList = done ++ c :: rest) :
    accept source c (between mode done (c :: rest)) =
      .ok (true, between mode (done ++ [c]) rest) := by
  unfold accept
  rw [if_pos (peek_between mode done c rest), advance_cons mode h]
  rfl

theorem advanceBy_append (mode : LineMode) (h : source.toList = done ++ (text ++ rest)) :
    advanceBy source text.length (between mode done (text ++ rest)) =
      .ok (between mode (done ++ text) rest) := by
  induction text generalizing done with
  | nil => simp [advanceBy]
  | cons c text ih =>
    rw [List.cons_append] at h ⊢
    rw [List.length_cons, advanceBy, advance_cons mode h, ok_bind]
    dsimp only
    rw [ih]
    . simp
    . simp [h]

theorem seek_cons (mode : LineMode) (mark : Char) (steps : Nat)
    (h : source.toList = done ++ c :: rest) :
    seek source mark (steps + 1) (between mode done (c :: rest)) =
      if c = mark then .ok (true, between mode (done ++ [c]) rest)
      else seek source mark steps (between mode (done ++ [c]) rest) := by
  rw [seek, advance_cons mode h]
  rfl

theorem seek_append (mode : LineMode) {mark : Char} (hmem : mark ∉ text) (steps : Nat)
    (h : source.toList = done ++ (text ++ rest)) :
    seek source mark (text.length + steps) (between mode done (text ++ rest)) =
      seek source mark steps (between mode (done ++ text) rest) := by
  induction text generalizing done with
  | nil => simp
  | cons c text ih =>
    rw [List.mem_cons, not_or] at hmem
    rw [List.cons_append] at h ⊢
    rw [List.length_cons, Nat.add_right_comm, seek_cons mode mark _ h, if_neg (Ne.symm hmem.1),
      ih hmem.2]
    . simp
    . simp [h]

theorem seek_of_not_mem (mode : LineMode) {mark : Char} (hmem : mark ∉ text)
    (h : source.toList = done ++ text) :
    seek source mark (text.length + 1) (between mode done text) =
      .ok (false, between mode (done ++ text) []) := by
  rw [← List.append_nil text] at h
  have hseek := seek_append mode hmem 1 h
  rw [List.append_nil] at hseek
  rw [hseek, seek, advance_nil]
  rfl

theorem seek_of_mem (mode : LineMode) {mark : Char} (hmem : mark ∉ text)
    (h : source.toList = done ++ (text ++ mark :: rest)) :
    seek source mark ((text ++ mark :: rest).length + 1)
        (between mode done (text ++ mark :: rest)) =
      .ok (true, between mode (done ++ text ++ [mark]) rest) := by
  have hmark : source.toList = done ++ text ++ mark :: rest := by rw [h, List.append_assoc]
  rw [List.length_append, Nat.add_assoc, seek_append mode hmem _ h, seek_cons mode mark _ hmark,
    if_pos rfl]

theorem finds_of_closed {pattern : Pattern} {l : Lexeme} (hlawful : l.Lawful)
    (hclosed : l.Closed rest) (hmem : l.raw ∈ pattern.matches')
    (hclass : ∀ other, other ∈ pattern.matches' → Lexeme.IsTokenText other) :
    pattern.Finds l.raw (l.raw ++ rest) := by
  have hlongest := Lexeme.longest_of_closed hlawful hclosed
  refine ⟨hlongest.isPrefix, hmem, ?_⟩
  intro other hother h
  exact hlongest.longest other hother (hclass other h)

theorem consumeMatch_of_finds (mode : LineMode) {pattern : Pattern}
    (h : source.toList = done ++ (c :: inner ++ rest))
    (hfinds : pattern.Finds (c :: inner) (c :: inner ++ rest)) :
    consumeMatch source pattern (between mode done (c :: inner ++ rest)).offset
        (between mode (done ++ [c]) (inner ++ rest)) =
      .ok (String.ofList (c :: inner), between mode (done ++ c :: inner) rest) := by
  have hfound := Pattern.find?_eq_some_iff.mpr hfinds
  have hsize : (String.ofList done).utf8ByteSize + (String.ofList (c :: inner)).utf8ByteSize =
      (String.ofList (done ++ c :: inner)).utf8ByteSize := by
    rw [String.ofList_append, String.utf8ByteSize_append]
  have hlength : (String.ofList (c :: inner)).length - 1 = inner.length := by simp
  have hinner : source.toList = done ++ [c] ++ (inner ++ rest) := by simp [h]
  have hslice := slice_of_toList_eq (h.trans (List.append_assoc done _ _).symm)
  have hadvance := advanceBy_append mode hinner
  unfold consumeMatch
  simp only [between] at *
  rw [slice_rest h, ok_bind, String.toList_ofList, hfound]
  dsimp only
  rw [hsize, hslice, ok_bind, hlength, hadvance]
  simp

theorem number_of_numeral (mode : LineMode) {d : Decimal}
    (h : source.toList = done ++ (c :: inner ++ rest)) (hnumeral : Lexeme.Numeral (c :: inner) d)
    (hclosed : (Lexeme.number (c :: inner) (.ofDecimal d)).Closed rest) :
    number source (between mode done (c :: inner ++ rest)).offset
        (between mode (done ++ [c]) (inner ++ rest)) =
      .ok (.ok (some ((Lexeme.number (c :: inner) (.ofDecimal d)).token
        (.reached mode (done ++ c :: inner)))), between mode (done ++ c :: inner) rest) := by
  have hmem := (Pattern.mem_number_iff _).mpr ⟨d, hnumeral⟩
  have hfinds : Pattern.Finds .number (c :: inner) (c :: inner ++ rest) := by
    apply finds_of_closed (.number hnumeral) hclosed hmem
    intro other hother
    exact .inr (.inl ((Pattern.mem_number_iff other).mp hother))
  have hread : read? (c :: inner) = some (.ofDecimal d) := by
    unfold read?
    rw [if_pos (Pattern.mem_float_of_mem_number hmem), Lexeme.ofText?_of_numeral hnumeral]
    rfl
  unfold number
  rw [consumeMatch_of_finds mode h hfinds, ok_bind]
  dsimp only
  rw [String.toList_ofList, hread]
  rfl

theorem word_of_isWord (mode : LineMode) (h : source.toList = done ++ (c :: inner ++ rest))
    (hword : Lexeme.IsWord (c :: inner)) (hclosed : (Lexeme.word (c :: inner)).Closed rest) :
    word source (between mode done (c :: inner ++ rest)).offset
        (between mode (done ++ [c]) (inner ++ rest)) =
      .ok (.ok (some ((Lexeme.word (c :: inner)).token (.reached mode (done ++ c :: inner)))),
        between mode (done ++ c :: inner) rest) := by
  have hfinds : Pattern.Finds .word (c :: inner) (c :: inner ++ rest) := by
    apply finds_of_closed (.word hword) hclosed ((Pattern.mem_word_iff _).mpr hword)
    intro other hother
    exact .inl ((Pattern.mem_word_iff other).mp hother)
  unfold word
  rw [consumeMatch_of_finds mode h hfinds]
  rfl

theorem string_of_not_mem (mode : LineMode) {mark : Char} (hmem : mark ∉ rest)
    (h : source.toList = done ++ rest) :
    string source mark (between mode done rest) =
      .ok (.error ⟨.unterminatedString mark, .reached mode (done ++ rest)⟩,
        between mode (done ++ rest) []) := by
  unfold string
  rw [rest_between, seek_of_not_mem mode hmem h]
  rfl

theorem back_append (text : List Char) (c : Char) :
    back (String.ofList (text ++ [c])).utf8ByteSize c.utf8Size =
      .ok (String.ofList text).utf8ByteSize := by
  have hsize : (String.ofList (text ++ [c])).utf8ByteSize =
      (String.ofList text).utf8ByteSize + c.utf8Size := by
    simp [String.ofList_append]
  unfold back
  rw [hsize, if_pos (Nat.le_add_left _ _), Nat.add_sub_cancel]

theorem string_of_mem (mode : LineMode) {mark : Char} (hmem : mark ∉ text)
    (h : source.toList = done ++ (text ++ mark :: rest)) :
    string source mark (between mode done (text ++ mark :: rest)) =
      .ok (.ok (some (.plain .string (String.ofList text)
        (.reached mode (done ++ text ++ [mark])))),
          between mode (done ++ text ++ [mark]) rest) := by
  have hslice := slice_of_toList_eq (h.trans (List.append_assoc done text _).symm)
  unfold string
  rw [rest_between, seek_of_mem mode hmem h, ok_bind]
  simp only [between]
  rw [back_append, ok_bind, hslice]
  rfl

theorem single_of_mem {kind : Token.Kind} (h : (String.ofList [c], kind) ∈ Token.operators)
    (cursor : Cursor) :
    single c cursor = (.ok (some (.plain kind (String.ofList [c]) cursor.position)), cursor) := by
  unfold single
  rw [(Lexeme.operatorKind?_eq_some_iff _ _).mpr h]

theorem single_of_not (h : ¬ Lexeme.IsOperator [c]) (cursor : Cursor) :
    single c cursor = (.error ⟨.unrecognizedCharacter c, cursor.position⟩, cursor) := by
  unfold single
  rw [Lexeme.operatorKind?_of_not h]

theorem operator_of_not_pair (mode : LineMode) (source : String) (done : List Char)
    (h : ∀ d, rest.head? = some d → ¬ Lexeme.IsOperator [c, d]) :
    operator source c (between mode done rest) = .ok (single c (between mode done rest)) := by
  unfold operator
  cases rest with
  | nil => rfl
  | cons d rest =>
    rw [peek_between]
    dsimp only
    rw [Lexeme.operatorKind?_of_not (h d rfl)]
    rfl

theorem operator_of_pair (mode : LineMode) {d : Char} {kind : Token.Kind}
    (h : source.toList = done ++ d :: rest)
    (hpair : (String.ofList [c, d], kind) ∈ Token.operators) :
    operator source c (between mode done (d :: rest)) =
      .ok (.ok (some (.plain kind (String.ofList [c, d]) (.reached mode (done ++ [d])))),
        between mode (done ++ [d]) rest) := by
  unfold operator
  rw [peek_between]
  dsimp only
  rw [(Lexeme.operatorKind?_eq_some_iff _ _).mpr hpair]
  dsimp only
  rw [accept_cons mode h]
  rfl

end SketchLang.Scan.Checked
