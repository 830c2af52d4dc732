import SketchLang.Position

namespace SketchLang

structure Cursor where
  mode : LineMode
  rest : List Char
  /--
  How many bytes the consumed characters take in UTF-8.
  -/
  offset : Nat
  position : Position
deriving DecidableEq

namespace Cursor

def ofString (mode : LineMode) (source : String) : Cursor :=
  ⟨mode, source.toList, 0, .start⟩

def peek (cursor : Cursor) : Option Char := cursor.rest.head?

def next? (cursor : Cursor) : Option (Char × Cursor) :=
  match cursor.rest with
  | [] => none
  | c :: rest =>
    some (c, { cursor with
      rest := rest
      offset := cursor.offset + c.utf8Size
      position := cursor.position.next cursor.mode c })

def advance (cursor : Cursor) : Cursor :=
  match cursor.next? with
  | none => cursor
  | some (_, cursor) => cursor

def accept? (cursor : Cursor) (expected : Char) : Option Cursor :=
  match cursor.next? with
  | none => none
  | some (c, cursor) => if c = expected then some cursor else none

def skip (cursor : Cursor) : Nat → Cursor
  | 0 => cursor
  | n + 1 => cursor.advance.skip n

theorem skip_skip (cursor : Cursor) (m n : Nat) : (cursor.skip m).skip n = cursor.skip (m + n) := by
  induction m generalizing cursor with
  | zero => simp [skip]
  | succ m ih => rw [Nat.succ_add, skip, skip, ih]

@[simp]
theorem mode_advance (cursor : Cursor) : cursor.advance.mode = cursor.mode := by
  unfold advance next?
  cases cursor.rest <;> rfl

@[simp]
theorem rest_advance (cursor : Cursor) : cursor.advance.rest = cursor.rest.tail := by
  unfold advance next?
  cases h : cursor.rest <;> simp [h]

theorem position_advance (cursor : Cursor) :
    cursor.advance.position = cursor.position.after cursor.mode (cursor.rest.take 1) := by
  unfold advance next?
  cases cursor.rest <;> rfl

@[simp]
theorem mode_skip (cursor : Cursor) (n : Nat) : (cursor.skip n).mode = cursor.mode := by
  induction n generalizing cursor with
  | zero => rfl
  | succ n ih => simp [skip, ih]

@[simp]
theorem rest_skip (cursor : Cursor) (n : Nat) : (cursor.skip n).rest = cursor.rest.drop n := by
  induction n generalizing cursor with
  | zero => rfl
  | succ n ih => simp [skip, ih]

theorem position_skip (cursor : Cursor) (n : Nat) :
    (cursor.skip n).position = cursor.position.after cursor.mode (cursor.rest.take n) := by
  induction n generalizing cursor with
  | zero => simp [skip]
  | succ n ih =>
    rw [skip, ih, position_advance, mode_advance, rest_advance, ← Position.after_append]
    cases cursor.rest <;> simp

end Cursor

end SketchLang
