import Mathlib.Data.String.Basic
import SketchLang.Proofs.Scan.Resume

/-!
This module contains what is known of a cursor after any calls. It always lies between two parts of
its source, and these tell all that can be learned from it: where it is, what a further call answers
and does, and what a scan from there finds (`Cursor.performAll_ofString`).
-/

namespace SketchLang.Cursor

inductive Call where
  | peek
  | advance
  | accept (expected : Char)

inductive Answer where
  | character (c? : Option Char)
  | flag (accepted : Bool)

def perform (cursor : Cursor) : Call → Answer × Cursor
  | .peek => (.character cursor.peek, cursor)
  | .advance =>
    match cursor.next? with
    | some (c, cursor) => (.character (some c), cursor)
    | none => (.character none, cursor)
  | .accept expected =>
    match cursor.accept? expected with
    | some cursor => (.flag true, cursor)
    | none => (.flag false, cursor)

def performAll (cursor : Cursor) (calls : List Call) : Cursor :=
  calls.foldl (fun cursor call => (cursor.perform call).2) cursor

def between (mode : LineMode) (done rest : List Char) : Cursor where
  mode := mode
  rest := rest
  offset := (String.ofList done).utf8ByteSize
  position := .reached mode done

/--
Everything about a cursor in `source` that has consumed `done` and has `rest` to come.
-/
structure Law (mode : LineMode) (source : String) (done rest : List Char) (cursor : Cursor) :
    Prop where
  state : cursor = between mode done rest
  boundary : String.Pos.Raw.IsValid source ⟨cursor.offset⟩
  ahead : String.Pos.Raw.get? source ⟨cursor.offset⟩ = rest.head?
  peek : cursor.perform .peek = (.character rest.head?, cursor)
  peek_end : cursor.peek = none ↔ rest = []
  advance : ∀ c more, rest = c :: more →
    cursor.perform .advance = (.character (some c), between mode (done ++ [c]) more)
  advance_end : rest = [] → cursor.perform .advance = (.character none, cursor)
  accept : ∀ c more, rest = c :: more →
    cursor.perform (.accept c) = (.flag true, between mode (done ++ [c]) more)
  accept_other : ∀ c, rest.head? ≠ some c → cursor.perform (.accept c) = (.flag false, cursor)
  scan : (Scan.start cursor).run.result =
    .shift (.reached mode done) (tokenize mode (String.ofList rest))

variable {source : String} {done rest : List Char} {calls : List Call}

theorem ofString_eq_between (mode : LineMode) (source : String) :
    ofString mode source = between mode [] source.toList := by
  unfold ofString between
  rw [Position.reached_nil]
  rfl

theorem next?_between (mode : LineMode) (done : List Char) (c : Char) (rest : List Char) :
    (between mode done (c :: rest)).next? = some (c, between mode (done ++ [c]) rest) := by
  simp only [next?, between]
  rw [Position.next_reached]
  simp

theorem perform_advance_between (mode : LineMode) (done : List Char) (c : Char) (rest : List Char) :
    (between mode done (c :: rest)).perform .advance =
      (.character (some c), between mode (done ++ [c]) rest) := by
  simp only [perform]
  rw [next?_between]

theorem perform_accept_between (mode : LineMode) (done : List Char) (c expected : Char)
    (rest : List Char) :
    (between mode done (c :: rest)).perform (.accept expected) =
      if c = expected then (.flag true, between mode (done ++ [c]) rest)
      else (.flag false, between mode done (c :: rest)) := by
  simp only [perform, accept?]
  rw [next?_between]
  by_cases hc : c = expected
  . simp [hc]
  . simp [hc]

theorem exists_between_of_perform (mode : LineMode) (done rest : List Char) (call : Call) :
    ∃ done' rest', done' ++ rest' = done ++ rest ∧
      ((between mode done rest).perform call).2 = between mode done' rest' := by
  cases call with
  | peek => exact ⟨done, rest, rfl, rfl⟩
  | advance =>
    cases rest with
    | nil => exact ⟨done, [], rfl, rfl⟩
    | cons c rest =>
      refine ⟨done ++ [c], rest, ?_, ?_⟩
      . simp
      . rw [perform_advance_between]
  | accept expected =>
    cases rest with
    | nil => exact ⟨done, [], rfl, rfl⟩
    | cons c rest =>
      rw [perform_accept_between]
      split
      . refine ⟨done ++ [c], rest, ?_, rfl⟩
        simp
      . exact ⟨done, c :: rest, rfl, rfl⟩

theorem exists_between_of_performAll (mode : LineMode) (done rest : List Char)
    (calls : List Call) :
    ∃ done' rest', done' ++ rest' = done ++ rest ∧
      (between mode done rest).performAll calls = between mode done' rest' := by
  induction calls generalizing done rest with
  | nil => exact ⟨done, rest, rfl, rfl⟩
  | cons call calls ih =>
    rcases exists_between_of_perform mode done rest call with ⟨done', rest', htext, hcall⟩
    rcases ih done' rest' with ⟨done'', rest'', htext', hcalls⟩
    refine ⟨done'', rest'', ?_, ?_⟩
    . rw [htext', htext]
    . rw [← hcalls, ← hcall]
      rfl

theorem law_between (mode : LineMode) (htext : source.toList = done ++ rest) :
    Law mode source done rest (between mode done rest) := by
  have hsource : source = String.ofList (done ++ rest) := by
    rw [← htext, String.ofList_toList]
  constructor
  . rfl
  . rw [String.Pos.Raw.isValid_iff_exists_append]
    refine ⟨String.ofList done, String.ofList rest, ?_, rfl⟩
    rw [hsource, String.ofList_append]
  . rw [hsource]
    simp only [between]
    rw [String.utf8ByteSize_ofList]
    apply String.get?_of_valid
  . rfl
  . apply List.head?_eq_none_iff
  . intro c more hrest
    subst hrest
    apply perform_advance_between
  . intro hrest
    subst hrest
    rfl
  . intro c more hrest
    subst hrest
    rw [perform_accept_between]
    simp
  . intro expected hne
    cases rest with
    | nil => rfl
    | cons c rest =>
      have hc : c ≠ expected := by simpa using hne
      rw [perform_accept_between]
      rw [if_neg hc]
  . apply Scan.run_start_eq_shift

theorem performAll_ofString (mode : LineMode) (source : String) (calls : List Call) :
    ∃ done rest, source.toList = done ++ rest ∧
      Law mode source done rest ((ofString mode source).performAll calls) := by
  rcases exists_between_of_performAll mode [] source.toList calls with
    ⟨done, rest, htext, hcalls⟩
  rw [ofString_eq_between, hcalls]
  exact ⟨done, rest, htext.symm, law_between mode htext.symm⟩

example :
    (ofString .track "é\n12").performAll [.advance, .accept '1', .peek, .advance, .accept '1'] =
      between .track ['é', '\n', '1'] ['2'] := by
  decide

end SketchLang.Cursor
