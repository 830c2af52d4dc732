import SketchLang.Proofs.Command.Outcome
import SketchLang.Proofs.Scan.Emitted

/-!
This module contains all the ways in which a run ends. The arguments are looked at first, then the
bytes of the input, then the text that they encode, and only a text that is scanned to its end is
answered on the standard output (`Command.run_eq_iff_ends`).
-/

namespace SketchLang

open Text

namespace Scan

theorem Fault.not_mem_message (fault : Fault) : '\n' ∉ fault.message.toList := by
  unfold message
  cases fault with
  | unterminatedString mark =>
    have hquote := not_mem_quote (.inr rfl) [mark]
    simp [hquote]
  | unrecognizedCharacter c =>
    have hquote := not_mem_quote (.inr rfl) [c]
    simp [hquote]

theorem Error.not_mem_message (error : Error) : '\n' ∉ error.message.toList := by
  have hdigits : ∀ n, '\n' ∉ Nat.toDigits 10 n :=
    not_mem_toDigits (by decide) fun _ => Nat.digitChar_ne _ (by decide)
  have hfault := error.fault.not_mem_message
  rw [toList_message]
  simp [hdigits, hfault]

theorem exists_standing_of_tokenize {mode : LineMode} {source : String} {tokens : List Token}
    (h : tokenize mode source = .ok tokens) :
    ∃ standing position, tokens = standing ++ [.eof position] ∧
      ∀ token ∈ standing, token.kind ≠ .eof := by
  refine ⟨emitted mode source, _, eq_emitted_of_tokenize h, ?_⟩
  intro token htoken
  have hnot := List.all_eq_true.mp List.all_takeWhile token htoken
  simpa [Token.isEof] using hnot

end Scan

namespace Command

inductive Ends (args : List String) (input : ByteArray) : Outcome → Prop
  | unknownArgument {known rest : List String} {argument : String}
    (hargs : args = known ++ argument :: rest) (hknown : ∀ arg ∈ known, arg = trackLines)
    (hargument : argument ≠ trackLines) :
    Ends args input ⟨1, "", "error: unknown argument " ++ quoteString argument ++ "\n"⟩
  | unreadableInput (hargs : ∀ arg ∈ args, arg = trackLines)
    (hinput : ¬ ∃ text : List Char, input = text.utf8Encode) :
    Ends args input
      ⟨1, "", "error: could not read input: stream did not contain valid UTF-8" ++ "\n"⟩
  | lexicalError {text : List Char} {error : Scan.Error} (hargs : ∀ arg ∈ args, arg = trackLines)
    (hinput : input = text.utf8Encode)
    (htokens : tokenize (modeOf args) (String.ofList text) = .error error) :
    Ends args input ⟨1, "", "error: " ++ error.message ++ "\n"⟩
  | printed {text : List Char} {standing : List Token} {position : Position}
    (hargs : ∀ arg ∈ args, arg = trackLines) (hinput : input = text.utf8Encode)
    (htokens : tokenize (modeOf args) (String.ofList text) =
      .ok (standing ++ [Token.eof position]))
    (hstanding : ∀ token ∈ standing, token.kind ≠ .eof) :
    Ends args input ⟨0, String.join ((standing ++ [Token.eof position]).map line), ""⟩

variable {args known rest : List String} {argument : String} {input : ByteArray}
  {text : List Char} {outcome : Outcome}

theorem utf8Encode_inj {text text' : List Char} (h : text.utf8Encode = text'.utf8Encode) :
    text = text' := by
  rw [← String.toByteArray_ofList, ← String.toByteArray_ofList, String.toByteArray_inj] at h
  exact String.ofList_inj.mp h

theorem fromUTF8?_utf8Encode (text : List Char) :
    String.fromUTF8? text.utf8Encode = some (String.ofList text) := by
  rw [← String.toByteArray_ofList]
  exact fromUTF8?_toUTF8 (String.ofList text)

theorem fromUTF8?_eq_none (h : ¬ ∃ text : List Char, input = text.utf8Encode) :
    String.fromUTF8? input = none := by
  unfold String.fromUTF8?
  apply dif_neg
  rintro ⟨text, htext⟩
  exact h ⟨text, htext⟩

theorem exists_first_unknown (h : ∃ arg ∈ args, arg ≠ trackLines) :
    ∃ known argument rest, args = known ++ argument :: rest ∧
      (∀ arg ∈ known, arg = trackLines) ∧ argument ≠ trackLines := by
  cases hfind : args.find? (· != trackLines) with
  | none =>
    rcases h with ⟨arg, harg, hne⟩
    rw [List.find?_eq_none] at hfind
    exact absurd (bne_iff_ne.mpr hne) (hfind arg harg)
  | some argument =>
    rw [List.find?_eq_some_iff_append] at hfind
    rcases hfind with ⟨hargument, known, rest, hargs, hknown⟩
    exact ⟨known, argument, rest, hargs, by simpa using hknown, bne_iff_ne.mp hargument⟩

theorem lineMode_of_unknown (hknown : ∀ arg ∈ known, arg = trackLines)
    (hargument : argument ≠ trackLines) :
    lineMode (known ++ argument :: rest) = .error (.unknownArgument argument) := by
  have hfind : (known ++ argument :: rest).find? (· != trackLines) = some argument := by
    rw [List.find?_eq_some_iff_append]
    exact ⟨bne_iff_ne.mpr hargument, known, rest, rfl, by simpa using hknown⟩
  unfold lineMode
  rw [hfind]

theorem run_of_error {error : Error} (h : tokens args input = .error error) :
    run args input = ⟨1, "", "error: " ++ error.message ++ "\n"⟩ := by
  unfold run
  rw [h]

theorem run_of_unknown (hknown : ∀ arg ∈ known, arg = trackLines)
    (hargument : argument ≠ trackLines) (input : ByteArray) :
    run (known ++ argument :: rest) input =
      ⟨1, "", "error: unknown argument " ++ quoteString argument ++ "\n"⟩ := by
  have htokens : tokens (known ++ argument :: rest) input = .error (.unknownArgument argument) := by
    unfold tokens
    rw [lineMode_of_unknown hknown hargument]
    rfl
  have hmessage : (Error.unknownArgument argument).message =
      "unknown argument " ++ quoteString argument := rfl
  have hstderr : "error: " ++ ("unknown argument " ++ quoteString argument) ++ "\n" =
      "error: unknown argument " ++ quoteString argument ++ "\n" := by
    rw [← String.toList_inj]
    simp
  rw [run_of_error htokens, hmessage, hstderr]

theorem run_of_unreadable (hargs : ∀ arg ∈ args, arg = trackLines)
    (hinput : ¬ ∃ text : List Char, input = text.utf8Encode) :
    run args input =
      ⟨1, "", "error: could not read input: stream did not contain valid UTF-8" ++ "\n"⟩ := by
  have hsource : decode input =
      .error (.unreadableInput ⟨.invalidData, "stream did not contain valid UTF-8"⟩) := by
    unfold decode
    rw [fromUTF8?_eq_none hinput]
  have htokens : tokens args input =
      .error (.unreadableInput ⟨.invalidData, "stream did not contain valid UTF-8"⟩) := by
    unfold tokens
    rw [lineMode_of_known hargs, hsource]
    rfl
  rw [run_of_error htokens]
  decide +kernel

theorem Ends.run_eq (h : Ends args input outcome) : run args input = outcome := by
  cases h with
  | unknownArgument hargs hknown hargument =>
    rw [hargs]
    exact run_of_unknown hknown hargument input
  | unreadableInput hargs hinput => exact run_of_unreadable hargs hinput
  | lexicalError hargs hinput htokens =>
    rw [hinput, run_eq_outcomeOf hargs (fromUTF8?_utf8Encode _), htokens, outcomeOf]
  | printed hargs hinput htokens =>
    rw [hinput, run_eq_outcomeOf hargs (fromUTF8?_utf8Encode _), htokens, outcomeOf]

theorem exists_ends (args : List String) (input : ByteArray) :
    ∃ outcome, Ends args input outcome := by
  by_cases hargs : ∃ arg ∈ args, arg ≠ trackLines
  . rcases exists_first_unknown hargs with ⟨known, argument, rest, hargs, hknown, hargument⟩
    exact ⟨_, .unknownArgument hargs hknown hargument⟩
  have hargs : ∀ arg ∈ args, arg = trackLines := by simpa using hargs
  by_cases hinput : ∃ text : List Char, input = text.utf8Encode
  . rcases hinput with ⟨text, hinput⟩
    cases htokens : tokenize (modeOf args) (String.ofList text) with
    | ok tokens =>
      rcases Scan.exists_standing_of_tokenize htokens with ⟨standing, position, rfl, hstanding⟩
      exact ⟨_, .printed hargs hinput htokens hstanding⟩
    | error error => exact ⟨_, .lexicalError hargs hinput htokens⟩
  . exact ⟨_, .unreadableInput hargs hinput⟩

theorem Ends.unknown_of_exists (h : Ends args input outcome)
    (hargs : ∃ arg ∈ args, arg ≠ trackLines) (other : ByteArray) : Ends args other outcome := by
  rcases hargs with ⟨arg, harg, hne⟩
  cases h with
  | unknownArgument hargs hknown hargument => exact .unknownArgument hargs hknown hargument
  | unreadableInput hargs => exact absurd (hargs arg harg) hne
  | lexicalError hargs => exact absurd (hargs arg harg) hne
  | printed hargs => exact absurd (hargs arg harg) hne

inductive Clean : Outcome → Prop
  | success (stdout : String) : Clean ⟨0, stdout, ""⟩
  | failure {message : String} (h : '\n' ∉ message.toList) : Clean ⟨1, "", message ++ "\n"⟩

theorem Ends.clean (h : Ends args input outcome) : Clean outcome := by
  cases h with
  | @unknownArgument _ _ argument =>
    apply Clean.failure
    have hquote := not_mem_quote (.inl rfl) argument.toList
    simp [hquote]
  | unreadableInput =>
    apply Clean.failure
    decide +kernel
  | @lexicalError _ error =>
    apply Clean.failure
    have hmessage := error.not_mem_message
    simp [hmessage]
  | printed => apply Clean.success

theorem run_eq_iff_ends (args : List String) (input : ByteArray) :
    (∀ outcome, run args input = outcome ↔ Ends args input outcome) ∧
    ((∃ arg ∈ args, arg ≠ trackLines) → ∀ other, run args other = run args input) ∧
    (∀ text text' : List Char, input = text.utf8Encode → input = text'.utf8Encode →
      text = text') ∧
    Clean (run args input) := by
  rcases exists_ends args input with ⟨outcome, h⟩
  refine ⟨?_, ?_, ?_, ?_⟩
  . intro outcome'
    constructor
    . rintro rfl
      rwa [h.run_eq]
    . exact Ends.run_eq
  . intro hargs other
    rw [h.run_eq]
    exact (h.unknown_of_exists hargs other).run_eq
  . intro text text' htext htext'
    rw [htext] at htext'
    exact utf8Encode_inj htext'
  . rw [h.run_eq]
    exact h.clean

theorem run_eq_iff_ends_surrogate :
    (∃ arg ∈ ["--track-lines", "a\n", "b"], arg ≠ trackLines) ∧
    (∀ other, run ["--track-lines", "a\n", "b"] other =
      run ["--track-lines", "a\n", "b"] ⟨#[0xFF]⟩) ∧
    run ["--track-lines", "a\n", "b"] ⟨#[0xFF]⟩ =
      ⟨1, "", "error: unknown argument \"a\\n\"\n"⟩ ∧
    Ends ["--track-lines"] ⟨#[0x27, 0xED, 0xA0, 0x80]⟩
      ⟨1, "", "error: could not read input: stream did not contain valid UTF-8" ++ "\n"⟩ ∧
    Ends [] ⟨#[0x27, 0xC3, 0xA9]⟩
      ⟨1, "", "error: line 1, column 2: unterminated string literal opened with '\\''\n"⟩ ∧
    Ends ["--track-lines", "--track-lines"] ⟨#[0x0A, 0x78]⟩
      ⟨0, "2:1 Identifier \"x\"\n2:1 EOF \"\"\n", ""⟩ := by
  have hargs : ∃ arg ∈ ["--track-lines", "a\n", "b"], arg ≠ trackLines := by decide
  refine ⟨hargs, (run_eq_iff_ends _ ⟨#[0xFF]⟩).2.1 hargs, ?_, ?_, ?_, ?_⟩
  . decide +kernel
  all_goals
    apply ((run_eq_iff_ends _ _).1 _).mp
    decide +kernel

end Command

end SketchLang
