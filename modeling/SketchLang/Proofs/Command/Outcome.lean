import SketchLang.Command
import SketchLang.Proofs.Scan.Equality
import SketchLang.Proofs.Text.Quoted

/-!
This module contains what the outcome of a run says about the scan. Whatever the lexemes hold, a
token has one line of its own, from which its kind, its lexeme and its position can be read, and an
error can be read from its message. So two runs have the same outcome iff their scans have the same
result (`Command.run_eq_iff_tokenize_beq`).
-/

namespace SketchLang

open Text

section Fields

variable {c : Char} {rest rest' : List Char}

theorem Text.toDigits_append_inj (hc : c.isDigit = false) {m n : Nat}
    (h : Nat.toDigits 10 m ++ c :: rest = Nat.toDigits 10 n ++ c :: rest') :
    m = n ∧ rest = rest' := by
  have hnot : ∀ n, c ∉ Nat.toDigits 10 n := by
    intro n hmem
    rw [Nat.isDigit_of_mem_toDigits (by decide) (by decide) hmem] at hc
    contradiction
  rcases append_cons_inj (hnot m) (hnot n) h with ⟨hdigits, hrest⟩
  exact ⟨toDigits_inj (by decide) (by decide) hdigits, hrest⟩

theorem Token.Kind.name_inj {kind kind' : Kind} (h : kind.name = kind'.name) : kind = kind' := by
  have hfound := ofName?_name kind
  rw [h, ofName?_name kind'] at hfound
  injection hfound with heq
  exact heq.symm

theorem Token.Kind.name_append_inj {kind kind' : Kind}
    (h : kind.name.toList ++ ' ' :: rest = kind'.name.toList ++ ' ' :: rest') :
    kind = kind' ∧ rest = rest' := by
  have hblank : ∀ kind ∈ all, ' ' ∉ kind.name.toList := by decide +kernel
  rcases append_cons_inj (hblank _ (mem_all kind)) (hblank _ (mem_all kind')) h with ⟨hname, hrest⟩
  exact ⟨name_inj (String.toList_inj.mp hname), hrest⟩

end Fields

namespace Scan

theorem Fault.message_inj {fault fault' : Fault} (h : fault.message = fault'.message) :
    fault = fault' := by
  unfold message at h
  rw [← String.toList_inj] at h
  split at h
  . next c =>
    split at h
    . next d =>
      rw [String.toList_append, String.toList_append, List.append_cancel_left_eq,
        String.toList_inj] at h
      rw [quoteChar_inj h]
    . simp at h
  . next c =>
    split at h
    . simp at h
    . next d =>
      rw [String.toList_append, String.toList_append, List.append_cancel_left_eq,
        String.toList_inj] at h
      rw [quoteChar_inj h]

theorem Error.toList_message (error : Error) : error.message.toList =
    "line ".toList ++ (Nat.toDigits 10 error.position.line ++ ',' :: (" column ".toList ++
      (Nat.toDigits 10 error.position.column ++ ':' :: ' ' :: error.fault.message.toList))) := by
  simp [message]

theorem Error.message_inj {error error' : Error} (h : error.message = error'.message) :
    error = error' := by
  rw [← String.toList_inj, toList_message, toList_message, List.append_cancel_left_eq] at h
  rcases toDigits_append_inj (by decide) h with ⟨hline, h⟩
  rw [List.append_cancel_left_eq] at h
  rcases toDigits_append_inj (by decide) h with ⟨hcolumn, h⟩
  injection h with _ h
  have hfault := Fault.message_inj (String.toList_inj.mp h)
  rcases error with ⟨fault, ⟨line, column⟩⟩
  rcases error' with ⟨fault', ⟨line', column'⟩⟩
  simp only at hline hcolumn hfault
  rw [hline, hcolumn, hfault]

end Scan

namespace Command

structure SameShown (token token' : Token) : Prop where
  kind : token.kind = token'.kind
  lexeme : token.lexeme = token'.lexeme
  position : token.position = token'.position

variable {token token' : Token} {tokens tokens' : List Token} {rest rest' : List Char}

theorem toList_line (token : Token) : (line token).toList =
    Nat.toDigits 10 token.position.line ++ ':' :: (Nat.toDigits 10 token.position.column ++
      ' ' :: (token.kind.name.toList ++ ' ' :: (quote '"' token.lexeme.toList ++ ['\n']))) := by
  simp [line]

theorem line_append_inj (h : (line token).toList ++ rest = (line token').toList ++ rest') :
    SameShown token token' ∧ rest = rest' := by
  simp only [toList_line, List.append_assoc, List.cons_append] at h
  rcases toDigits_append_inj (by decide) h with ⟨hline, h⟩
  rcases toDigits_append_inj (by decide) h with ⟨hcolumn, h⟩
  rcases Token.Kind.name_append_inj h with ⟨hkind, h⟩
  rcases quote_append_inj (.inl rfl) h with ⟨hlexeme, h⟩
  injection h with _ hrest
  refine ⟨⟨hkind, String.toList_inj.mp hlexeme, ?_⟩, hrest⟩
  rcases token with ⟨_, _, _, ⟨line, column⟩⟩
  rcases token' with ⟨_, _, _, ⟨line', column'⟩⟩
  simp only at hline hcolumn
  rw [hline, hcolumn]

theorem line_eq_iff : line token = line token' ↔ SameShown token token' := by
  constructor
  . intro h
    have hlist : (line token).toList ++ [] = (line token').toList ++ [] := by rw [h]
    exact (line_append_inj hlist).1
  . intro h
    unfold line
    rw [h.kind, h.lexeme, h.position]

theorem forall₂_sameShown_of_lines
    (h : tokens.flatMap (fun token => (line token).toList) =
      tokens'.flatMap fun token => (line token).toList) :
    List.Forall₂ SameShown tokens tokens' := by
  have hne : ∀ (token : Token) (rest : List Char), (line token).toList ++ rest ≠ [] := by
    intro token rest
    simp [toList_line]
  induction tokens generalizing tokens' with
  | nil =>
    cases tokens' with
    | nil => apply List.Forall₂.nil
    | cons token' tokens' => exact absurd h.symm (hne token' _)
  | cons token tokens ih =>
    cases tokens' with
    | nil => exact absurd h (hne token _)
    | cons token' tokens' =>
      rw [List.flatMap_cons, List.flatMap_cons] at h
      rcases line_append_inj h with ⟨hshown, hrest⟩
      exact .cons hshown (ih hrest)

def content (token : Token) : String :=
  toString token.position.line ++ ":" ++ toString token.position.column ++ " " ++
    token.kind.name ++ " " ++ Text.quoteString token.lexeme

theorem content_append (token : Token) : content token ++ "\n" = line token := rfl

theorem not_mem_content (token : Token) : '\n' ∉ (content token).toList := by
  have hdigits : ∀ n, '\n' ∉ Nat.toDigits 10 n :=
    not_mem_toDigits (by decide) fun _ => Nat.digitChar_ne _ (by decide)
  have hnames : ∀ kind ∈ Token.Kind.all, '\n' ∉ kind.name.toList := by decide +kernel
  have hquote := not_mem_quote (.inl rfl) token.lexeme.toList
  have hname := hnames token.kind (Token.Kind.mem_all _)
  simp [content, hdigits, hname, hquote]

def modeOf (args : List String) : LineMode := if args.isEmpty then .flat else .track

def outcomeOf : Scan.Result → Outcome
  | .ok tokens => ⟨0, String.join (tokens.map line), ""⟩
  | .error error => ⟨1, "", "error: " ++ error.message ++ "\n"⟩

theorem fromUTF8?_toUTF8 (source : String) : String.fromUTF8? source.toUTF8 = some source := by
  unfold String.fromUTF8?
  exact dif_pos source.isValidUTF8

theorem lineMode_of_known {args : List String} (hargs : ∀ arg ∈ args, arg = trackLines) :
    lineMode args = .ok (modeOf args) := by
  have hnone : args.find? (· != trackLines) = none := by
    rw [List.find?_eq_none]
    intro arg harg
    simp [hargs arg harg]
  unfold lineMode
  rw [hnone]
  rfl

theorem run_eq_outcomeOf {args : List String} {input : ByteArray} {source : String}
    (hargs : ∀ arg ∈ args, arg = trackLines) (hinput : String.fromUTF8? input = some source) :
    run args input = outcomeOf (tokenize (modeOf args) source) := by
  have hmode := lineMode_of_known hargs
  have hsource : decode input = .ok source := by
    unfold decode
    rw [hinput]
  have htokens : tokens args input = scan (modeOf args) source := by
    unfold tokens
    rw [hmode, hsource]
    rfl
  unfold run
  rw [htokens]
  unfold scan
  cases tokenize (modeOf args) source with
  | ok tokens => rfl
  | error error => rfl

theorem beq_of_sameShown (h : ∀ token ∈ tokens, token.Lawful) (h' : ∀ token ∈ tokens', token.Lawful)
    (hshown : List.Forall₂ SameShown tokens tokens') : tokens == tokens' := by
  rw [Token.beq_list_iff]
  induction hshown with
  | nil => apply List.Forall₂.nil
  | @cons token token' tokens tokens' hsame hshown ih =>
    rw [List.forall_mem_cons] at h h'
    have hvalue := h.1.value_eq h'.1 hsame.kind hsame.lexeme
    apply List.Forall₂.cons
    . rw [Token.beq_iff]
      refine ⟨hsame.kind, hsame.lexeme, ?_, hsame.position⟩
      rw [← hvalue]
      exact h.1.beq_value
    . exact ih h.2 h'.2

theorem map_line_of_beq (h : tokens == tokens') : tokens.map line = tokens'.map line := by
  rw [Token.beq_list_iff] at h
  induction h with
  | nil => rfl
  | @cons token token' tokens tokens' hbeq _ ih =>
    rw [Token.beq_iff] at hbeq
    have hline : line token = line token' := line_eq_iff.mpr ⟨hbeq.1, hbeq.2.1, hbeq.2.2.2⟩
    rw [List.map_cons, List.map_cons]
    rw [hline, ih]

theorem outcomeOf_eq_iff {mode mode' : LineMode} {source source' : String} :
    outcomeOf (tokenize mode source) = outcomeOf (tokenize mode' source') ↔
      tokenize mode source == tokenize mode' source' := by
  cases h : tokenize mode source with
  | ok tokens =>
    cases h' : tokenize mode' source' with
    | ok tokens' =>
      constructor
      . intro houtcome
        have hstdout := congrArg (·.stdout.toList) houtcome
        simp only [outcomeOf, String.toList_join, List.flatMap_map] at hstdout
        apply beq_of_sameShown
        . exact fun _ => Scan.lawful_of_mem_tokenize h
        . exact fun _ => Scan.lawful_of_mem_tokenize h'
        . exact forall₂_sameShown_of_lines hstdout
      . intro hbeq
        have htokens : tokens == tokens' := hbeq
        simp only [outcomeOf]
        rw [map_line_of_beq htokens]
    | error error' =>
      constructor
      . intro houtcome
        have hcode : (0 : UInt32) = 1 := congrArg (·.exitCode) houtcome
        contradiction
      . intro hbeq
        contradiction
  | error error =>
    cases h' : tokenize mode' source' with
    | ok tokens' =>
      constructor
      . intro houtcome
        have hcode : (1 : UInt32) = 0 := congrArg (·.exitCode) houtcome
        contradiction
      . intro hbeq
        contradiction
    | error error' =>
      constructor
      . intro houtcome
        have hstderr := congrArg (·.stderr.toList) houtcome
        simp only [outcomeOf, String.toList_append, List.append_cancel_right_eq,
          List.append_cancel_left_eq, String.toList_inj] at hstderr
        rw [Scan.Error.message_inj hstderr]
        exact beq_self_eq_true error'
      . intro hbeq
        rw [Scan.error_eq_of_beq hbeq]

theorem run_eq_iff_tokenize_beq {args args' : List String} {input input' : ByteArray}
    {source source' : String}
    (hargs : ∀ arg ∈ args, arg = trackLines) (hinput : String.fromUTF8? input = some source)
    (hargs' : ∀ arg ∈ args', arg = trackLines) (hinput' : String.fromUTF8? input' = some source') :
    (run args input = run args' input' ↔
      tokenize (modeOf args) source == tokenize (modeOf args') source') ∧
    (∀ tokens, tokenize (modeOf args) source = .ok tokens →
      (∃ lines, run args input = ⟨0, String.join (lines.map (· ++ "\n")), ""⟩ ∧
        List.Forall₂ (fun text token => '\n' ∉ text.toList ∧ text ++ "\n" = line token) lines
          tokens) ∧
      ∀ tokens', tokenize (modeOf args') source' = .ok tokens' →
        ∀ token ∈ tokens, ∀ token' ∈ tokens', token.kind = token'.kind →
          token.lexeme = token'.lexeme → token.value = token'.value) ∧
    (∀ error, tokenize (modeOf args) source = .error error →
      run args input = ⟨1, "", "error: " ++ error.message ++ "\n"⟩) ∧
    (∀ token token', line token = line token' →
      token.kind = token'.kind ∧ token.lexeme = token'.lexeme ∧ token.position = token'.position) ∧
    ∀ error error' : Scan.Error, error.message = error'.message → error = error' := by
  rw [run_eq_outcomeOf hargs hinput, run_eq_outcomeOf hargs' hinput']
  refine ⟨outcomeOf_eq_iff, ?_, ?_, ?_, ?_⟩
  . intro tokens h
    constructor
    . refine ⟨tokens.map content, ?_, ?_⟩
      . rw [h, List.map_map]
        rfl
      . rw [List.forall₂_map_left_iff, List.forall₂_same]
        intro token _
        exact ⟨not_mem_content token, content_append token⟩
    . intro tokens' h' token htoken token' htoken' hkind hlexeme
      have hlawful := Scan.lawful_of_mem_tokenize h htoken
      have hlawful' := Scan.lawful_of_mem_tokenize h' htoken'
      exact hlawful.value_eq hlawful' hkind hlexeme
  . intro error h
    rw [h]
    rfl
  . intro token token' h
    have hshown := line_eq_iff.mp h
    exact ⟨hshown.kind, hshown.lexeme, hshown.position⟩
  . intro error error'
    exact Scan.Error.message_inj

theorem run_eq_run_other_quotes :
    (∀ arg ∈ ["--track-lines", "--track-lines"], arg = trackLines) ∧
    String.fromUTF8? "'\\'".toUTF8 = some "'\\'" ∧
    String.fromUTF8? "\"\\\"".toUTF8 = some "\"\\\"" ∧
    run [] "'\\'".toUTF8 = run ["--track-lines", "--track-lines"] "\"\\\"".toUTF8 ∧
    (∃ lines, run [] "'\\'".toUTF8 = ⟨0, String.join (lines.map (· ++ "\n")), ""⟩ ∧
      List.Forall₂ (fun text token => '\n' ∉ text.toList ∧ text ++ "\n" = line token) lines
        [.plain .string "\\" ⟨1, 3⟩, .eof ⟨1, 3⟩]) ∧
    run [] "&".toUTF8 =
      ⟨1, "", "error: " ++ Scan.Error.message ⟨.unrecognizedCharacter '&', ⟨1, 1⟩⟩ ++ "\n"⟩ := by
  have hargs : ∀ arg ∈ ["--track-lines", "--track-lines"], arg = trackLines := by decide
  have hnone : ∀ arg ∈ ([] : List String), arg = trackLines := by simp
  have hsource := fromUTF8?_toUTF8 "'\\'"
  have hsource' := fromUTF8?_toUTF8 "\"\\\""
  have htokens : tokenize .flat "'\\'" = .ok [.plain .string "\\" ⟨1, 3⟩, .eof ⟨1, 3⟩] := by
    with_unfolding_all rfl
  have herror : tokenize .flat "&" = .error ⟨.unrecognizedCharacter '&', ⟨1, 1⟩⟩ := by
    with_unfolding_all rfl
  have hruns := run_eq_iff_tokenize_beq hnone hsource hargs hsource'
  have hfails := run_eq_iff_tokenize_beq hnone (fromUTF8?_toUTF8 "&") hargs hsource'
  refine ⟨hargs, hsource, hsource', ?_, ?_, ?_⟩
  . apply hruns.1.mpr
    decide +kernel
  . exact (hruns.2.1 _ htokens).1
  . exact hfails.2.2.1 _ herror

end Command

end SketchLang
