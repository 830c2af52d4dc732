import SketchLang.Proofs.Lexeme.Numeral
import SketchLang.Proofs.Scan.Equality

namespace SketchLang.Scan

open Lexeme (Numeral Reads Respelled IsNumber IsDigit)

def FindsNumber (token : Token) : Prop :=
  token.kind = .number ∧ ∃ mode source tokens, tokenize mode source = .ok tokens ∧ token ∈ tokens

theorem FindsNumber.exists_numeral {token : Token} (h : FindsNumber token) :
    ∃ d x, Numeral token.lexeme.toList d ∧ token.value = .number x ∧
      Binary64.RoundsToNearest d.toRat x := by
  rcases h with ⟨hkind, mode, source, tokens, htokens, hmem⟩
  cases lawful_of_mem_tokenize htokens hmem with
  | lexeme hreads =>
    simp only at hkind
    subst hkind
    exact hreads.exists_numeral
  | eof => contradiction

theorem FindsNumber.roundsToNearest {token : Token} {d : Decimal} {x : Binary64}
    (h : FindsNumber token) (hnumeral : Numeral token.lexeme.toList d)
    (hvalue : token.value = .number x) : Binary64.RoundsToNearest d.toRat x := by
  rcases h.exists_numeral with ⟨d', x', hnumeral', hvalue', hrounds⟩
  rw [hvalue] at hvalue'
  injection hvalue' with hx
  rw [hx, ← hnumeral'.unique hnumeral]
  exact hrounds

theorem tokenize_of_reads (mode : LineMode) {text : List Char} {kind : Token.Kind}
    {lexeme : String} {value : Token.Value} (h : Reads text kind lexeme value) :
    tokenize mode (String.ofList text) =
      .ok [⟨kind, lexeme, value, .reached mode text⟩, .eof (.reached mode text)] := by
  rcases Lexeme.exists_lawful_of_reads h with ⟨l, hlawful, rfl, htoken⟩
  have hpiece : Piece.Lawful (.lexeme l) := hlawful
  have hclosed : Piece.Closed (.lexeme l) [] := l.closed_nil
  have hcuts : Cuts (String.ofList l.raw).toList [.lexeme l] [] := by
    have hcuts := Cuts.cons hpiece hclosed (.halt .nil)
    rw [String.toList_ofList]
    rwa [List.append_nil] at hcuts
  rw [tokenize_of_cuts_nil hcuts, String.toList_ofList]
  simp only [tokensFrom, Piece.raw, Piece.token?, Position.after_start, htoken]
  rfl

theorem number_roundsToNearest {mode : LineMode} {source : String} {tokens : List Token}
    {token : Token} (h : tokenize mode source = .ok tokens) (htoken : token ∈ tokens)
    (hkind : token.kind = .number) :
    ∃ d x, Numeral token.lexeme.toList d ∧ token.value = .number x ∧
      Binary64.RoundsToNearest d.toRat x ∧
      ∀ token' d' x', FindsNumber token' → Numeral token'.lexeme.toList d' →
        token'.value = .number x' →
        (Respelled token.lexeme.toList token'.lexeme.toList → x' = x) ∧
        (d'.toRat = d.toRat → x' = x) ∧
        (d.toRat ≤ d'.toRat → x'.isFinite → x.isFinite ∧ x.toRat ≤ x'.toRat) := by
  have hfinds : FindsNumber token := ⟨hkind, mode, source, tokens, h, htoken⟩
  rcases hfinds.exists_numeral with ⟨d, x, hnumeral, hvalue, hrounds⟩
  refine ⟨d, x, hnumeral, hvalue, hrounds, ?_⟩
  intro token' d' x' hfinds' hnumeral' hvalue'
  have hrounds' := hfinds'.roundsToNearest hnumeral' hvalue'
  have hsame : d'.toRat = d.toRat → x' = x := by
    intro hrat
    rw [hrat] at hrounds'
    exact hrounds'.unique hrounds
  refine ⟨?_, hsame, ?_⟩
  . intro hrespelled
    rcases hrespelled.exists_numeral hnumeral with ⟨d'', hnumeral'', hrat⟩
    rw [← hnumeral'.unique hnumeral''] at hrat
    exact hsame hrat
  . intro hle hfinite
    exact hrounds.mono hrounds' hle hfinite

/--
A lexeme halfway between two numbers. It has the value of the even one, `2 ^ 53`.
-/
theorem number_roundsToNearest_halfway :
    let token : Token := ⟨.number, "9007199254740993", .number ⟨0x4340000000000000⟩, ⟨1, 16⟩⟩
    tokenize .track "9007199254740993" = .ok [token, .eof ⟨1, 16⟩] ∧
      Binary64.RoundsToNearest (Decimal.toRat ⟨9007199254740993, 0⟩) ⟨0x4340000000000000⟩ := by
  intro token
  have hnumeral : Numeral "9007199254740993".toList ⟨9007199254740993, 0⟩ :=
    Lexeme.numeral_of_ofText? (by decide +kernel)
  have hbits : (Binary64.ofDecimal ⟨9007199254740993, 0⟩).bits = 0x4340000000000000 := by
    decide +kernel
  have hvalue : Binary64.ofDecimal ⟨9007199254740993, 0⟩ = ⟨0x4340000000000000⟩ :=
    congrArg Binary64.mk hbits
  have hrounds := Binary64.roundsToNearest_ofDecimal ⟨9007199254740993, 0⟩
  have htokens := tokenize_of_reads .track (.number hnumeral hrounds)
  rw [hvalue, String.ofList_toList] at htokens
  rcases number_roundsToNearest htokens List.mem_cons_self rfl with ⟨d, x, hd, hx, hrounds, -⟩
  injection hx with hx
  rw [hd.unique hnumeral, ← hx] at hrounds
  exact ⟨htokens, hrounds⟩

def ReadsBack (mode : LineMode) (x : Binary64) : Prop :=
  let text := (Token.Value.number x).render
  let position := Position.reached mode text.toList
  tokenize mode text = .ok [⟨.number, text, .number x, position⟩, .eof position]

theorem readsBack {x : Binary64} (hfinite : x.isFinite) (hsign : x.isNegative = false)
    (mode : LineMode) : ReadsBack mode x := by
  have htokens := tokenize_of_reads mode (Lexeme.reads_text hfinite hsign)
  rwa [String.ofList_toList] at htokens

theorem FindsNumber.isNegative {token : Token} {x : Binary64} (h : FindsNumber token)
    (hvalue : token.value = .number x) : x.isNegative = false := by
  rcases h.exists_numeral with ⟨d, x', -, hvalue', hrounds⟩
  rw [hvalue] at hvalue'
  injection hvalue' with hx
  rw [hx]
  exact hrounds.positive

/--
The second part is a case of the first, as no scan finds a number with a sign.
-/
theorem number_readsBack :
    (∀ x : Binary64, x.isFinite → x.isNegative = false → ∀ mode, ReadsBack mode x ∧
      IsNumber (Token.Value.number x).render.toList ∧
      ∀ c ∈ (Token.Value.number x).render.toList, IsDigit c ∨ c = '.') ∧
    ∀ token x, FindsNumber token → token.value = .number x → x.isFinite →
      x.isNegative = false ∧ ∀ mode, ReadsBack mode x := by
  constructor
  . intro x hfinite hsign mode
    have hreads := Lexeme.reads_text hfinite hsign
    rcases hreads.exists_numeral with ⟨d, -, hnumeral, -, -⟩
    refine ⟨readsBack hfinite hsign mode, ⟨d, hnumeral⟩, ?_⟩
    intro c hc
    exact Lexeme.isDigit_or_eq_point_of_mem hnumeral hc
  . intro token x h hvalue hfinite
    have hsign := h.isNegative hvalue
    exact ⟨hsign, readsBack hfinite hsign⟩

theorem number_readsBack_extremes :
    ReadsBack .track ⟨1⟩ ∧ ReadsBack .track ⟨0x7FEFFFFFFFFFFFFF⟩ := by
  constructor
  . exact (number_readsBack.1 ⟨1⟩ (by decide) (by decide) .track).1
  . exact (number_readsBack.1 ⟨0x7FEFFFFFFFFFFFFF⟩ (by decide) (by decide) .track).1

end SketchLang.Scan
