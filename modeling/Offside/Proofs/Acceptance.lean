import Offside.Proofs.Completeness

/-!
# The parser accepts the grammar

The parser and the grammar agree on every list of tokens and on every program, for the limit
on nesting that the parser has (`parseTokens_eq_ok_iff`).
-/

namespace Offside

open Grammar

/-- The lexemes of a list of tokens. -/
def lexemesOf (tokens : List Token) : List Lexeme :=
  tokens.map Token.lexeme

/-- With so many levels a list of tokens is parsed as a program exactly if the grammar derives the
program from it within as many. -/
theorem parseWithin_eq_ok_iff {levels : Nat} {tokens : List Token} {p : Program} :
    parseWithin levels tokens = .ok p ↔ Derives levels (lexemesOf tokens) p := by
  constructor
  · intro h
    rw [parseWithin] at h
    split at h
    · next q s hrun =>
      cases h
      exact Parse.program_sound hrun
    · cases h
  · intro h
    obtain ⟨s, hs, -⟩ := Parse.takes_program h ⟨Stream.ofList tokens, #[], 0⟩ rfl
    rw [parseWithin, hs]

theorem parseTokens_ok {tokens : List Token} {p : Program} (h : parseTokens tokens = .ok p) :
    Derives maxNesting (lexemesOf tokens) p := by
  rwa [parseTokens_eq, parseWithin_eq_ok_iff] at h

theorem parseTokens_of_derives {tokens : List Token} {p : Program}
    (h : Derives maxNesting (lexemesOf tokens) p) : parseTokens tokens = .ok p := by
  rwa [parseTokens_eq, parseWithin_eq_ok_iff]

/-- A list of tokens is parsed as a program exactly if the grammar derives the program from
it within the limit on nesting. -/
theorem parseTokens_eq_ok_iff (tokens : List Token) (p : Program) :
    parseTokens tokens = .ok p ↔ Derives maxNesting (lexemesOf tokens) p :=
  ⟨parseTokens_ok, parseTokens_of_derives⟩

theorem parseSource_ok {source : String} {p : Program} (h : parseSource source = .ok p) :
    ∃ tokens, tokenize source = .ok tokens ∧ Derives maxNesting (lexemesOf tokens) p := by
  rw [parseSource] at h
  cases htokens : tokenize source with
  | ok tokens =>
    rw [htokens] at h
    exact ⟨tokens, rfl, parseTokens_ok h⟩
  | error d =>
    rw [htokens] at h
    cases h

theorem parseSource_of_derives {source : String} {tokens : List Token} {p : Program}
    (htokens : tokenize source = .ok tokens) (h : Derives maxNesting (lexemesOf tokens) p) :
    parseSource source = .ok p := by
  rw [parseSource, htokens]
  exact parseTokens_of_derives h

end Offside
