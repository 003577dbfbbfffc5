/-!
# Lexical tokens of Java

Keywords are words: whether a word is a keyword depends on where it stands, so
the lexer does not decide it.
-/

namespace ImportAudit.Java

inductive Lexeme
  | word
  | number
  | character
  /-- An opening or closing delimiter of a string or a text block. -/
  | quote
  /-- Literal text or an escape inside a string. -/
  | fragment
  /-- The opening or closing mark of an expression inside a string. -/
  | splice
  | symbol
  | comment
  /-- A character that starts no token. -/
  | stray
  | finish
  deriving DecidableEq, Repr, Inhabited

structure Token where
  lexeme : Lexeme
  text : String
  line : Nat
  place : Nat
  deriving DecidableEq, Repr, Inhabited

end ImportAudit.Java
