import Clavier.Text.Basic

/-!
# Words with quotes

The argument of a command that takes a path is split into words the way a shell
does it. Spaces, tabs and line ends separate words. Single quotes keep everything
between them. Double quotes do the same, except that a backslash in front of a
double quote or a backslash stands for that character. Outside quotes a backslash
keeps the next character.
-/

set_option autoImplicit false

namespace Clavier.Text

/-- Why a text cannot be split into words. -/
inductive QuotingDefect where
  | unclosedQuote
  | nothingEscaped
  deriving DecidableEq

/-- The sentence that names a quoting defect. -/
def QuotingDefect.message : QuotingDefect → Text
  | .unclosedQuote => "No closing quotation".toList
  | .nothingEscaped => "No escaped character".toList

/-- What surrounds the next character. An escape remembers the quote it stands in. -/
inductive QuotingMode where
  | between
  | word
  | quoted (quote : Char)
  | escaped (quote : Option Char)

/-- A character that separates words. -/
def isWordSeparator (c : Char) : Bool := c = ' ' || c = '\t' || c = '\r' || c = '\n'

/-- A character that opens a quoted stretch. -/
def isQuote (c : Char) : Bool := c = '\x27' || c = '"'

/-- The words of a text, after the characters already read of the first one. -/
def shellWordsFrom : QuotingMode → Text → Text → Except QuotingDefect (List Text)
  | .between, _, [] => .ok []
  | .word, word, [] => .ok [word]
  | .quoted _, _, [] => .error .unclosedQuote
  | .escaped _, _, [] => .error .nothingEscaped
  | .between, _, c :: rest =>
      if isWordSeparator c then shellWordsFrom .between [] rest
      else if c = '\\' then shellWordsFrom (.escaped none) [] rest
      else if isQuote c then shellWordsFrom (.quoted c) [] rest
      else shellWordsFrom .word [c] rest
  | .word, word, c :: rest =>
      if isWordSeparator c then (shellWordsFrom .between [] rest).map (word :: ·)
      else if c = '\\' then shellWordsFrom (.escaped none) word rest
      else if isQuote c then shellWordsFrom (.quoted c) word rest
      else shellWordsFrom .word (word ++ [c]) rest
  | .quoted quote, word, c :: rest =>
      if c = quote then shellWordsFrom .word word rest
      else if c = '\\' && quote = '"' then shellWordsFrom (.escaped (some quote)) word rest
      else shellWordsFrom (.quoted quote) (word ++ [c]) rest
  | .escaped none, word, c :: rest => shellWordsFrom .word (word ++ [c]) rest
  | .escaped (some quote), word, c :: rest =>
      if c = '\\' || c = quote then shellWordsFrom (.quoted quote) (word ++ [c]) rest
      else shellWordsFrom (.quoted quote) (word ++ ['\\', c]) rest

/-- The words of a text, quotes and escapes removed. -/
def shellWords (text : Text) : Except QuotingDefect (List Text) :=
  shellWordsFrom .between [] text

end Clavier.Text
