/- digest: The tokens of the screen language and the scan for the token at the start of a text. -/

import ScreenStudio.Number.Notation
import ScreenStudio.Number.Reading
import ScreenStudio.Source.Position

/-!
A token is a comment, a number, a quoted text, a word or a symbol. `scan` finds the token with which
a text starts, together with the characters it covers and what follows them. Comments are tried
first, so that two slashes are no symbols; of two symbols the longer one is taken. Words are made of
ASCII letters, digits, the underscore and the dollar sign. A number is an integer without leading
zero and an optional point with at least one digit behind it; signs belong to expressions.
-/

set_option autoImplicit false
set_option relaxedAutoImplicit false

namespace ScreenStudio.Source

inductive Symbol
  | roundOpen
  | roundClose
  | curlyOpen
  | curlyClose
  | squareOpen
  | squareClose
  | strictEqual
  | strictNotEqual
  | looseEqual
  | looseNotEqual
  | arrow
  | lessOrEqual
  | greaterOrEqual
  | and
  | or
  | less
  | greater
  | not
  | assign
  | plus
  | minus
  | asterisk
  | slash
  | percent
  | comma
  | colon
  | semicolon
  | dot
  | question
  deriving DecidableEq, Repr

/-- Words with a meaning of their own. -/
inductive Keyword
  | letBinding
  | constBinding
  | ifBranch
  | elseBranch
  | returnValue
  | trueValue
  | falseValue
  | nullValue
  deriving DecidableEq, Repr

/-- A token. A text keeps its escapes and lacks its quotes; a comment keeps its marks. -/
inductive Token
  | comment (text : String)
  | number (value : Float)
  | text (raw : String)
  | name (name : String)
  | keyword (keyword : Keyword)
  | symbol (symbol : Symbol)
  deriving DecidableEq

def Symbol.spelling : Symbol → List Char
  | .roundOpen => ['(']
  | .roundClose => [')']
  | .curlyOpen => ['{']
  | .curlyClose => ['}']
  | .squareOpen => ['[']
  | .squareClose => [']']
  | .strictEqual => ['=', '=', '=']
  | .strictNotEqual => ['!', '=', '=']
  | .looseEqual => ['=', '=']
  | .looseNotEqual => ['!', '=']
  | .arrow => ['=', '>']
  | .lessOrEqual => ['<', '=']
  | .greaterOrEqual => ['>', '=']
  | .and => ['&', '&']
  | .or => ['|', '|']
  | .less => ['<']
  | .greater => ['>']
  | .not => ['!']
  | .assign => ['=']
  | .plus => ['+']
  | .minus => ['-']
  | .asterisk => ['*']
  | .slash => ['/']
  | .percent => ['%']
  | .comma => [',']
  | .colon => [':']
  | .semicolon => [';']
  | .dot => ['.']
  | .question => ['?']

/-- All symbols, each before those that are a beginning of it. -/
def Symbol.all : List Symbol :=
  [.roundOpen, .roundClose, .curlyOpen, .curlyClose, .squareOpen, .squareClose, .strictEqual,
    .strictNotEqual, .looseEqual, .looseNotEqual, .arrow, .lessOrEqual, .greaterOrEqual, .and, .or,
    .less, .greater, .not, .assign, .plus, .minus, .asterisk, .slash, .percent, .comma, .colon,
    .semicolon, .dot, .question]

def Keyword.spelling : Keyword → String
  | .letBinding => "let"
  | .constBinding => "const"
  | .ifBranch => "if"
  | .elseBranch => "else"
  | .returnValue => "return"
  | .trueValue => "true"
  | .falseValue => "false"
  | .nullValue => "null"

/-- The keyword that a word is. The word for a missing value means the same as null. -/
def Keyword.ofWord? (word : String) : Option Keyword :=
  match word with
  | "let" => some .letBinding
  | "const" => some .constBinding
  | "if" => some .ifBranch
  | "else" => some .elseBranch
  | "return" => some .returnValue
  | "true" => some .trueValue
  | "false" => some .falseValue
  | "null" => some .nullValue
  | "undefined" => some .nullValue
  | _ => none

def Token.shown : Token → String
  | .comment content => content
  | .number value => Number.literalText value
  | .text raw => "'" ++ raw ++ "'"
  | .name word => word
  | .keyword reserved => reserved.spelling
  | .symbol mark => String.ofList mark.spelling

def Token.isComment : Token → Bool
  | .comment _ => true
  | _ => false

/-- A token, the characters it covers and what follows them. -/
structure Scan where
  token : Token
  lexeme : List Char
  rest : List Char

def isLineEnd (c : Char) : Bool :=
  c == '\n' || c == '\r' || c == '\x0b' || c == '\x0c' || c == '\u0085' || c == '\u2028' ||
    c == '\u2029'

/-- A character with which a word can start. -/
def isWordStart (c : Char) : Bool := c.isAlpha || c == '_' || c == '$'

def isWordPart (c : Char) : Bool := c.isAlphanum || c == '_' || c == '$'

/-- Split behind the first end mark of a block comment. -/
def blockEnd? : List Char → Option (List Char × List Char)
  | '*' :: '/' :: rest => some (['*', '/'], rest)
  | c :: rest => (blockEnd? rest).map (fun split => (c :: split.1, split.2))
  | [] => none

/-- Split at the first `quote` that no backslash precedes; the quote is in neither part. -/
def quoteEnd? (quote : Char) : List Char → Option (List Char × List Char)
  | [] => none
  | '\\' :: c :: rest => (quoteEnd? quote rest).map (fun split => ('\\' :: c :: split.1, split.2))
  | c :: rest =>
    if c = quote then some ([], rest)
    else if c = '\\' then none
    else (quoteEnd? quote rest).map (fun split => (c :: split.1, split.2))

/-- A comment to the end of the line, or between its two marks. -/
def scanComment? : List Char → Option Scan
  | '/' :: '/' :: rest =>
    let lexeme := '/' :: '/' :: rest.takeWhile (fun c => !isLineEnd c)
    some ⟨.comment (String.ofList lexeme), lexeme, rest.dropWhile (fun c => !isLineEnd c)⟩
  | '/' :: '*' :: rest =>
    (blockEnd? rest).map (fun split =>
      ⟨.comment (String.ofList ('/' :: '*' :: split.1)), '/' :: '*' :: split.1, split.2⟩)
  | _ => none

/-- The digits of an integer without leading zero, and what follows. -/
def wholeDigits : List Char → List Char × List Char
  | '0' :: rest => (['0'], rest)
  | cs => (cs.takeWhile Number.isDigit, cs.dropWhile Number.isDigit)

def scanNumber? (cs : List Char) : Option Scan :=
  match wholeDigits cs with
  | ([], _) => none
  | (whole, '.' :: more) =>
    match more.takeWhile Number.isDigit with
    | [] => some ⟨.number (Number.ofPlainDigits whole), whole, '.' :: more⟩
    | fraction =>
      let lexeme := whole ++ '.' :: fraction
      some ⟨.number (Number.ofPlainDigits lexeme), lexeme, more.dropWhile Number.isDigit⟩
  | (whole, rest) => some ⟨.number (Number.ofPlainDigits whole), whole, rest⟩

def scanText? : List Char → Option Scan
  | quote :: rest =>
    if quote = '\'' || quote = '"' then
      (quoteEnd? quote rest).map (fun split =>
        ⟨.text (String.ofList split.1), quote :: (split.1 ++ [quote]), split.2⟩)
    else none
  | [] => none

def Token.ofWord (word : String) : Token :=
  match Keyword.ofWord? word with
  | some reserved => .keyword reserved
  | none => .name word

def scanWord? : List Char → Option Scan
  | c :: rest =>
    if isWordStart c then
      let lexeme := c :: rest.takeWhile isWordPart
      some ⟨.ofWord (String.ofList lexeme), lexeme, rest.dropWhile isWordPart⟩
    else none
  | [] => none

/-- What follows `start` in a text that starts with it. -/
def dropStart? : List Char → List Char → Option (List Char)
  | [], cs => some cs
  | s :: start, c :: cs => if s = c then dropStart? start cs else none
  | _ :: _, [] => none

/-- The first symbol of the list with which the text starts. -/
def scanSymbol? (cs : List Char) : Option Scan :=
  Symbol.all.findSome? (fun symbol =>
    (dropStart? symbol.spelling cs).map (fun rest => ⟨.symbol symbol, symbol.spelling, rest⟩))

def scan? (cs : List Char) : Option Scan :=
  scanComment? cs <|> scanNumber? cs <|> scanText? cs <|> scanWord? cs <|> scanSymbol? cs

end ScreenStudio.Source
