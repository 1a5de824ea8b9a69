import Rulebook.Expr.Basic
import Rulebook.Number.Decimal
import Rulebook.Text.Position

/-!
# Tokens

Tokens of the rule language: what a text consists of, blanks and comments left out.
-/

namespace Rulebook

open Text (Quotable Position)

/-- Words with a meaning of their own, which are no names. -/
inductive Keyword where
  | rule
  | whenWord
  | thenWord
  | salience
  | trueWord
  | falseWord
  | nullWord
deriving DecidableEq, Repr

namespace Keyword

def text : Keyword → String
  | rule => "rule"
  | whenWord => "when"
  | thenWord => "then"
  | salience => "salience"
  | trueWord => "true"
  | falseWord => "false"
  | nullWord => "null"

def all : List Keyword :=
  [rule, whenWord, thenWord, salience, trueWord, falseWord, nullWord]

def ofText? (word : String) : Option Keyword :=
  all.find? fun keyword => keyword.text == word

theorem ofText?_text (keyword : Keyword) : ofText? keyword.text = some keyword := by
  cases keyword <;> decide

end Keyword

/-- Signs that join, group and separate. -/
inductive Symbol where
  | and
  | or
  | equal
  | notEqual
  | lessEqual
  | greaterEqual
  | less
  | greater
  | plus
  | minus
  | times
  | divide
  | assign
  | not
  | dot
  | openBracket
  | closeBracket
  | openParenthesis
  | closeParenthesis
  | openBrace
  | closeBrace
  | semicolon
deriving DecidableEq, Repr

namespace Symbol

def text : Symbol → String
  | and => "&&"
  | or => "||"
  | equal => "=="
  | notEqual => "!="
  | lessEqual => "<="
  | greaterEqual => ">="
  | less => "<"
  | greater => ">"
  | plus => "+"
  | minus => "-"
  | times => "*"
  | divide => "/"
  | assign => "="
  | not => "!"
  | dot => "."
  | openBracket => "["
  | closeBracket => "]"
  | openParenthesis => "("
  | closeParenthesis => ")"
  | openBrace => "\x7b"
  | closeBrace => "\x7d"
  | semicolon => ";"

def binary? : Symbol → Option BinaryOp
  | and => some .and
  | or => some .or
  | equal => some .equal
  | notEqual => some .notEqual
  | lessEqual => some (.comparison .lessEqual)
  | greaterEqual => some (.comparison .greaterEqual)
  | less => some (.comparison .less)
  | greater => some (.comparison .greater)
  | plus => some (.arithmetic .add)
  | minus => some (.arithmetic .subtract)
  | times => some (.arithmetic .multiply)
  | divide => some (.arithmetic .divide)
  | _ => none

theorem text_eq_sign {symbol : Symbol} {op : BinaryOp} (operator : symbol.binary? = some op) :
    symbol.text = op.sign := by
  cases symbol <;> simp_all [binary?, text] <;> subst operator <;> rfl

/-- The symbol that a text begins with, the longer one of two. -/
def atStart? : List Char → Option Symbol
  | '&' :: '&' :: _ => some and
  | '|' :: '|' :: _ => some or
  | '=' :: '=' :: _ => some equal
  | '!' :: '=' :: _ => some notEqual
  | '<' :: '=' :: _ => some lessEqual
  | '>' :: '=' :: _ => some greaterEqual
  | '<' :: _ => some less
  | '>' :: _ => some greater
  | '+' :: _ => some plus
  | '-' :: _ => some minus
  | '*' :: _ => some times
  | '/' :: _ => some divide
  | '=' :: _ => some assign
  | '!' :: _ => some not
  | '.' :: _ => some dot
  | '[' :: _ => some openBracket
  | ']' :: _ => some closeBracket
  | '(' :: _ => some openParenthesis
  | ')' :: _ => some closeParenthesis
  | '{' :: _ => some openBrace
  | '}' :: _ => some closeBrace
  | ';' :: _ => some semicolon
  | _ => none

end Symbol

/-- A written number: its digits, with those behind a point if there is one. -/
structure Numeral where
  whole : List Char
  fraction : Option (List Char)
deriving DecidableEq, Repr

namespace Numeral

def chars (numeral : Numeral) : List Char :=
  match numeral.fraction with
  | none => numeral.whole
  | some fraction => numeral.whole ++ '.' :: fraction

def decimal (numeral : Numeral) : Number.Decimal :=
  let fraction := numeral.fraction.getD []
  ⟨Text.digitsValue (numeral.whole ++ fraction), -(fraction.length : Int)⟩

/-- The floating-point number nearest to the decimal that is written. -/
def toFloat (numeral : Numeral) : Float :=
  numeral.decimal.toFloat false

/-- The natural number that is written, where there is no point. -/
def natural? (numeral : Numeral) : Option Nat :=
  match numeral.fraction with
  | none => some (Text.digitsValue numeral.whole)
  | some _ => none

/-- Whether a number without a point has more digits than an integer is read from. -/
def isOverlong (numeral : Numeral) : Bool :=
  numeral.fraction.isNone && Number.digitBound < numeral.whole.length

/-- The natural number that is read: the one that is written, unless it has too many digits. -/
def toNat? (numeral : Numeral) : Option Nat :=
  if numeral.isOverlong then none else numeral.natural?

theorem toNat?_eq_some_iff {numeral : Numeral} {n : Nat} :
    numeral.toNat? = some n ↔ numeral.natural? = some n ∧ numeral.isOverlong = false := by
  cases long : numeral.isOverlong <;> simp [toNat?, long]

end Numeral

/-- Why no token can be read. -/
inductive LexicalFault where
  | unexpectedCharacter (c : Char)
  | openComment
  | openString
deriving DecidableEq, Repr

def LexicalFault.text : LexicalFault → String
  | unexpectedCharacter c => "Unexpected character '" ++ String.singleton c ++ "'"
  | openComment => "Unterminated block comment"
  | openString => "Unterminated string literal"

/-- What a token is. A place where no token can be read has a malformed one, in a scan that goes
on behind faults. -/
inductive Lexeme where
  | name (text : String)
  | keyword (keyword : Keyword)
  | number (numeral : Numeral)
  | string (text : Quotable)
  | symbol (symbol : Symbol)
  | malformed (fault : LexicalFault)
deriving DecidableEq

namespace Lexeme

def className : Lexeme → String
  | name _ => "identifier"
  | keyword _ => "keyword"
  | number _ => "number"
  | string _ => "string"
  | symbol _ => "operator"
  | malformed _ => "error"

/-- What a lexeme says: its spelling, but for a string the text between the quotes. -/
def text : Lexeme → String
  | name word => word
  | keyword word => word.text
  | number numeral => String.ofList numeral.chars
  | string quotable => quotable.text
  | symbol sign => sign.text
  | malformed fault => fault.text

def describe (lexeme : Lexeme) : String :=
  match lexeme with
  | string quotable => "string \"" ++ quotable.text ++ "\""
  | _ => "'" ++ lexeme.text ++ "'"

end Lexeme

/-- What messages say about the token that was found, or about the end of the text. -/
def describeFound : Option Lexeme → String
  | none => "end of input"
  | some lexeme => lexeme.describe

/-- A lexeme with the place where it begins. -/
structure Token where
  lexeme : Lexeme
  place : Position
deriving DecidableEq

end Rulebook
