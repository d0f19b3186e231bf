import ArchDiagram.Vocabulary

/-!
Tokens of the diagram language. A kind carries the word or operator that it stands for, so a kind
with a fixed spelling determines its text; the remaining kinds are classes of texts.
-/

namespace ArchDiagram

/-- The reserved words. Those that name an entity kind, a modifier or a built-in type say which. -/
inductive Keyword
  | diagram
  | package
  | importWord
  | note
  | style
  | onWord
  | extendsWord
  | implementsWord
  | atWord
  | forWord
  | sequence
  | flow
  | deployment
  | entity (kind : EntityKind)
  | modifier (word : Modifier)
  | builtin (type : BuiltinType)
deriving DecidableEq, Repr

namespace Keyword

def all : List Keyword :=
  [diagram, package, importWord, note, style, onWord, extendsWord, implementsWord, atWord, forWord,
   sequence, flow, deployment]
    ++ EntityKind.all.map entity ++ Modifier.all.map modifier ++ BuiltinType.all.map builtin

def word : Keyword → String
  | diagram => "diagram"
  | package => "package"
  | importWord => "import"
  | note => "note"
  | style => "style"
  | onWord => "on"
  | extendsWord => "extends"
  | implementsWord => "implements"
  | atWord => "at"
  | forWord => "for"
  | sequence => "sequence"
  | flow => "flow"
  | deployment => "deployment"
  | entity kind => kind.word
  | modifier word => word.word
  | builtin type => type.word

def ofWord? (text : String) : Option Keyword := all.find? (·.word = text)

end Keyword

inductive Mark
  | leftBrace
  | rightBrace
  | leftParen
  | rightParen
  | leftBracket
  | rightBracket
  | comma
  | colon
  | semicolon
  | dot
  | atSign
  | equals
  | pipe
  | plus
  | minus
  | hash
  | tilde
  | less
  | greater
  | question
deriving DecidableEq, Repr

namespace Mark

def all : List Mark :=
  [leftBrace, rightBrace, leftParen, rightParen, leftBracket, rightBracket, comma, colon, semicolon,
   dot, atSign, equals, pipe, plus, minus, hash, tilde, less, greater, question]

def char : Mark → Char
  | leftBrace => '{'
  | rightBrace => '}'
  | leftParen => '('
  | rightParen => ')'
  | leftBracket => '['
  | rightBracket => ']'
  | comma => ','
  | colon => ':'
  | semicolon => ';'
  | dot => '.'
  | atSign => '@'
  | equals => '='
  | pipe => '|'
  | plus => '+'
  | minus => '-'
  | hash => '#'
  | tilde => '~'
  | less => '<'
  | greater => '>'
  | question => '?'

def ofChar? (c : Char) : Option Mark := all.find? (·.char = c)

end Mark

inductive TokenKind
  | keyword (word : Keyword)
  | relation (operator : RelationOperator)
  | stereotypeOpen
  | dots
  | mark (sign : Mark)
  | string
  | number
  | color
  | identifier
  | endOfInput
deriving DecidableEq, Repr

namespace TokenKind

def spelling? : TokenKind → Option String
  | keyword word => some word.word
  | relation operator => some operator.symbol
  | stereotypeOpen => some "<<"
  | dots => some ".."
  | mark sign => some (String.singleton sign.char)
  | string | number | color | identifier | endOfInput => none

/-- Identifiers and keywords can name members, parameters and attributes. -/
def isName : TokenKind → Bool
  | identifier | keyword _ => true
  | _ => false

def isRelation : TokenKind → Bool
  | relation _ => true
  | _ => false

end TokenKind

/-- What a token says, apart from where it stands: its kind and its text. The text of a string is
its content, with the escapes replaced. -/
structure Lexeme where
  kind : TokenKind
  text : String
deriving DecidableEq, Repr

/-- A place in a source: an offset counted from 0, a line and a column counted from 1, all of them
in characters. -/
structure Position where
  offset : Nat
  line : Nat
  column : Nat
deriving DecidableEq, Repr

namespace Position

def start : Position := ⟨0, 1, 1⟩

/-- The place behind one more character. Only a line feed begins a line. -/
def next (position : Position) (c : Char) : Position :=
  if c = '\n' then ⟨position.offset + 1, position.line + 1, 1⟩
  else ⟨position.offset + 1, position.line, position.column + 1⟩

def after (position : Position) (text : List Char) : Position := text.foldl next position

end Position

structure Token extends Lexeme where
  position : Position
  stop : Nat
deriving DecidableEq, Repr

end ArchDiagram
