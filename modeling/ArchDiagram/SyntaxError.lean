import ArchDiagram.Token
import ArchDiagram.Text.Quoted

/-!
What can be wrong with the text of a diagram. An error names its cause and its place; the wording
is in `Cause.message` alone.
-/

namespace ArchDiagram

/-- The braces or brackets around the token that does not belong there. -/
inductive Region
  | diagramBody
  | packageBody
  | entityBody (kind : EntityKind)
  | relationAttributes
  | styleBlock
deriving DecidableEq, Repr

def Region.describe : Region → String
  | diagramBody => "diagram body"
  | packageBody => "package body"
  | entityBody kind => kind.word ++ " body"
  | relationAttributes => "relation attributes"
  | styleBlock => "style block"

def TokenKind.describe : TokenKind → String
  | identifier => "identifier"
  | string => "string"
  | number => "number"
  | color => "color"
  | endOfInput => "end of input"
  | kind => Text.quoted (kind.spelling?.getD "")

def Lexeme.describe (lexeme : Lexeme) : String :=
  match lexeme.kind with
  | .endOfInput => "end of input"
  | .string => "string " ++ Text.quoted lexeme.text
  | _ => Text.quoted lexeme.text

namespace SyntaxError

/-- Why a text is not a diagram. The first three causes are found while the text is split into
tokens, the others while the tokens are put together. -/
inductive Cause
  | unexpectedCharacter (c : Char)
  | unterminatedComment
  | unterminatedString
  | expected (wanted : TokenKind) (found : Lexeme)
  | expectedName (found : Lexeme)
  | expectedEntityKind (found : Lexeme)
  | expectedStereotypeClose (found : Lexeme)
  | expectedType (found : Lexeme)
  | expectedLiteral (found : Lexeme)
  | unknownDiagramKind (text : String)
  | unexpectedAtTopLevel (text : String)
  | unexpectedIn (region : Region) (text : String)
  | nestingTooDeep
deriving DecidableEq, Repr

def Cause.message : Cause → String
  | unexpectedCharacter c => "Unexpected character " ++ Text.quoted (String.singleton c)
  | unterminatedComment => "Unterminated block comment"
  | unterminatedString => "Unterminated string literal"
  | expected wanted found => "Expected " ++ wanted.describe ++ ", got " ++ found.describe
  | expectedName found => "Expected identifier, got " ++ found.describe
  | expectedEntityKind found => "Expected entity kind after modifiers, got " ++ found.describe
  | expectedStereotypeClose found => "Expected '>>', got " ++ found.describe
  | expectedType found => "Expected type expression, got " ++ found.describe
  | expectedLiteral found => "Expected literal value, got " ++ found.describe
  | unknownDiagramKind text => "Unknown diagram kind " ++ Text.quoted text
  | unexpectedAtTopLevel text => "Unexpected token " ++ Text.quoted text ++ " at top level"
  | unexpectedIn region text => "Unexpected token " ++ Text.quoted text ++ " in " ++ region.describe
  | nestingTooDeep => "Nesting too deep"

end SyntaxError

structure SyntaxError where
  cause : SyntaxError.Cause
  position : Position
deriving DecidableEq, Repr

def SyntaxError.message (error : SyntaxError) : String := error.cause.message

end ArchDiagram
