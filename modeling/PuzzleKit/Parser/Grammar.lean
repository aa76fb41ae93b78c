import PuzzleKit.Parser.Grapheme
import PuzzleKit.Parser.Numeral
import PuzzleKit.Parser.Recursion

/-!
# Grammars

A grammar is a parser written down as data: the primitives, the combinators, and parsers that may
refer to themselves. A `lazy` grammar binds a name for the parser that it describes; the names in
scope are counted from the innermost one outwards, each with the type of its values.

`Grammar.parser` gives every grammar its parser. No condition on the references is needed for that:
a reference that nothing was read before is unfolded no further than the text is long.
-/

set_option autoImplicit false

namespace PuzzleKit

/-- A name in scope, and the type of the values that the parser of that name reads. -/
inductive Name : List Type → Type → Type 1 where
  | innermost {α : Type} {scope : List Type} : Name (α :: scope) α
  | outer {α β : Type} {scope : List Type} (name : Name scope α) : Name (β :: scope) α

inductive Primitive : Type → Type 1 where
  | item : Primitive Char
  | grapheme : Primitive String
  | endOfInput : Primitive Unit
  | satisfy (accepts : Char → Bool) : Primitive Char
  | character (expected : Char) : Primitive Char
  | string (target : String) : Primitive String
  | newline : Primitive Char
  | endOfLine : Primitive Unit
  | whitespace : Primitive String
  | digit : Primitive UInt32
  | natural : Primitive UInt64
  | integer : Primitive Int64
  | double : Primitive Float
  | boolean : Primitive Bool
  | succeed {α : Type} (value : α) : Primitive α
  | fail {α : Type} : Primitive α
  | custom {α : Type} (parser : Parser α) : Primitive α

namespace Primitive

def parser {α : Type} : Primitive α → Parser α
  | item => Parser.item
  | grapheme => Parser.grapheme
  | endOfInput => Parser.endOfInput
  | satisfy accepts => Parser.satisfy accepts
  | character expected => Parser.character expected
  | string target => Parser.string target
  | newline => Parser.newline
  | endOfLine => Parser.endOfLine
  | whitespace => Parser.whitespace
  | digit => Parser.digit
  | natural => Parser.natural
  | integer => Parser.integer
  | double => Parser.double
  | boolean => Parser.boolean
  | succeed value => Parser.succeed value
  | fail => Parser.fail
  | custom parser => parser

end Primitive

/-- A grammar whose references are names in `scope`, for values of the given type. -/
inductive Grammar : List Type → Type → Type 1 where
  | primitive {scope : List Type} {α : Type} (leaf : Primitive α) : Grammar scope α
  | reference {scope : List Type} {α : Type} (name : Name scope α) : Grammar scope α
  | lazy {scope : List Type} {α : Type} (body : Grammar (α :: scope) α) : Grammar scope α
  | map {scope : List Type} {α β : Type} (grammar : Grammar scope α) (transform : α → β) :
      Grammar scope β
  | filterMap {scope : List Type} {α β : Type} (grammar : Grammar scope α)
      (transform : α → Option β) : Grammar scope β
  | bind {scope : List Type} {α β : Type} (grammar : Grammar scope α)
      (next : α → Grammar scope β) : Grammar scope β
  | orElse {scope : List Type} {α : Type} (first second : Grammar scope α) : Grammar scope α
  | firstOf {scope : List Type} {α : Type} (count : Nat) (choice : Fin count → Grammar scope α) :
      Grammar scope α
  | optional {scope : List Type} {α : Type} (grammar : Grammar scope α) : Grammar scope (Option α)
  | pair {scope : List Type} {α β : Type} (first : Grammar scope α) (second : Grammar scope β) :
      Grammar scope (α × β)
  | seqLeft {scope : List Type} {α β : Type} (first : Grammar scope α)
      (second : Grammar scope β) : Grammar scope α
  | seqRight {scope : List Type} {α β : Type} (first : Grammar scope α)
      (second : Grammar scope β) : Grammar scope β
  | many {scope : List Type} {α : Type} (grammar : Grammar scope α) : Grammar scope (List α)
  | sepBy {scope : List Type} {α β : Type} (item : Grammar scope α)
      (separator : Grammar scope β) : Grammar scope (List α)

def Environment (scope : List Type) : Type 1 :=
  (α : Type) → Name scope α → Parser α

namespace Environment

def empty : Environment [] :=
  fun _ name => nomatch name

def bind {α : Type} {scope : List Type} (parser : Parser α) (environment : Environment scope) :
    Environment (α :: scope) :=
  fun _ name =>
    match name with
    | .innermost => parser
    | .outer name => environment _ name

end Environment

namespace Grammar

/-- The parser that a grammar describes when the names in scope stand for the given parsers. -/
def parser {scope : List Type} {α : Type} :
    Grammar scope α → Environment scope → Parser α
  | primitive leaf, _ => leaf.parser
  | reference name, environment => environment _ name
  | lazy body, environment =>
      Parser.recursive fun itself => body.parser (environment.bind itself)
  | map grammar transform, environment => (grammar.parser environment).map transform
  | filterMap grammar transform, environment => (grammar.parser environment).filterMap transform
  | bind grammar next, environment =>
      (grammar.parser environment).bind fun value => (next value).parser environment
  | orElse first second, environment =>
      (first.parser environment).orElse (second.parser environment)
  | firstOf _ choice, environment =>
      Parser.firstOf (List.ofFn fun index => (choice index).parser environment)
  | optional grammar, environment => (grammar.parser environment).optional
  | pair first second, environment =>
      (first.parser environment).pair (second.parser environment)
  | seqLeft first second, environment =>
      (first.parser environment).seqLeft (second.parser environment)
  | seqRight first second, environment =>
      (first.parser environment).seqRight (second.parser environment)
  | many grammar, environment => (grammar.parser environment).many
  | sepBy item separator, environment =>
      (item.parser environment).sepBy (separator.parser environment)

/-- The parser of a grammar without references to names outside of it. -/
def toParser {α : Type} (grammar : Grammar [] α) : Parser α :=
  grammar.parser Environment.empty

variable {scope : List Type} {α : Type}

def many1 (grammar : Grammar scope α) : Grammar scope (List α) :=
  .filterMap (.many grammar) fun values => if values.isEmpty then none else some values

def lines (grammar : Grammar scope α) : Grammar scope (List α) :=
  .many (.seqLeft grammar (.primitive .endOfLine))

theorem parser_many1 (grammar : Grammar scope α) (environment : Environment scope) :
    grammar.many1.parser environment = (grammar.parser environment).many1 :=
  rfl

theorem parser_lines (grammar : Grammar scope α) (environment : Environment scope) :
    grammar.lines.parser environment = (grammar.parser environment).lines :=
  rfl

end Grammar

end PuzzleKit
