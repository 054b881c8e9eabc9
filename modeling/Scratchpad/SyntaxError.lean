import Scratchpad.Token.Layout
import Scratchpad.Tree

/-! Why a text is not a program, or a tree cannot be compiled. -/
namespace Scratchpad

/-- What should have stood where something else was found. -/
inductive Expected where
  | token (t : Token)
  | expression
  | statement
  | identifier
  | indentedBlock
  | dedent

def Expected.text : Expected → String
  | .token t => "expected " ++ t.describe
  | .expression => "expected an expression"
  | .statement => "expected a statement"
  | .identifier => "expected identifier"
  | .indentedBlock => "expected an indented block"
  | .dedent => "expected a dedent"

/-- What nests too deeply. -/
inductive Nesting where
  | parentheses | unaryOperators | exponents | blocks | nodes
deriving Repr, DecidableEq

def Nesting.text : Nesting → String
  | .parentheses => "parentheses"
  | .unaryOperators => "unary operators"
  | .exponents => "exponents"
  | .blocks => "blocks"
  | .nodes => "nodes"

/-- A violation of the grammar. Labels are what messages call a node. -/
inductive Violation where
  | leftover
  | unexpectedIndent
  | missing (what : Expected) (found : Option Token)
  | tooNested (what : Nesting)
  /-- The parser went on for longer than the tokens can make it. -/
  | unending
  | illegalAugmentedTarget (label : String)
  | illegalTarget (label : String)
  | duplicateParameter (name : String)
  | keywordArgument
  | setLiteral
  | notExpression (label : String)
  | notStatement (label : String)
  | wrongRoot (root : String) (mode : Mode)
  | danglingNode (id : NodeId)
  | cyclicNode
  | cyclicElif
  | noTarget
  | returnOutsideFunction
  | breakOutsideLoop
  | continueOutsideLoop
  | parameterAndGlobal (name : String)
  | malformedComparison
  | emptyBoolean
  | mismatchedDict

/-- What is wrong in particular; a leftover says nothing more. -/
def Violation.detail? : Violation → Option String
  | .leftover => none
  | .unexpectedIndent => some "unexpected indent"
  | .missing what found => some (what.text ++ ", found " ++
      match found with
      | some t => t.describe
      | none => "end of input")
  | .tooNested what => some ("too many nested " ++ what.text)
  | .unending => some "no end"
  | .illegalAugmentedTarget label =>
    some ("'" ++ label ++ "' is an illegal expression for augmented assignment")
  | .illegalTarget label => some ("cannot assign to " ++ label)
  | .duplicateParameter name => some ("duplicate argument '" ++ name ++ "' in function definition")
  | .keywordArgument => some "keyword arguments are not supported"
  | .setLiteral => some "set literals are not supported"
  | .notExpression label => some ("expected an expression, found " ++ label)
  | .notStatement label => some ("expected a statement, found " ++ label)
  | .wrongRoot root mode => some ("cannot compile a " ++ root ++ " tree in '" ++ mode.name ++ "' mode")
  | .danglingNode id => some ("dangling node reference #" ++ toString id)
  | .cyclicNode => some "cyclic node reference"
  | .cyclicElif => some "cyclic 'elif' chain"
  | .noTarget => some "assignment without a target"
  | .returnOutsideFunction => some "'return' outside function"
  | .breakOutsideLoop => some "'break' outside loop"
  | .continueOutsideLoop => some "'continue' not properly in loop"
  | .parameterAndGlobal name => some ("name '" ++ name ++ "' is parameter and global")
  | .malformedComparison => some "malformed comparison"
  | .emptyBoolean => some "boolean operation without operands"
  | .mismatchedDict => some "dict literal with mismatched keys and values"

inductive SyntaxError where
  | lexical (e : Token.LexError)
  | invalid (violation : Violation) (span : Option Span)
  | multipleStatements (span : Span)

def SyntaxError.span? : SyntaxError → Option Span
  | .lexical e => some e.span
  | .invalid _ span => span
  | .multipleStatements span => some span

def SyntaxError.message : SyntaxError → String
  | .lexical e => e.message
  | .invalid violation _ =>
    match violation.detail? with
    | some detail => "invalid syntax: " ++ detail
    | none => "invalid syntax"
  | .multipleStatements _ => "multiple statements found while compiling a single statement"

end Scratchpad
