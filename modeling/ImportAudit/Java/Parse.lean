import ImportAudit.Java.Lexer
import ImportAudit.Java.Rule.Types
import ImportAudit.Java.Rule.Expressions
import ImportAudit.Java.Rule.Statements
import ImportAudit.Java.Rule.Declarations

/-!
# From source text to a tree

Every source has a tree. A source that does not fit the grammar has a tree with a mark in it:
`missing` where putting one closing token would let the parse go on, else `error` at the
first token that cannot be taken.
-/

namespace ImportAudit.Java

def Rule.body : Rule → Production
  | .program => programRule
  | .name => nameRule
  | .annotationUse => annotationRule
  | .annotationArguments => annotationArgumentsRule
  | .elementValue => elementValueRule
  | .modifiers => modifiersRule
  | .type => typeRule
  | .unannotatedType => unannotatedTypeRule
  | .simpleType => simpleTypeRule
  | .typeArguments => typeArgumentsRule
  | .dimensions => dimensionsRule
  | .typeParameters => typeParametersRule
  | .expression label => expressionRule label
  | .binary level label => binaryRule level label
  | .unary label => unaryRule label
  | .primary => primaryRule
  | .lambda label => lambdaRule label
  | .cast label => castRule label
  | .typeOperand => typeOperandRule
  | .creation => creationRule
  | .arguments => argumentsRule
  | .arrayInitializer => arrayInitializerRule
  | .switchExpression => switchExpressionRule
  | .switchLabel => switchLabelRule
  | .recordPattern => recordPatternRule
  | .stringLiteral => stringLiteralRule
  | .parenthesized => parenthesizedRule
  | .statement => statementRule
  | .block => blockRule
  | .expressionStatement => expressionStatementRule
  | .declaration => declarationRule
  | .localVariables => localVariablesRule
  | .localType => localTypeRule
  | .forStatement => forRule
  | .tryStatement => tryRule
  | .resource => resourceRule
  | .declarator => declaratorRule
  | .declaratorId => declaratorIdRule
  | .classBody => bodyOf .classBody .classMember
  | .interfaceBody => bodyOf .interfaceBody .interfaceMember
  | .annotationTypeBody => bodyOf .annotationTypeBody .annotationMember
  | .enumBody => enumBodyRule
  | .enumConstant => enumConstantRule
  | .classMember => classMemberRule
  | .interfaceMember => interfaceMemberRule
  | .annotationMember => annotationMemberRule
  | .methodDeclaration => methodDeclarationRule
  | .formalParameters => formalParametersRule
  | .parameter => parameterRule
  | .constructorBody => constructorBodyRule
  | .explicitConstructorCall => explicitConstructorCallRule
  | .moduleDeclaration => moduleRule
  | .packageDeclaration => packageRule
  | .importDeclaration => importRule

/-- Parse a whole program. Between two tokens no more than a few dozen rules are entered, so the
fuel is never used up. -/
def parseTokens (ts : List Token) : Except Nat (List Tree) :=
  let n := ts.length
  (parseRule Rule.body n (100 * (n + 1)) .program ⟨[], ts, 0⟩).map fun s => s.built.reverse

def insertSymbol (text : String) (place : Nat) (ts : List Token) : List Token :=
  let (before, after) := ts.span fun t => t.place < place
  let line := (before.getLast?.map Token.line).getD 1
  before ++ ⟨.symbol, text, line, place⟩ :: after.map fun t => { t with place := t.place + 1 }

/-- Whether a closing token put in before the token at a place lets the parse take that token. -/
def closingFits (place : Nat) (ts : List Token) : Bool :=
  [";", "\x7d", ")"].any fun text =>
    match parseTokens (insertSymbol text place ts) with
    | .ok _ => true
    | .error far => decide (place + 1 < far)

/-- The mark for the token at which a parse stopped. A token missing at the end of a
line is marked on that line. -/
def faultAt (place : Nat) (ts : List Token) : Tree :=
  let before := ts.filter fun t => t.place < place ∧ t.lexeme ≠ .comment
  let fault := (ts.find? fun t => t.place = place).getD ⟨.finish, "", 1, place⟩
  match before.getLast? with
  | some last =>
    if last.line < fault.line && (fault.lexeme = .finish || closingFits place ts) then
      Tree.leaf .missing last.line ""
    else Tree.leaf .error fault.line fault.text
  | none => Tree.leaf .error fault.line fault.text

def parse (source : String) : Tree :=
  let ts := tokens source
  match parseTokens ts with
  | .ok trees => Tree.inner .program trees
  | .error place =>
    let taken := (ts.filter fun t => t.place < place).map fun t => Tree.leaf .token t.line t.text
    Tree.inner .program (taken ++ [faultAt place ts])

end ImportAudit.Java
