import ImportAudit.Java.Grammar

/-!
# The rules of the Java grammar

The names of the rules, and the words that are keywords at the places where the
grammar has a choice. A word is a keyword only where the grammar gives it a meaning;
everywhere else it is an identifier.
-/

namespace ImportAudit.Java

/-- The rules. Where a rule has a flag, the flag says that it stands in the label of a switch, where
an arrow ends the expression and makes no lambda expression of it. -/
inductive Rule
  | program | name | annotationUse | annotationArguments | elementValue | modifiers
  | type | unannotatedType | simpleType | typeArguments | dimensions | typeParameters
  | expression (label : Bool) | binary (level : Nat) (label : Bool) | unary (label : Bool) | primary
  | lambda (label : Bool) | cast (label : Bool) | typeOperand | creation | arguments
  | arrayInitializer
  | switchExpression | switchLabel | recordPattern | stringLiteral | parenthesized
  | statement | block | expressionStatement | declaration | localVariables | localType
  | forStatement | tryStatement
  | resource | declarator | declaratorId
  | classBody | interfaceBody | annotationTypeBody | enumBody | enumConstant | classMember
  | interfaceMember
  | annotationMember | methodDeclaration | formalParameters | parameter | constructorBody
  | explicitConstructorCall
  | moduleDeclaration | packageDeclaration | importDeclaration

abbrev Production := Gram Rule

def primitiveWords : List String :=
  ["void", "byte", "short", "int", "long", "char", "float", "double", "boolean"]

def modifierWords : List String :=
  ["public", "protected", "private", "abstract", "static", "final", "strictfp", "default",
    "synchronized", "native", "transient", "volatile", "sealed", "non-sealed"]

/-- Words with a meaning of their own that are also names in expressions and
declarations, but never types. -/
def softWords : List String :=
  ["open", "module", "record", "with", "sealed", "yield"]

def operandWords : List String :=
  primitiveWords ++ ["new", "this", "super", "true", "false", "null", "switch", "instanceof"]

def declarationWords : List String :=
  ["class", "interface", "enum", "record"]

def statementWords : List String :=
  ["assert", "break", "continue", "do", "for", "if", "import", "package", "return", "synchronized",
    "throw", "try", "while"]

def notExpressionWords : List String :=
  statementWords ++ modifierWords.filter (· != "sealed") ++ ["class", "interface", "enum"]

def notTypeWords : List String :=
  statementWords ++ modifierWords ++ declarationWords ++ softWords
    ++ ["new", "this", "super", "true", "false", "null", "switch"]

def notMemberWords : List String :=
  modifierWords ++ declarationWords

namespace Gram

def kw (word : String) : Production := keyword [word]

def ident : Production := word .identifier []

def operandName (label : Bool) : Production :=
  word .identifier (if label then "when" :: operandWords else operandWords)

def ownName : Production := role .name ident

end Gram

end ImportAudit.Java
