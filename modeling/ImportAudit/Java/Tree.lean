/-!
# Concrete trees of Java sources

A tree keeps every token of the source as a leaf, comments included, so the leaves give the text
back up to white space. A node may have a role in its parent. Only those roles are kept that mark an
identifier as a name that is introduced or selected, and not as a reference of its own.
-/

namespace ImportAudit.Java

inductive Kind
  | program | packageDeclaration | importDeclaration | asterisk
  | moduleDeclaration | moduleBody | requiresDirective | exportsDirective | opensDirective
  | usesDirective
  | providesDirective
  | identifier | scopedIdentifier | underscore
  | typeIdentifier | scopedTypeIdentifier | genericType | arrayType | annotatedType | voidType
  | integralType
  | floatingPointType | booleanType | typeArguments | wildcard | dimensions | typeParameters
  | typeParameter | typeBound
  | modifiers | markerAnnotationUse | annotationUse | annotationArguments | elementValuePair
  | elementValueArray
  | classDeclaration | interfaceDeclaration | enumDeclaration | recordDeclaration
  | annotationTypeDeclaration
  | superclass | superInterfaces | extendsInterfaces | permits | typeList
  | classBody | interfaceBody | enumBody | enumBodyDeclarations | annotationTypeBody | enumConstant
  | fieldDeclaration | constantDeclaration | methodDeclaration | constructorDeclaration
  | compactConstructor
  | annotationElement | staticInitializer | constructorBody | explicitConstructorCall | throws
  | formalParameters | formalParameter | spreadParameter | receiverParameter | inferredParameters
  | variableDeclarator | localVariableDeclaration
  | block | emptyStatement | expressionStatement | labeledStatement | ifStatement
  | whileStatement | doStatement
  | forStatement | enhancedForStatement | assertStatement | breakStatement | continueStatement
  | returnStatement
  | throwStatement | yieldStatement | synchronizedStatement | tryStatement
  | tryWithResourcesStatement | catchClause
  | catchFormalParameter | catchType | finallyClause | resources | resource
  | switchExpression | switchBlock | switchGroup | switchRule | switchLabel | guard | typePattern
  | recordPattern
  | recordPatternBody | recordPatternComponent
  | assignment | ternary | binary | instanceOf | unary | update | cast | lambda | parenthesized
  | methodInvocation
  | argumentList | fieldAccess | arrayAccess | methodReference | classLiteral | objectCreation
  | arrayCreation
  | dimensionExpression | arrayInitializer | template | stringLiteral | interpolation
  /-- A keyword, a symbol, a literal or a part of one. -/
  | token
  | comment
  /-- A token that no rule can take. -/
  | error
  /-- The place of a token that is not there. -/
  | missing
  deriving DecidableEq, Repr, Inhabited

/-- What a node is to its parent, where that keeps an identifier from being a reference. -/
inductive Role
  | name
  | field
  | key
  | parameters
  deriving DecidableEq, Repr

/-- A tree: its kind, its role in the parent, the line it starts on, its text if it
is a leaf, and its children. -/
inductive Tree
  | node (kind : Kind) (role : Option Role) (line : Nat) (text : String) (children : List Tree)
  deriving Repr, Inhabited

namespace Tree

def kind : Tree → Kind
  | node k _ _ _ _ => k

def role : Tree → Option Role
  | node _ r _ _ _ => r

def line : Tree → Nat
  | node _ _ l _ _ => l

/-- The text of a leaf; a node with children has none of its own. -/
def ownText : Tree → String
  | node _ _ _ t _ => t

def children : Tree → List Tree
  | node _ _ _ _ cs => cs

def withRole (r : Role) : Tree → Tree
  | node k _ l t cs => node k (some r) l t cs

def leaf (kind : Kind) (line : Nat) (text : String) : Tree :=
  node kind none line text []

/-- An inner node without a role, on the line of its first child. -/
def inner (kind : Kind) (children : List Tree) : Tree :=
  node kind none ((children.head?.map line).getD 1) "" children

mutual

/-- The texts of all leaves, in order and without what stood between them. -/
def text : Tree → String
  | node _ _ _ t cs => t ++ textAll cs

def textAll : List Tree → String
  | [] => ""
  | t :: ts => text t ++ textAll ts

end

mutual

/-- All nodes, each before its children and these in order. -/
def preorder : Tree → List Tree
  | node k r l t cs => node k r l t cs :: preorderAll cs

def preorderAll : List Tree → List Tree
  | [] => []
  | t :: ts => preorder t ++ preorderAll ts

end

mutual

def size : Tree → Nat
  | node _ _ _ _ cs => sizeAll cs + 1

def sizeAll : List Tree → Nat
  | [] => 0
  | t :: ts => size t + sizeAll ts

end

def childWithRole? (r : Role) (t : Tree) : Option Tree :=
  t.children.find? fun c => c.role == some r

end Tree

end ImportAudit.Java
