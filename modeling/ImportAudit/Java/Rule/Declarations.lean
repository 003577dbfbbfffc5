import ImportAudit.Java.Rule.Types

/-!
# Rules for declarations

The declarations that may follow modifiers close over them, so that the modifiers are read once.
-/

namespace ImportAudit.Java

open Gram

def typesAfter (kind : Kind) (keyword : String) : Production :=
  node kind (seq (kw keyword) typeListRule)

def classRest : Production :=
  all [kw "class", ownName, opt (call .typeParameters),
    opt (node .superclass (seq (kw "extends") (call .type))),
    opt (typesAfter .superInterfaces "implements"), opt (typesAfter .permits "permits"),
    call .classBody, close .classDeclaration]

def interfaceRest : Production :=
  all [kw "interface", ownName, opt (call .typeParameters),
    opt (typesAfter .extendsInterfaces "extends"), opt (typesAfter .permits "permits"),
    call .interfaceBody, close .interfaceDeclaration]

def enumRest : Production :=
  all [kw "enum", ownName, opt (typesAfter .superInterfaces "implements"), call .enumBody,
    close .enumDeclaration]

def recordRest : Production :=
  all [kw "record", ownName, opt (call .typeParameters), call .formalParameters,
    opt (typesAfter .superInterfaces "implements"), call .classBody, close .recordDeclaration]

def annotationTypeRest : Production :=
  all [symbol "@interface", ownName, call .annotationTypeBody, close .annotationTypeDeclaration]

def typeDeclarationRest : Production :=
  oneOf [classRest, interfaceRest, enumRest, recordRest, annotationTypeRest]

def declarationRule : Production :=
  seq (opt (call .modifiers)) typeDeclarationRest

/-! ## Members -/

def throwsRule : Production :=
  node .throws (seq (kw "throws") (sepBy "," (call .type)))

def methodRest : Production :=
  all [opt (seq (call .typeParameters) (many (call .annotationUse))),
    call .unannotatedType, ownName, call .formalParameters, opt (call .dimensions), opt throwsRule,
    alt (call .block) (symbol ";"), close .methodDeclaration]

def methodDeclarationRule : Production :=
  all [opt (call .modifiers), without notMemberWords, methodRest]

def variablesRest (kind : Kind) : Production :=
  all [call .unannotatedType, sepBy "," (call .declarator), symbol ";", close kind]

def constructorName : Production := role .name (word .identifier primitiveWords)

def constructorRest : Production :=
  all [opt (call .typeParameters), constructorName, call .formalParameters, opt throwsRule,
    call .constructorBody, close .constructorDeclaration]

def compactConstructorRest : Production :=
  all [constructorName, call .block, close .compactConstructor]

def classMemberRule : Production :=
  oneOf [
    symbol ";",
    node .staticInitializer (seq (kw "static") (call .block)),
    call .block,
    seq (opt (call .modifiers)) (alt typeDeclarationRest (seq (without notMemberWords)
      (oneOf [constructorRest, compactConstructorRest, methodRest,
        variablesRest .fieldDeclaration])))]

def interfaceMemberRule : Production :=
  oneOf [
    symbol ";",
    seq (opt (call .modifiers)) (alt typeDeclarationRest (seq (without notMemberWords)
      (alt methodRest (variablesRest .constantDeclaration))))]

def annotationElementRest : Production :=
  all [call .unannotatedType, ownName, symbol "(", symbol ")", opt (call .dimensions),
    opt (seq (kw "default") (call .elementValue)), symbol ";", close .annotationElement]

def annotationMemberRule : Production :=
  oneOf [
    symbol ";",
    seq (opt (call .modifiers))
      (alt (oneOf [classRest, interfaceRest, enumRest, annotationTypeRest])
      (seq (without notMemberWords)
        (alt annotationElementRest (variablesRest .constantDeclaration))))]

def bodyOf (kind : Kind) (member : Rule) : Production :=
  node kind (all [symbol "\x7b", many (call member), symbol "\x7d"])

def enumBodyRule : Production :=
  node .enumBody (all [symbol "\x7b", commas (call .enumConstant), opt (symbol ","),
    opt (node .enumBodyDeclarations (seq (symbol ";") (many (call .classMember)))), symbol "\x7d"])

def enumConstantRule : Production :=
  all [opt (call .modifiers), role .name (word .identifier modifierWords), opt (call .arguments),
    opt (call .classBody), close .enumConstant]

/-! ## Parameters and constructors -/

def receiverRule : Production :=
  node .receiverParameter
    (all [many (call .annotationUse), call .unannotatedType, many (seq ident (symbol ".")),
    kw "this"])

def formalParametersRule : Production :=
  node .formalParameters (all [symbol "(",
    alt (seq receiverRule (opt (seq (symbol ",") (commas (call .parameter)))))
      (commas (call .parameter)),
    symbol ")"])

def parameterRule : Production :=
  all [opt (call .modifiers), call .unannotatedType,
    alt (all [symbol "...", many (call .annotationUse), call .declarator, close .spreadParameter])
      (seq (call .declaratorId) (close .formalParameter))]

def constructorBodyRule : Production :=
  node .constructorBody
    (all [symbol "\x7b", opt (call .explicitConstructorCall), many (call .statement),
    symbol "\x7d"])

def explicitConstructorCallRule : Production :=
  node .explicitConstructorCall (seq
    (alt
      (seq (opt (call .typeArguments)) (keyword ["this", "super"]))
      (all [call .primary, symbol ".", opt (call .typeArguments), kw "super"]))
    (seq (call .arguments) (symbol ";")))

/-! ## Compilation units -/

def importRule : Production :=
  node .importDeclaration (all [kw "import", opt (kw "static"), call .name,
    opt (seq (symbol ".") (node .asterisk (symbol "*"))), symbol ";"])

def packageRule : Production :=
  node .packageDeclaration (all [many (call .annotationUse), kw "package", call .name, symbol ";"])

def moduleDirective : Production :=
  let names := sepBy "," (call .name)
  oneOf [
    node .requiresDirective
      (all [kw "requires", many (keyword ["transitive", "static"]), call .name, symbol ";"]),
    node .exportsDirective (all [kw "exports", call .name, opt (seq (kw "to") names), symbol ";"]),
    node .opensDirective (all [kw "opens", call .name, opt (seq (kw "to") names), symbol ";"]),
    node .usesDirective (all [kw "uses", call .name, symbol ";"]),
    node .providesDirective (all [kw "provides", call .name, kw "with", names, symbol ";"])]

def moduleRule : Production :=
  node .moduleDeclaration
    (all [many (call .annotationUse), opt (kw "open"), kw "module", role .name (call .name),
    node .moduleBody (all [symbol "\x7b", many moduleDirective, symbol "\x7d"])])

def programRule : Production :=
  seq (many (alt (call .statement) (call .methodDeclaration))) (lexeme .finish)

end ImportAudit.Java
