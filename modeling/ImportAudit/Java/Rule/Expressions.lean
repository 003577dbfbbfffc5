import ImportAudit.Java.Rule

/-!
# Rules for expressions

Binary operators have ten levels, the loosest first. An assignment binds its target as tightly as an
operand does, and its value reaches as far as it can.
-/

namespace ImportAudit.Java

open Gram

def binaryOperators : Nat → List String
  | 0 => ["||"]
  | 1 => ["&&"]
  | 2 => ["|"]
  | 3 => ["^"]
  | 4 => ["&"]
  | 5 => ["==", "!="]
  | 6 => ["<", ">", "<=", ">="]
  | 7 => ["<<", ">>", ">>>"]
  | 8 => ["+", "-"]
  | _ => ["*", "/", "%"]

def lastLevel : Nat := 9

def relationalLevel : Nat := 6

def assignmentOperators : List String :=
  ["=", "+=", "-=", "*=", "/=", "&=", "|=", "^=", "%=", "<<=", ">>=", ">>>="]

def anySymbol (texts : List String) : Production := oneOf (texts.map symbol)

def expressionRule (label : Bool) : Production :=
  seq (call (.binary 0 label))
    (opt (all [symbol "?", call (.expression label), symbol ":", call (.expression label),
    close .ternary]))

def instanceOfRest (label : Bool) : Production :=
  all [kw "instanceof", opt (kw "final"),
    alt (call .recordPattern) (seq (call .type) (opt (role .name (operandName label)))),
    close .instanceOf]

def binaryRule (level : Nat) (label : Bool) : Production :=
  let operand : Production :=
    call (if level < lastLevel then .binary (level + 1) label else .unary label)
  let rest : Production := all [anySymbol (binaryOperators level), operand, close .binary]
  seq operand (many (if level = relationalLevel then alt rest (instanceOfRest label) else rest))

def unaryRule (label : Bool) : Production :=
  oneOf [
    all [anySymbol ["++", "--"], call (.unary label), close .update],
    all [anySymbol ["+", "-", "!", "~"], call (.unary label), close .unary],
    if label then notAhead empty else call (.lambda label),
    call (.cast label),
    call .switchExpression,
    seq (call .primary) (alt
      (all [built [.identifier, .fieldAccess, .arrayAccess], anySymbol assignmentOperators,
        call (.expression label), close .assignment])
      (many (seq (anySymbol ["++", "--"]) (close .update))))]

def lambdaRule (label : Bool) : Production :=
  let names : Production := node .inferredParameters (all [symbol "(",
    sepBy "," (word .identifier (operandWords ++ modifierWords.filter (· != "sealed"))),
    symbol ")"])
  seq
    (oneOf [
      seq (role .parameters (operandName label)) (symbol "->"),
      seq (role .parameters names) (symbol "->"),
      seq (role .parameters (call .formalParameters)) (symbol "->")])
    (seq (alt (call .block) (call (.expression label))) (close .lambda))

/-- A cast. A parenthesised name before a sign is an operand of the sign and no type. -/
def castRule (label : Bool) : Production :=
  let operand : Production := seq (without (if label then ["when"] else [])) (call (.unary label))
  all [symbol "(",
    without (softWords ++ ["new", "this", "super", "true", "false", "null", "switch"]), call .type,
    oneOf [
      all
        [built [.voidType, .integralType, .floatingPointType, .booleanType,
          .arrayType, .genericType, .annotatedType],
        symbol ")", operand, close .cast],
      all [symbol ")", notAhead (anySymbol ["+", "-"]), operand, close .cast],
      all [oneOrMore (seq (symbol "&") (call .type)), symbol ")", notAhead (anySymbol ["+", "-"]),
        alt (call (.lambda label)) (call .primary), close .cast]]]

def methodReferenceRest : Production :=
  all [symbol "::", opt (call .typeArguments), alt (kw "new") ident, close .methodReference]

/-- An operand that starts with a type: a class literal or a reference to a method of a type. A
plain name before a double colon is an operand and no type. -/
def typeOperandRule : Production :=
  seq (without (softWords ++ ["new", "this", "super", "true", "false", "null", "switch"])) (alt
    (all
      [notAhead (all [word .identifier primitiveWords, many (seq (symbol ".") ident), symbol "::"]),
      call .unannotatedType,
      alt (all [symbol ".", kw "class", close .classLiteral]) methodReferenceRest])
    (seq
      (all [word .typeIdentifier primitiveWords,
        many
          (all [symbol ".", word .typeIdentifier ["class", "super"], close .scopedTypeIdentifier]),
        symbol ".", seq (ahead (kw "super")) (word .typeIdentifier []),
        close .scopedTypeIdentifier])
      methodReferenceRest))

def memberName : Production := word .identifier ["new", "super", "this"]

def creationRule : Production :=
  all [kw "new", many (call .annotationUse), opt (call .typeArguments), many (call .annotationUse),
    call .simpleType, oneOf [
      all [call .arguments, opt (call .classBody), close .objectCreation],
      all [call .dimensions, call .arrayInitializer, close .arrayCreation],
      all [oneOrMore (node .dimensionExpression
          (all [many (call .annotationUse), symbol "[", call (.expression false), symbol "]"])),
        opt (call .dimensions), close .arrayCreation]]]

def primarySuffix : Production :=
  oneOf [
    all [symbol ".", kw "new", many (call .annotationUse), opt (call .typeArguments),
      many (call .annotationUse), call .simpleType, call .arguments, opt (call .classBody),
      close .objectCreation],
    all [symbol ".", kw "super", symbol ".", opt (call .typeArguments), role .name memberName,
      call .arguments, close .methodInvocation],
    all [symbol ".", kw "super", symbol ".", role .field memberName, close .fieldAccess],
    all [symbol ".", opt (call .typeArguments), role .name memberName, call .arguments,
      close .methodInvocation],
    all [symbol ".", role .field (kw "this"), close .fieldAccess],
    all [symbol ".", role .field memberName, close .fieldAccess],
    all [symbol ".", call .stringLiteral, close .template],
    all [symbol "[", call (.expression false), symbol "]", close .arrayAccess],
    methodReferenceRest]

def superRest : Production :=
  oneOf [
    all [symbol ".", opt (call .typeArguments), role .name memberName, call .arguments,
      close .methodInvocation],
    all [symbol ".", role .field memberName, close .fieldAccess],
    methodReferenceRest]

def primaryRule : Production :=
  seq
    (oneOf [
      keyword ["true", "false", "null"],
      lexeme .number,
      lexeme .character,
      call .stringLiteral,
      call .typeOperand,
      kw "this",
      seq (kw "super") superRest,
      call .creation,
      all [role .name (operandName false), call .arguments, close .methodInvocation],
      operandName false,
      call .parenthesized])
    (many primarySuffix)

def argumentsRule : Production :=
  node .argumentList (all [symbol "(", commas (call (.expression false)), symbol ")"])

def parenthesizedRule : Production :=
  node .parenthesized (all [symbol "(", call (.expression false), symbol ")"])

def arrayInitializerRule : Production :=
  node .arrayInitializer
    (all [symbol "\x7b", commas (alt (call .arrayInitializer) (call (.expression false))),
    opt (symbol ","), symbol "\x7d"])

def stringLiteralRule : Production :=
  node .stringLiteral (all [lexeme .quote,
    many (alt (lexeme .fragment)
      (node .interpolation (all [lexeme .splice, call (.expression false), lexeme .splice]))),
    lexeme .quote])

/-! ## Switches and patterns -/

def recordPatternRule : Production :=
  let component : Production := oneOf [
    call .recordPattern,
    node .recordPatternComponent
      (alt (node .underscore (kw "_")) (seq (call .unannotatedType) ident))]
  node .recordPattern (seq
    (alt (seq (word .identifier operandWords) (ahead (symbol "(")))
      (seq (call .simpleType) (built [.genericType])))
    (node .recordPatternBody (all [symbol "(", commas component, symbol ")"])))

/-- A label. What could be a call as well is a pattern if the label may end after it. -/
def switchLabelRule : Production :=
  node .switchLabel (alt
    (all [kw "case",
      oneOf [
        seq (call .recordPattern) (ahead (oneOf [symbol "->", symbol ":", kw "when"])),
        node .typePattern (all [without ["new", "this", "super", "true", "false", "null", "switch"],
          call .unannotatedType, operandName true]),
        sepBy "," (call (.expression true))],
      opt (node .guard (seq (kw "when") (call (.expression true))))])
    (kw "default"))

/-- A switch: all its branches have arrows, or all have colons. -/
def switchExpressionRule : Production :=
  let rule : Production := node .switchRule (all [call .switchLabel, symbol "->",
    oneOf [call .block,
      node .throwStatement (all [kw "throw", call (.expression false), symbol ";"]),
      call .expressionStatement]])
  let group : Production := node .switchGroup (seq
    (oneOrMore (seq (call .switchLabel) (symbol ":")))
    (many (seq (without ["case"]) (call .statement))))
  node .switchExpression (all [kw "switch", call .parenthesized,
    node .switchBlock (seq (symbol "\x7b") (alt
      (seq (oneOrMore rule) (symbol "\x7d"))
      (seq (many group) (symbol "\x7d"))))])

end ImportAudit.Java
