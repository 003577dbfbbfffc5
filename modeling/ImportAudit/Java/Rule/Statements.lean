import ImportAudit.Java.Rule

/-!
# Rules for statements
-/

namespace ImportAudit.Java

open Gram

def blockRule : Production :=
  node .block (all [symbol "\x7b", many (call .statement), symbol "\x7d"])

def terminated (keyword : String) : Production :=
  all [kw keyword, call (.expression false), symbol ";"]

def statementRule : Production :=
  oneOf [
    call .block,
    node .emptyStatement (symbol ";"),
    node .ifStatement
      (all [kw "if", call .parenthesized, call .statement,
        opt (seq (kw "else") (call .statement))]),
    node .whileStatement (all [kw "while", call .parenthesized, call .statement]),
    node .doStatement (all [kw "do", call .statement, kw "while", call .parenthesized, symbol ";"]),
    call .forStatement,
    call .tryStatement,
    call .switchExpression,
    node .synchronizedStatement (all [kw "synchronized", call .parenthesized, call .block]),
    node .assertStatement (all [kw "assert", call (.expression false),
      opt (seq (symbol ":") (call (.expression false))), symbol ";"]),
    node .returnStatement (all [kw "return", opt (call (.expression false)), symbol ";"]),
    node .throwStatement (terminated "throw"),
    node .breakStatement (all [kw "break", opt ident, symbol ";"]),
    node .continueStatement (all [kw "continue", opt ident, symbol ";"]),
    node .yieldStatement (terminated "yield"),
    call .importDeclaration,
    call .packageDeclaration,
    call .moduleDeclaration,
    node .labeledStatement
      (all [without (notTypeWords ++ primitiveWords), ident, symbol ":", call .statement]),
    call .declaration,
    call .localVariables,
    call .expressionStatement]

def expressionStatementRule : Production :=
  node .expressionStatement (all [without notExpressionWords, call (.expression false), symbol ";"])

def localTypeRule : Production :=
  alt
    (all [call .modifiers, without notMemberWords, call .unannotatedType])
    (seq (without notTypeWords) (call .unannotatedType))

def localVariablesRule : Production :=
  node .localVariableDeclaration (all [call .localType, sepBy "," (call .declarator), symbol ";"])

def declaratorIdRule : Production :=
  seq (role .name (alt (node .underscore (kw "_")) (word .identifier ["instanceof", "this"])))
    (opt (call .dimensions))

def declaratorRule : Production :=
  node .variableDeclarator (seq (call .declaratorId)
    (opt (seq (symbol "=") (alt (call .arrayInitializer) (call (.expression false))))))

def forRule : Production :=
  seq (seq (kw "for") (symbol "(")) (alt
    (all [call .localType, call .declaratorId, symbol ":", call (.expression false), symbol ")",
      call .statement, close .enhancedForStatement])
    (all [alt (call .localVariables) (seq (commas (call (.expression false))) (symbol ";")),
      opt (call (.expression false)), symbol ";", commas (call (.expression false)), symbol ")",
      call .statement, close .forStatement]))

def catchRule : Production :=
  node .catchClause (all [kw "catch", symbol "(",
    node .catchFormalParameter
      (all [opt (call .modifiers), node .catchType (sepBy "|" (call .unannotatedType)),
      call .declaratorId]),
    symbol ")", call .block])

def finallyRule : Production :=
  node .finallyClause (seq (kw "finally") (call .block))

def resourceRule : Production :=
  node .resource (alt
    (all [call .localType, call .declaratorId, symbol "=", call (.expression false)])
    (seq (call .primary) (built [.identifier, .fieldAccess])))

/-- A try statement without resources has a catch clause or a finally clause. -/
def tryRule : Production :=
  seq (kw "try") (alt
    (all [call .block, many catchRule, alt finallyRule (built [.catchClause]), close .tryStatement])
    (all
      [node .resources (all [symbol "(", sepBy ";" (call .resource), opt (symbol ";"), symbol ")"]),
      call .block, many catchRule, opt finallyRule, close .tryWithResourcesStatement]))

end ImportAudit.Java
