import ImportAudit.Java.Rule

/-!
# Rules for names, annotations and types
-/

namespace ImportAudit.Java

open Gram

def nameRule : Production :=
  seq ident (many (all [symbol ".", ownName, close .scopedIdentifier]))

def annotationRule : Production :=
  all [symbol "@", role .name (call .name),
    alt (seq (call .annotationArguments) (close .annotationUse)) (close .markerAnnotationUse)]

def annotationArgumentsRule : Production :=
  node .annotationArguments (all [symbol "(",
    oneOf [
      seq
        (sepBy ","
          (node .elementValuePair
            (all [role .key (operandName false), symbol "=", call .elementValue])))
        (symbol ")"),
      seq (opt (call .elementValue)) (symbol ")")]])

def elementValueRule : Production :=
  oneOf [call .annotationUse,
    node .elementValueArray
      (all [symbol "\x7b", commas (call .elementValue), opt (symbol ","), symbol "\x7d"]),
    call (.expression false)]

def modifiersRule : Production :=
  node .modifiers (oneOrMore (alt (call .annotationUse) (keyword modifierWords)))

def typeRule : Production :=
  alt (all [oneOrMore (call .annotationUse), call .unannotatedType, close .annotatedType])
    (call .unannotatedType)

def unannotatedTypeRule : Production :=
  seq (call .simpleType) (opt (seq (call .dimensions) (close .arrayType)))

def simpleTypeRule : Production :=
  oneOf [
    node .voidType (kw "void"),
    node .integralType (keyword ["byte", "short", "int", "long", "char"]),
    node .floatingPointType (keyword ["float", "double"]),
    node .booleanType (kw "boolean"),
    seq (word .typeIdentifier primitiveWords) (many (oneOf [
      all [built [.typeIdentifier, .scopedTypeIdentifier], call .typeArguments, close .genericType],
      all [symbol ".", many (call .annotationUse), word .typeIdentifier ["class"],
        close .scopedTypeIdentifier]]))]

def wildcardRule : Production :=
  node .wildcard
    (all [many (call .annotationUse), symbol "?",
      opt (seq (keyword ["extends", "super"]) (call .type))])

def typeArgumentsRule : Production :=
  node .typeArguments (all [symbol "<", commas (alt wildcardRule (call .type)), closeAngle])

def dimensionsRule : Production :=
  node .dimensions (oneOrMore (all [many (call .annotationUse), symbol "[", symbol "]"]))

def typeParametersRule : Production :=
  node .typeParameters (all [symbol "<",
    sepBy "," (node .typeParameter (all [many (call .annotationUse), word .typeIdentifier [],
      opt (node .typeBound (seq (kw "extends") (sepBy "&" (call .type))))])),
    closeAngle])

def typeListRule : Production :=
  node .typeList (sepBy "," (call .type))

end ImportAudit.Java
