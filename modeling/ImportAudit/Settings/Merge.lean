import ImportAudit.Failure

/-!
# Merging mappings

A later mapping goes over an earlier one: where both have a mapping under a key, those are merged,
and otherwise the later value stands. Keys keep the order in which they first came.
-/

namespace ImportAudit

namespace Value

mutual

def mergeEntries (under : List (Value × Value)) : List (Value × Value) → List (Value × Value)
  | [] => under
  | (k, v) :: es => mergeEntries (put k (mergeOver (lookup k under) v) under) es

def mergeOver (under : Option Value) : Value → Value
  | map es =>
    match under with
    | some (map old) => map (mergeEntries old es)
    | _ => map es
  | v => v

end

/-- Merge mappings, the first being the lowest. What is empty or not given is passed over. -/
def merge (layers : List Value) : Except Failure (List (Value × Value)) :=
  layers.foldlM (fun under layer =>
    if !layer.isTruthy then .ok under
    else
      match layer with
      | map es => .ok (mergeEntries under es)
      | v => .error (Failure.lacks v "items")) []

end Value

end ImportAudit
