import RaceIngest.Json.Reader

/-!
# The tokens of a document are put together again

The machine that reads tokens answers a value that is complete with `Pending.next`, on the stack it
found. So the tokens of a value take it from `Pending.value` to `Pending.next` with that value, the
tokens of further items or members go on from `Pending.next` and end in the array or object.

## Main statement

* `ofTokens?_tokens`: the value that the tokens of a document write is the document.
-/

namespace RaceIngest.Json

/-- The machine after a row of tokens. -/
def steps? (pending : Pending) (tokens : List Token) : Option Pending := tokens.foldlM step? pending

theorem steps?_nil (pending : Pending) : steps? pending [] = some pending := rfl

theorem steps?_cons (pending : Pending) (token : Token) (tokens : List Token) :
    steps? pending (token :: tokens) = (step? pending token).bind (steps? · tokens) := by
  simp [steps?, List.foldlM_cons, Option.bind_eq_bind]

theorem steps?_append (pending : Pending) (first second : List Token) :
    steps? pending (first ++ second) = (steps? pending first).bind (steps? · second) := by
  simp [steps?, List.foldlM_append, Option.bind_eq_bind]

/-- The token that a value begins with does not close an array. -/
theorem steps?_firstItem (j : Json) (stack : List Frame) (rest : List Token) :
    steps? (.firstItem stack) (tokens j ++ rest) =
      steps? (.value (.items [] :: stack)) (tokens j ++ rest) := by
  cases j with
  | array items => cases items <;> rfl
  | object members => cases members <;> rfl
  | _ => rfl

mutual

/-- The tokens of a value complete it. -/
theorem steps?_tokens : (j : Json) → (stack : List Frame) →
    steps? (.value stack) (tokens j) = some (.next stack j)
  | .null, _ => rfl
  | .bool _, _ => rfl
  | .number _, _ => rfl
  | .string _, _ => rfl
  | .array [], _ => rfl
  | .array (item :: items), stack => by
    have hfirst := steps?_firstItem item stack (itemTokens items ++ [.closeArray])
    rw [tokens, steps?_cons]
    refine hfirst.trans ?_
    rw [steps?_append, steps?_tokens item, Option.bind_some, steps?_itemTokens items]
    rfl
  | .object [], _ => rfl
  | .object ((key, value) :: members), stack => by
    rw [tokens]
    show steps? (.value (.members [] key :: stack)) _ = _
    rw [steps?_append, steps?_tokens value, Option.bind_some, steps?_memberTokens members]
    rfl

/-- The tokens of further items end in the array. -/
theorem steps?_itemTokens : (items : List Json) → (stack : List Frame) → (reversed : List Json) →
    (v : Json) → steps? (.next (.items reversed :: stack) v) (itemTokens items ++ [.closeArray]) =
      some (.next stack (.array ((v :: reversed).reverse ++ items)))
  | [], _, reversed, v => by
    simp [itemTokens, steps?_cons, steps?_nil, step?]
  | item :: items, stack, reversed, v => by
    rw [itemTokens, List.cons_append, List.append_assoc, steps?_cons]
    show steps? (.value (.items (v :: reversed) :: stack)) _ = _
    rw [steps?_append, steps?_tokens item, Option.bind_some, steps?_itemTokens items]
    simp

/-- The tokens of further members end in the object. -/
theorem steps?_memberTokens : (members : List (Option String × Json)) → (stack : List Frame) →
    (reversed : List (Option String × Json)) → (key : Option String) → (v : Json) →
    steps? (.next (.members reversed key :: stack) v) (memberTokens members ++ [.closeObject]) =
      some (.next stack (.object (((key, v) :: reversed).reverse ++ members)))
  | [], _, reversed, key, v => by
    simp [memberTokens, steps?_cons, steps?_nil, step?]
  | (name, value) :: members, stack, reversed, key, v => by
    rw [memberTokens, List.cons_append, List.cons_append, List.cons_append, List.append_assoc]
    show steps? (.value (.members ((key, v) :: reversed) name :: stack)) _ = _
    rw [steps?_append, steps?_tokens value, Option.bind_some, steps?_memberTokens members]
    simp

end

/-- **The value that the tokens of a document write is the document.** -/
theorem ofTokens?_tokens (j : Json) : ofTokens? (tokens j) = some j := by
  have hcomplete := steps?_tokens j []
  rw [steps?] at hcomplete
  rw [ofTokens?, hcomplete]

end RaceIngest.Json
