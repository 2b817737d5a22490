import QueryStats.Json.Token

/-!
# Reading JSON text

A text is read token by token.  The lists and objects that are open at a place are kept on a stack,
the innermost first.  The members of an object are kept in the order they stand in, also where one
name stands twice.
-/

namespace QueryStats.Json

/-- A list or an object that is open; what it holds so far has the last item first. -/
inductive Frame where
  | array (items : List Json)
  /-- An object, and the name of the member whose value comes next. -/
  | object (members : List (String × Json)) (name : String)
  deriving Inhabited

/-- What may come next. -/
inductive Expected where
  | value
  /-- The first item of a list, or its end. -/
  | firstItem
  /-- The first member of an object, or its end. -/
  | firstMember
  /-- The name of a member, after others. -/
  | name (members : List (String × Json))
  /-- The colon after the name of a member. -/
  | colon (members : List (String × Json)) (name : String)
  /-- What goes on after a value. -/
  | after (j : Json)
  deriving Inhabited

/-- The value that some tokens make up, given what is open and what may come next. -/
def ofTokens? : Expected → List Frame → List Token → Option Json
  | .after j, [], [] => some j
  | .after j, .array items :: outer, .mark ',' :: ts =>
    ofTokens? .value (.array (j :: items) :: outer) ts
  | .after j, .array items :: outer, .mark ']' :: ts =>
    ofTokens? (.after (.array (j :: items).reverse)) outer ts
  | .after j, .object members name :: outer, .mark ',' :: ts =>
    ofTokens? (.name ((name, j) :: members)) outer ts
  | .after j, .object members name :: outer, .mark '\x7d' :: ts =>
    ofTokens? (.after (.object ((name, j) :: members).reverse)) outer ts
  | .firstItem, .array _ :: outer, .mark ']' :: ts => ofTokens? (.after (.array [])) outer ts
  | .firstMember, outer, .mark '\x7d' :: ts => ofTokens? (.after (.object [])) outer ts
  | .firstMember, outer, .string s :: ts => ofTokens? (.colon [] s) outer ts
  | .name members, outer, .string s :: ts => ofTokens? (.colon members s) outer ts
  | .colon members s, outer, .mark ':' :: ts => ofTokens? .value (.object members s :: outer) ts
  | .value, outer, t :: ts | .firstItem, outer, t :: ts =>
    match t with
    | .mark '[' => ofTokens? .firstItem (.array [] :: outer) ts
    | .mark '\x7b' => ofTokens? .firstMember outer ts
    | .string s => ofTokens? (.after (.string s)) outer ts
    | .word j => ofTokens? (.after j) outer ts
    | .mark _ => none
  | _, _, _ => none

def ofText? (s : String) : Option Json := (tokens? s.toList).bind (ofTokens? .value [])

end QueryStats.Json
