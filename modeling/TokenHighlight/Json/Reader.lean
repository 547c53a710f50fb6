import TokenHighlight.Json.Lexeme

/-!
# Reading JSON

The grammar over lexemes, with the arrays and objects that are still open on a stack. Trailing
commas, comments and text behind the value are errors. There is no limit on nesting here: a record
that has one checks the depth of the value.

## Main definitions

* `Json.Open` — an array or object of which a part has been read
* `Json.Parse` — what may come next
* `Json.read?` — the value that a text spells
-/

namespace TokenHighlight.Json

/-- An array or object that is still open, with what it holds so far in reverse. -/
inductive Open
  | array (elements : List Json)
  /-- An object in which the value for a key is being read. -/
  | object (members : List (Option String × Json)) (key : Option String)

/-- What may come next, given what is open, the innermost first. -/
inductive Parse
  | value (outer : List Open)
  /-- Behind an opening bracket: a value, or the end of the array. -/
  | firstElement (outer : List Open)
  /-- Behind an opening brace: a key, or the end of the object. -/
  | firstKey (outer : List Open)
  | key (members : List (Option String × Json)) (outer : List Open)
  | colon (members : List (Option String × Json)) (key : Option String) (outer : List Open)
  /-- Behind a value: a comma, the end of what is open, or the end of the text. -/
  | behind (value : Json) (outer : List Open)

/-- A lexeme where a value is due: the value itself, or the beginning of one. -/
def beginValue? (outer : List Open) : Lexeme → Option Parse
  | .null => some (.behind .null outer)
  | .bool b => some (.behind (.bool b) outer)
  | .number n => some (.behind (.number n) outer)
  | .string s => some (.behind (.string s) outer)
  | .openBracket => some (.firstElement outer)
  | .openBrace => some (.firstKey outer)
  | _ => none

/-- The next lexeme. -/
def parse? : Parse → Lexeme → Option Parse
  | .value outer, l => beginValue? outer l
  | .firstElement outer, .closeBracket => some (.behind (.array []) outer)
  | .firstElement outer, l => beginValue? (.array [] :: outer) l
  | .firstKey outer, .closeBrace => some (.behind (.object []) outer)
  | .firstKey outer, .string s => some (.colon [] s outer)
  | .key ms outer, .string s => some (.colon ms s outer)
  | .colon ms key outer, .colon => some (.value (.object ms key :: outer))
  | .behind v (.array es :: outer), .comma => some (.value (.array (v :: es) :: outer))
  | .behind v (.array es :: outer), .closeBracket =>
    some (.behind (.array (v :: es).reverse) outer)
  | .behind v (.object ms key :: outer), .comma => some (.key ((key, v) :: ms) outer)
  | .behind v (.object ms key :: outer), .closeBrace =>
    some (.behind (.object ((key, v) :: ms).reverse) outer)
  | _, _ => none

/-- The value that a run of lexemes spells. -/
def ofLexemes? (ls : List Lexeme) : Option Json :=
  match ls.foldlM parse? (.value []) with
  | some (.behind v []) => some v
  | _ => none

/-- The value that a text spells. -/
def read? (s : String) : Option Json :=
  (lexemes? s.toList).bind ofLexemes?

end TokenHighlight.Json
