import ShardQuery.Query.Expression
/-! # The text of an expression

Comparisons with spaces around the operator, joined children in parentheses. A string literal stands
between apostrophes, and inside it a backslash precedes every backslash and apostrophe. -/

namespace ShardQuery

namespace Literal

def escapeChar (c : Char) : List Char := if c = '\\' ∨ c = '\'' then ['\\', c] else [c]

def quoteChars (cs : List Char) : List Char := '\'' :: (cs.flatMap escapeChar ++ ['\''])

def render : Literal → String
  | null => "null"
  | bool true => "true"
  | bool false => "false"
  | number n => n.render
  | string s => String.ofList (quoteChars s.toList)

end Literal

namespace Expression

mutual
def render : Expression → String
  | .and children => "(" ++ Text.joined " && " (renderAll children) ++ ")"
  | .or children => "(" ++ Text.joined " || " (renderAll children) ++ ")"
  | .not child => "!" ++ child.render
  | .compare op f literal => f ++ " " ++ op.symbol ++ " " ++ literal.render
  | .function scope name args =>
    scope ++ ":" ++ name ++ "(" ++ Text.joined ", " (renderAll args) ++ ")"
  | .field name => name
  | .value literal => literal.render
def renderAll : List Expression → List String
  | [] => []
  | e :: es => e.render :: renderAll es
end

end Expression
end ShardQuery
