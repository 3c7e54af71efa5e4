import ShardQuery.Json.Basic
import ShardQuery.Json.Quoted
import ShardQuery.Text.Fields
/-! # Compact JSON text

A value without any blank between its parts, members in the order they stand. -/

namespace ShardQuery.Json

mutual
def chars : Json → List Char
  | .null | .unreadable => "null".toList
  | .bool true => "true".toList
  | .bool false => "false".toList
  | .number n => n.render.toList
  | .string s => quoteChars s.toList
  | .array items => '[' :: charsOfItems items
  | .object members => '\x7b' :: charsOfMembers members
def charsOfItems : List Json → List Char
  | [] => [']']
  | [v] => v.chars ++ [']']
  | v :: vs => v.chars ++ ',' :: charsOfItems vs
def charsOfMembers : List (String × Json) → List Char
  | [] => ['\x7d']
  | [(k, v)] => quoteChars k.toList ++ ':' :: v.chars ++ ['\x7d']
  | (k, v) :: ms => quoteChars k.toList ++ ':' :: v.chars ++ ',' :: charsOfMembers ms
end

def render (v : Json) : String := String.ofList v.chars

end ShardQuery.Json
