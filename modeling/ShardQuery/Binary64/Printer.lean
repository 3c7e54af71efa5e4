import ShardQuery.Binary64.Shortest
/-! # The text of a double

The shortest decimal is written positionally from `10 ^ -5` up to below `10 ^ 16`, with at least one digit
after the point, and in scientific notation elsewhere. -/

namespace ShardQuery.Binary64

structure Layout where
  leastPositional : Int
  greatestPositional : Int

def standard : Layout := ⟨-5, 15⟩

def positional (digits : List Char) (lead : Int) : List Char :=
  if lead < 0 then
    ['0', '.'] ++ List.replicate (-lead - 1).toNat '0' ++ digits
  else
    let whole := digits.take (lead.toNat + 1)
    let fraction := digits.drop (lead.toNat + 1)
    whole ++ List.replicate (lead.toNat + 1 - whole.length) '0' ++ '.' ::
      (if fraction.isEmpty then ['0'] else fraction)

def scientific (digits : List Char) (lead : Int) : List Char :=
  let mantissa :=
    match digits with
    | [] => []
    | [d] => [d]
    | d :: ds => d :: '.' :: ds
  let sign := if lead < 0 then '-' else '+'
  mantissa ++ 'e' :: sign :: Text.renderNat 10 lead.natAbs

def renderMagnitude (layout : Layout) (x : Binary64) : List Char :=
  if x.isZero then ['0', '.', '0']
  else
    let d := x.shortest
    let digits := Text.renderNat 10 d.digits
    let lead := d.exponent + (digits.length - 1 : Nat)
    if layout.leastPositional ≤ lead ∧ lead ≤ layout.greatestPositional then positional digits lead
    else scientific digits lead

def render (x : Binary64) : String :=
  String.ofList ((if x.isNegative then ['-'] else []) ++ renderMagnitude standard x)

end ShardQuery.Binary64
