import Mathlib.Tactic.SplitIfs
import ShardQuery.Text.Utf8

/-!
# ASCII bytes in a text

In UTF-8 a byte below 128 stands for the ASCII character of that number and is part of no other.
So a field that does not hold an ASCII separator can be read back from its bytes.
-/

namespace ShardQuery.Text

end ShardQuery.Text
