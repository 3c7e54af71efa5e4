import ShardQuery.Query.Settings
import ShardQuery.Scan.Authorizations
import ShardQuery.Scan.Range
/-! # Plans

What a query has to scan: ranges of one table under some authorizations. -/

namespace ShardQuery

structure Plan where
  queryId : QueryId
  table : String
  authorizations : Authorizations
  ranges : List RowRange
deriving DecidableEq

namespace Plan

instance : Inhabited Plan := ⟨⟨default, "", ∅, []⟩⟩

def hasWork (p : Plan) : Bool := !p.ranges.isEmpty

end Plan
end ShardQuery
