import ShardQuery.Json.Printer
import ShardQuery.Ordered.Set
import ShardQuery.Text.Blank
import ShardQuery.Text.Fields
/-! # Authorizations

The visibility labels that a scan may read. A visibility is blank, one label, labels that are all required
or labels of which one suffices; both kinds mixed are visible to nobody. -/

namespace ShardQuery

abbrev Authorizations := OrderedSet String

namespace Authorizations

def text (a : Authorizations) : String := Text.joined "," a.toList

def holds (a : Authorizations) (label : String) : Bool := decide (label ∈ a)

def canSee (a : Authorizations) (visibility : String) : Bool :=
  let v := Text.trimmed visibility
  if v.isEmpty then true
  else
    match v.toList.contains '&', v.toList.contains '|' with
    | false, false => a.holds v
    | true, false => (Text.fieldsOf '&' v).all fun l => a.holds (Text.trimmed l)
    | false, true => (Text.fieldsOf '|' v).any fun l => a.holds (Text.trimmed l)
    | true, true => false

def toJson (a : Authorizations) : Json := .strings a.toList

end Authorizations
end ShardQuery
