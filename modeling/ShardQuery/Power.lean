/-! # Powers

A power of a natural number or of an integer is the one of the core library, whatever algebra is
imported. -/

namespace ShardQuery

attribute [scoped instance (high)] instPowNat
attribute [default_instance 20000] instPowNat

end ShardQuery
