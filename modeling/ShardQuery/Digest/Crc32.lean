/-! # CRC-32

The reflected cyclic redundancy check with polynomial `0xEDB88320`, all ones at the start and
complemented at the end, as a left fold over bytes. -/

namespace ShardQuery.Crc32

def shift (r : UInt32) : UInt32 :=
  if r &&& 1 = 1 then (r >>> 1) ^^^ 0xedb88320 else r >>> 1

def step (r : UInt32) (b : UInt8) : UInt32 := Nat.repeat shift 8 (r ^^^ b.toUInt32)

def checksum (bytes : List UInt8) : UInt32 := bytes.foldl step 0xffffffff ^^^ 0xffffffff

end ShardQuery.Crc32
