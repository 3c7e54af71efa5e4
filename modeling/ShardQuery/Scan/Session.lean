import ShardQuery.Digest.Crc32
import ShardQuery.Scan.World
import ShardQuery.Text.Utf8
/-! # Scan sessions

A session owns one open cursor, bound to a table, authorizations and at least one range. Closing releases
the cursor, and a closed session yields nothing more. The identity of a session is a checksum of what it is
bound to, so equal sessions share it. -/

namespace ShardQuery

structure Session (κ : Type) where
  table : String
  authorizations : Authorizations
  ranges : List RowRange
  cursor : Option κ
  opened : Nat
  counted : Bool
deriving Inhabited

namespace Session

/-- The bytes of a label and of a bound end with this one. -/
def fieldEnd : UInt8 := 0x1f

/-- The bytes of a bound: a mark tells an absent bound from an empty one. -/
def boundBytes : Option String → List UInt8
  | some s => 1 :: (Text.bytesOf s ++ [fieldEnd])
  | none => [2, fieldEnd]

def identityBytes (table : String) (authorizations : Authorizations) (ranges : List RowRange) :
    List UInt8 :=
  Text.bytesOf table ++ [0] ++
    authorizations.toList.flatMap (fun l => Text.bytesOf l ++ [fieldEnd]) ++ [0] ++
    ranges.flatMap fun g => boundBytes g.start ++ boundBytes g.stop

def identityOf (table : String) (authorizations : Authorizations) (ranges : List RowRange) : UInt32 :=
  Crc32.checksum (identityBytes table authorizations ranges)

def identityText (identity : UInt32) : String := String.ofList (Text.padded 16 8 identity.toNat)

variable {σ κ : Type}

def identity (s : Session κ) : UInt32 := identityOf s.table s.authorizations s.ranges

def isOpen (s : Session κ) : Bool := s.cursor.isSome

def same (s t : Session κ) : Bool :=
  s.table = t.table && s.authorizations = t.authorizations && s.ranges = t.ranges

def countDistinct : List (Session κ) → Nat
  | [] => 0
  | s :: ss => (if ss.any s.same then 0 else 1) + countDistinct ss

def tally (s : Session κ) (change : Metrics → Metrics) (w : World σ) : World σ :=
  if s.counted then w.count change else w

def reportOpened (s : Session κ) (w : World σ) : World σ :=
  s.tally Metrics.sessionOpened
    (w.report .sessionOpened
      [("table", s.table), ("ranges", Text.decimal s.ranges.length),
       ("identity", identityText s.identity)])

def reportClosed (s : Session κ) (w : World σ) : World σ :=
  s.tally Metrics.sessionClosed
    (w.report .sessionClosed
      [("table", s.table), ("identity", identityText s.identity),
       ("elapsed_ms", Text.decimal (w.now - s.opened))])

/-- Opens a scan over at least one range. A scan that is refused leaves no trace but in the store. -/
def start (store : ScanStore σ κ) (table : String) (authorizations : Authorizations)
    (ranges : List RowRange) (counted : Bool) (w : World σ) :
    Except ScanError (Session κ) × World σ :=
  if ranges.isEmpty then (.error (.rangesMissing table), w)
  else
    match w.ask (store.openScan table authorizations ranges) with
    | (.error e, w) => (.error e, w)
    | (.ok cursor, w) =>
      let s : Session κ := ⟨table, authorizations, ranges, some cursor, w.now, counted⟩
      (.ok s, s.reportOpened w)

def next (store : ScanStore σ κ) (s : Session κ) (w : World σ) :
    Option (Except ScanError Entry) × Session κ × World σ :=
  match s.cursor with
  | none => (none, s, w)
  | some cursor =>
    let ((item, cursor), w) := w.ask (store.pull cursor)
    (item, { s with cursor := some cursor }, w)

/-- Releases the cursor. A closed session stays as it is. -/
def close (store : ScanStore σ κ) (s : Session κ) (w : World σ) : Session κ × World σ :=
  match s.cursor with
  | none => (s, w)
  | some cursor =>
    let (_, w) := w.ask (store.release cursor)
    let s := { s with cursor := none }
    (s, s.reportClosed w)

end Session
end ShardQuery
