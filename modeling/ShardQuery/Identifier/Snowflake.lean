import ShardQuery.Identifier.Error
import ShardQuery.Power
import ShardQuery.Text.Fields
/-! # Snowflake bases

One segment of 24 lower-case hexadecimal digits: a machine of 20 bits, a millisecond of 44 bits and a
counter of 32 bits. -/

namespace ShardQuery

abbrev MachineId := Fin (2 ^ 20)

instance MachineId.transOrd : Std.TransOrd MachineId := Fin.instTransOrd _

instance MachineId.lawfulEqOrd : Std.LawfulEqOrd MachineId := Fin.instLawfulEqOrd _

def MachineId.check (value : Int) : Except IdentifierError MachineId :=
  match value with
  | .ofNat n =>
    if h : n < 2 ^ 20 then .ok ⟨n, h⟩ else .error (.configuration (.machineOutOfRange value))
  | .negSucc _ => .error (.configuration (.machineOutOfRange value))

def MachineId.require : Option Int → Except IdentifierError MachineId
  | some value => check value
  | none => .error (.configuration .machineMissing)

/-- A machine, a millisecond since the epoch and a counter within it. -/
structure Snowflake where
  machine : MachineId
  millis : Fin (2 ^ 44)
  counter : UInt32
deriving DecidableEq, Inhabited

namespace Snowflake

abbrev order : Snowflake → Snowflake → Ordering :=
  compareLex (compareOn machine) <| compareLex (compareOn millis) (compareOn counter)

instance : Ord Snowflake := ⟨order⟩

/-- The base of a machine at a millisecond, which has to fit 44 bits. -/
def make (machine : MachineId) (millis : UInt64) (counter : UInt32) : Except IdentifierError Snowflake :=
  if h : millis.toNat < 2 ^ 44 then .ok ⟨machine, ⟨millis.toNat, h⟩, counter⟩
  else .error (.configuration (.beyondRange millis.toNat))

def timeOfDay (b : Snowflake) : Nat := b.millis.val % millisPerDay

def width : Nat := 24

def chars (b : Snowflake) : List Char :=
  Text.padded 16 5 b.machine.val ++ Text.padded 16 11 b.millis.val ++ Text.padded 16 8 b.counter.toNat

def text (b : Snowflake) : String := String.ofList b.chars

def read? (part : List Char) : Option Snowflake :=
  if part.length = width then do
    let machine ← Text.readNat? 16 (part.take 5)
    let millis ← Text.readNat? 16 ((part.drop 5).take 11)
    let counter ← Text.readNat? 16 (part.drop 16)
    if h : machine < 2 ^ 20 ∧ millis < 2 ^ 44 then
      some ⟨⟨machine, h.1⟩, ⟨millis, h.2⟩, UInt32.ofNat counter⟩
    else none
  else none

end Snowflake
end ShardQuery
