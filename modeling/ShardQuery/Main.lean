import ShardQuery.Cli.Conversation
import Std.Time.DateTime.Timestamp
/-! # The command line

Carries a command's conversation out on the real files, input and clock, and exits with its code. -/

namespace ShardQuery.Cli

def usage : String :=
  "usage: shardscan uid new [--config PATH] [--timestamp TIME] [--extra PART]... CONTENT\n" ++
  "       shardscan uid parse [--max-extra-parts N] UID\n" ++
  "       shardscan holes check [--config PATH] [--holes PATH] --field NAME --start DAY --end DAY\n" ++
  "                             (--value V | --lower L --upper U)\n" ++
  "       shardscan normalize [--config PATH]"

def failureWords : IO.Error → String
  | .noFileOrDirectory .. => "No such file or directory (os error 2)"
  | .permissionDenied .. => "Permission denied (os error 13)"
  | .inappropriateType .. => "Is a directory (os error 21)"
  | e => toString e

def decoded (bytes : ByteArray) : Except String String :=
  match String.fromUTF8? bytes with
  | some s => .ok s
  | none => .error "stream did not contain valid UTF-8"

def readFile (path : String) : IO FileOutcome := do
  match ← (IO.FS.Handle.mk path .read).toBaseIO with
  | .error e => return .unopened (failureWords e)
  | .ok handle =>
    match ← handle.readBinToEnd.toBaseIO with
    | .error e => return .unread (failureWords e)
    | .ok bytes =>
      match decoded bytes with
      | .error reason => return .unread reason
      | .ok s => return .text s

partial def readRest (input : IO.FS.Stream) (read : ByteArray) : IO ByteArray := do
  let more ← input.read 65536
  if more.isEmpty then return read else readRest input (read ++ more)

def readInput : IO (Except String String) := do
  match ← (readRest (← IO.getStdin) .empty).toBaseIO with
  | .error e => return .error (failureWords e)
  | .ok bytes => return decoded bytes

def readClock : IO Instant := do
  let time ← Std.Time.Timestamp.now
  return Instant.ofNanos time.toNanosecondsSinceUnixEpoch.val

def converse : Conversation → IO (Except Error Json × Log)
  | .done result log => return (result, log)
  | .readFile path next => do converse (next (← readFile path))
  | .readInput next => do converse (next (← readInput))
  | .readClock next => do converse (next (← readClock))

end ShardQuery.Cli

open ShardQuery.Cli in
def main (args : List String) : IO UInt32 := do
  match Command.parse? args with
  | none =>
    IO.eprintln usage
    return refusedCode
  | some command =>
    let (result, log) ← converse (command.run initialLog)
    for line in diagnostics result log do
      IO.eprintln line
    IO.println (response result)
    return exitCode result
