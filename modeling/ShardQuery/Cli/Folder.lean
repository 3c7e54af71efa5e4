import ShardQuery.Cli.Conversation
/-! # Commands on files in memory

Carries a command's conversation out on named files, a text of input and a moment, all given beforehand. -/

namespace ShardQuery.Cli

/-- Files by path, relative to one folder, and the rest of what a command may ask for. -/
structure Folder where
  files : List (String × String) := []
  input : String := ""
  now : Instant := default
deriving Inhabited

namespace Folder

def parts (path : String) : List String :=
  (Text.fieldsOf '/' path).filter fun p => !p.isEmpty && p ≠ "."

def namesFolder (path : String) : Bool :=
  match (Text.fieldsOf '/' path).getLast? with
  | some last => last.isEmpty || last = "."
  | none => false

/-- True of a path that is too long to be looked up, as a whole or in its first name. -/
def isTooLong (path : String) : Bool :=
  4096 ≤ Text.byteLength path.toList ||
    (parts path).head?.any fun name => 255 < Text.byteLength name.toList

/-- What is at a path. Of what lies outside, only the folders above and the root are known. -/
def read (d : Folder) (path : String) : FileOutcome :=
  let wanted := parts path
  let missing : FileOutcome := .unopened "No such file or directory (os error 2)"
  let folder : FileOutcome := .unread "Is a directory (os error 21)"
  let noFolder : FileOutcome := .unopened "Not a directory (os error 20)"
  if path.isEmpty then missing
  else if path.toList.contains '\x00' then
    .unopened "file name contained an unexpected NUL byte"
  else if isTooLong path then .unopened "File name too long (os error 36)"
  else if wanted.all (· = "..") then folder
  else if path.toList.head? = some '/' then missing
  else
    match d.files.find? fun f => parts f.1 = wanted with
    | some f => if namesFolder path then noFolder else .text f.2
    | none =>
      if d.files.any fun f => (parts f.1).isPrefixOf wanted then noFolder
      else if d.files.any fun f => wanted.isPrefixOf (parts f.1) then folder
      else missing

def converse (d : Folder) : Conversation → Except Error Json × Log
  | .done result log => (result, log)
  | .readFile path next => d.converse (next (d.read path))
  | .readInput next => d.converse (next (.ok d.input))
  | .readClock next => d.converse (next d.now)

end Folder
end ShardQuery.Cli
