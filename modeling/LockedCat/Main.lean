import LockedCat.Program
import Std.Async.DNS
import Std.Time.DateTime

/-!
# The program on a machine

The outermost layer: it takes what a command line asks for from the network and the file system,
under a lock of the operating system, and hands it to the program.
-/

namespace LockedCat.Main

/-- The present moment. -/
def now : IO Moment := do
  let t := Std.Time.PlainDateTime.ofWallTime (.ofTimestamp (← Std.Time.Timestamp.now) .zero)
  return {
    year := t.year.toInt.toNat, month := t.month.toNat, day := t.day.toNat
    hour := t.hour.toNat, minute := t.minute.toNat, second := t.second.toNat
    microsecond := t.nanosecond.toNat / 1000 }

/-- An address as the operating system has it. -/
def address : Std.Net.IPAddr → Address
  | .v4 a => .v4 (a.octets.toList.foldl (fun n b => n * 256 + b.toNat) 0)
  | .v6 a => .v6 (a.segments.toList.map (·.toNat))

/-- The addresses of a host. Others are asked only if the machine does not know it by itself. -/
def resolve (host : String) : IO (Except Chain (List Address)) := do
  match Host.resolve host with
  | .ok addresses => return .ok addresses
  | .error c =>
      try
        return .ok ((← (Std.Async.DNS.getAddrInfo host "").block).toList.map address)
      catch _ => return .error c

/-- The addresses of the machine's interfaces. -/
def interfaces : IO (Except IoError (List Address)) := do
  try
    return .ok ((← Std.Net.interfaceAddresses).toList.map fun i => address i.address)
  catch e => return .error (.custom .other (toString e))

/-- What the machine answers about the network when it is asked for one host. -/
def network (host : String) : IO Network := do
  let answer ← resolve host
  return {
    resolve := fun other => if other = host then answer else Host.resolve other
    interfaces := ← interfaces }

/-- Whether there is a directory with this path, and whether there is anything. -/
def inspect (path : String) : IO (Option Bool) := do
  try
    let real ← IO.FS.realPath path
    if ← real.pathExists then return some (← real.isDir) else return none
  catch _ => return none

/-- The nodes below a root on the way along some names. -/
def load (root : String) (here : List String) : List String → Tree → IO Tree
  | [], t => return t
  | name :: rest, t => do
      let names := here ++ [name]
      let path := names.foldl Path.join root
      match ← inspect path with
      | none => return t
      | some true => load root names rest (t.makeDirectories here [name])
      | some false =>
          let bytes ← IO.FS.readBinFile path
          return (t.put ⟨names, false⟩ bytes.data).toOption.getD t

/-- Locks a file for writing unless someone else has. -/
def tryLock (path : String) : IO (Option IO.FS.Handle) := do
  try
    let h ← IO.FS.Handle.mk path .readWrite
    if ← h.tryLock true then return some h else return none
  catch _ => return none

/-- What the program needs to know of a file system to run a command on a locator, and the lock
on the file. -/
def prepare (root : String) (url : Locator) : IO (Export.State × Option IO.FS.Handle) := do
  let empty : Export.State := { root := root, now := ← now, network := ← network url.lookupHost }
  match Export.reach empty.network url, Export.Volume.names url.path with
  | .error _, _ => return (empty, none)
  | .ok (), .error _ => return ({ empty with tree := ← load root [] [url.volume] {} }, none)
  | .ok (), .ok names =>
      let names := url.volume :: names
      let path := names.foldl Path.join root
      if (← inspect path) = some false then
        let lock ← tryLock path
        let s := { empty with tree := ← load root [] names {} }
        return (if lock.isSome then s else s.hold url .write, lock)
      else return ({ empty with tree := ← load root [] names {} }, none)

/-- The lock on the file that a command names and what the program does with it. -/
def start (words : List Text.Glyphs) : IO (Program.Ending × Option IO.FS.Handle) := do
  let root := Config.exportRoot (← IO.getEnv Config.exportVariable)
  let (s, lock) ← match Command.parse words false with
    | .ok ⟨.locator url, _, _, _⟩ => prepare root url
    | _ => pure ({ root := root, now := ← now }, none)
  return (Program.run words none s, lock)

def run (args : List String) : IO UInt32 := do
  let (ending, lock) ← start ((CommandLine.commandName :: args).map Text.Glyphs.ofString)
  let stdout ← IO.getStdout
  stdout.write ⟨ending.stdout.toArray⟩
  stdout.flush
  (← IO.getStderr).putStr ending.stderr
  if let some h := lock then h.unlock
  return ending.exitCode.toUInt32

end LockedCat.Main

def main (args : List String) : IO UInt32 := LockedCat.Main.run args
