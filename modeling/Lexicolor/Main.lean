/-
The program. Its files are those on the disk, and its environment is the one it was started in.
-/
import Lexicolor.CommandLine

namespace Lexicolor

/-- What a path leads to on the disk. -/
def diskEntry (path : String) : IO Files.Entry := do
  try
    return .file (← IO.FS.readBinFile path)
  catch
    | .noFileOrDirectory _ _ _ => return .missing
    | .inappropriateType _ code _ => return if code == 21 then .directory else .notDirectory
    | e => throw e

/-- The name and the text of a variable. -/
def variableOf (bytes : ByteArray) : Option (String × String) :=
  (String.fromUTF8? bytes).map fun s =>
    let cs := s.toList
    (String.ofList (cs.takeWhile (· != '=')), String.ofList ((cs.dropWhile (· != '=')).drop 1))

/-- The variables of an environment; each ends with a zero byte. -/
def variablesOf (bytes : ByteArray) : List (String × String) :=
  let step := fun (done, here) (b : UInt8) =>
    if b == 0 then (here :: done, ByteArray.empty) else (done, here.push b)
  let (pieces, _) := bytes.toList.foldl step (([] : List ByteArray), ByteArray.empty)
  pieces.reverse.filterMap variableOf

end Lexicolor

def main (args : List String) : IO UInt32 := do
  let environment ← IO.FS.readBinFile "/proc/self/environ"
  let report ← Lexicolor.CommandLine.run Lexicolor.diskEntry (Lexicolor.variablesOf environment) args
  (← IO.getStdout).putStr report.output
  (← IO.getStderr).putStr report.errors
  return report.code.toUInt32
