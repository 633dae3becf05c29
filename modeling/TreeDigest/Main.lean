import TreeDigest.CommandLine.Program
import TreeDigest.Host.Image

/-!
The command line.

The program runs on a machine that is described on standard input, so a run can be
repeated exactly. It prints what it would print there and ends with its exit code; a
description that cannot be read is reported with exit code 3.
-/

namespace TreeDigest.CommandLine

/-- The text so far and all that is left to read. -/
partial def readAll (input : IO.FS.Stream) (text : String) : IO String := do
  let line ← input.getLine
  if line.isEmpty then return text else readAll input (text ++ line)

end TreeDigest.CommandLine

open TreeDigest

/-- Runs the program. -/
def main (args : List String) : IO UInt32 := do
  let description ← CommandLine.readAll (← IO.getStdin) ""
  match (Json.parse? description).bind Host.ofJson? with
  | none =>
    (← IO.getStderr).putStrLn "the description of the machine cannot be read"
    return 3
  | some host =>
    let exit := (CommandLine.Program.run host args).1
    (← IO.getStdout).putStr exit.stdout
    (← IO.getStderr).putStr exit.stderr
    return exit.code.toUInt32
