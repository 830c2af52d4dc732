import SketchLang.Command

namespace SketchLang

partial def readAll (stream : IO.FS.Stream) (input : ByteArray) : IO ByteArray := do
  let bytes ← stream.read 65536
  if bytes.isEmpty then
    return input
  else
    readAll stream (input ++ bytes)

end SketchLang

open SketchLang in
def main (args : List String) : IO UInt32 := do
  let input ← match Command.lineMode args with
    | .ok _ => readAll (← IO.getStdin) .empty
    | .error _ => pure .empty
  let outcome := Command.run args input
  (← IO.getStdout).putStr outcome.stdout
  (← IO.getStderr).putStr outcome.stderr
  return outcome.exitCode
