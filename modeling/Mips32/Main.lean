import Mips32.Console.Invocation

namespace Mips32.Console

def printLines (lines : List String) : IO Unit := do
  for line in lines do IO.println line
  (← IO.getStdout).flush

/-- Answers each line as soon as it has been read. `pending` is the start of a line. -/
partial def converse (pending : ByteArray) : IO Unit := do
  let chunk ← (← IO.getStdin).read 4096
  let bytes := pending ++ chunk
  if chunk.isEmpty then
    unless bytes.isEmpty do printLines ((Line.ofBytes bytes.toList).reply .standard).output
  else
    let pieces := bytes.toList.splitOn 10
    for piece in pieces.dropLast do
      let reply := (Line.ofBytes piece).reply .standard
      printLines reply.output
      if reply.quits then return
    converse (pieces.getLast?.getD []).toByteArray

end Mips32.Console

open Mips32 Mips32.Console in
def main (arguments : List String) : IO UInt32 := do
  let arguments := arguments.map String.toList
  if Invocation.parse arguments matches .ok .shell then
    converse .empty
    return 0
  else
    let outcome := Invocation.outcome .standard arguments []
    printLines outcome.output
    return outcome.status
