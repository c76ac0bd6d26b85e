import DebugSymbols.Command.Outcome

open DebugSymbols

def readContents (path : String) : IO (Except Error Bytes) := do
  try
    let contents ← IO.FS.readBinFile path
    pure (.ok contents.data)
  catch _ => pure (.error (.file .missing))

def main (args : List String) : IO UInt32 := do
  let contents ← match Arguments.parse args with
    | .run i => readContents i.path
    | _ => pure (.error (.file .missing))
  let outcome := @Outcome.ofArguments .debug args fun _ => contents
  IO.print outcome.stdout
  if !outcome.stderr.isEmpty then IO.eprintln outcome.stderr
  pure outcome.code
