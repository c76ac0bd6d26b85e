import DebugSymbols.Command.Report

namespace DebugSymbols

structure Outcome where
  code : UInt32
  stdout : String := ""
  stderr : String := ""
deriving DecidableEq, Repr

namespace Outcome

def versionText : String := "symstore 0.3.2"

def usageText : String :=
  "Usage: symstore [OPTIONS] <info|sources|methods|lines|lookup|scopes> FILE"

def ofLines (lines : List String) : String := String.join (lines.map fun line => line ++ "\n")

/-- Inspects a file, given its contents or the reason why it has none. -/
def ofInvocation [Build] (i : Invocation) (contents : Except Error Bytes) : Outcome :=
  let file := (contents.bind SymbolFile.open?).mapError (Failure.ofOpening i.path)
  let report := file.bind fun f => Report.ofCommand f i.command
  match report with
  | .error failure => { code := failure.code, stderr := failure.text }
  | .ok report =>
    { code := 0
      stdout := if i.json then ofLines [report.document.text] else ofLines report.text }

/-- Answers a command line; `read` gives the contents of files. -/
def ofArguments [Build] (args : List String) (read : String → Except Error Bytes) : Outcome :=
  match Arguments.parse args with
  | .version => { code := 0, stdout := ofLines [versionText] }
  | .help => { code := 0, stdout := ofLines [usageText] }
  | .invalid => { code := 2, stderr := usageText }
  | .run i => ofInvocation i (read i.path)

end Outcome

end DebugSymbols
