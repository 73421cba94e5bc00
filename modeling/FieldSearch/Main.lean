import FieldSearch.Command.Response

/-!
The program. It reads a file, asks for the response to its command, shows the log and prints the text
or writes it to a file. The log is set by the variable `SEARCH_LOG`, to `info` without it.
-/

namespace FieldSearch.Program

def readText (path : String) : IO (Except FileFault String) := do
  let bytes ← (some <$> IO.FS.readBinFile path) <|> pure none
  return textOfBytes bytes

def writeText (path text : String) : IO (Except FileFault Unit) :=
  (do IO.FS.writeFile path text; return .ok ()) <|> return .error .missing

/-- Shows the lines that the log is set to. -/
def showLog (lines : List LogLine) : IO Unit := do
  let setting := (← IO.getEnv "SEARCH_LOG").getD Level.info.name
  match Level.ofName? setting with
  | none => return
  | some level =>
    for line in lines do
      if level.shows line.level then IO.eprintln line.text

def endOf (command : Command) : IO Ending := do
  let text ← match command.source? with
    | some path => readText path
    | none => pure (.ok "")
  let response := Response.ofCommand command text
  showLog response.log
  match command.destination?, response.result with
  | some path, .ok json => return .written response (← writeText path json)
  | _, _ => return .printed response

end FieldSearch.Program

open FieldSearch in
def main (arguments : List String) : IO UInt32 := do
  match Command.ofArguments? arguments with
  | none =>
    IO.eprintln "usage: compile --definition FILE [--query TEXT] [--output FILE]"
    IO.eprintln "       ast --query TEXT"
    IO.eprintln "       fields --definition FILE"
    return 2
  | some command =>
    let ending ← Program.endOf command
    IO.print ending.output
    IO.eprint ending.errors
    return ending.code.toUInt32
