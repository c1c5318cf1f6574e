import Phrasing.Program

/-!
# `Phrasing.Main` — the command line

Looks at the files that the arguments name, runs the program on what is there, and shows what the
run comes to.
-/

namespace Phrasing

/-- What stands at a path, as the system sees it. Faults that have no name here are not caught. -/
def entryAt (path : Text) : IO (Except FileFault Entry) := do
  if path.contains '\x00' then return .error .nullInName
  if path.isEmpty then return .error .notFound
  try
    return .ok (.file (← IO.FS.readBinFile (String.ofList path)))
  catch fault =>
    match fault with
    | .noFileOrDirectory .. => return .error .notFound
    | .inappropriateType _ code _ =>
        if code == 21 then return .ok .directory else return .error .notADirectory
    | .invalidArgument _ code _ => if code == 36 then return .error .nameTooLong else throw fault
    | _ => throw fault

end Phrasing

open Phrasing in
/-- Runs the program on its arguments. -/
def main (arguments : List String) : IO UInt32 := do
  let invocation := Invocation.ofArguments (arguments.map String.toList)
  let seen ← invocation.paths.mapM fun path => return (path, ← entryAt path)
  let files : Files := fun path => (seen.lookup path).getD (.error .notFound)
  let filter ← IO.getEnv "RUST_LOG"
  let ending := invocation.run (filter.map String.toList) files
  IO.eprint (String.ofList ending.diagnostics)
  IO.print (String.ofList ending.written)
  return ending.code.toUInt32
