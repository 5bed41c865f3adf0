import ProtoSchema.CommandLine.Run

/-!
# The program

The program looks for the named file, lets the run decide what follows, and prints what the run
leaves behind. The models of a file are known to the library as values; the program does not execute
the text of a file, so it reports a file that is there as one that cannot be loaded.
-/

namespace ProtoSchema

open CommandLine

/-- The file that the arguments name, as far as the program can tell. -/
def namedFile (arguments : List String) : IO FileTree := do
  match parse arguments with
  | .ok (.compile request) =>
    let text? ← try some <$> IO.FS.readFile request.file
      catch
        | .noFileOrDirectory .. => pure none
        | _ => pure (some "")
    return .ofFiles (text?.map fun text =>
      (FilePath.ofText request.file, .source text (.failing "source text is not executed"))).toList
  | _ => return .ofFiles []

/-- Print what a run leaves behind, write its texts, and exit as it does. -/
def conclude (report : Report) : IO UInt32 := do
  IO.print report.stdout
  IO.eprint report.stderr
  for (location, content) in report.files.files do
    if let .text text := content then
      IO.FS.writeFile location.path.text text
  match report.ending with
  | .exit code => return UInt32.ofNat code
  | .refused fault path =>
    IO.eprintln (fault.message path)
    return 1

end ProtoSchema

/-- Run the program in the working directory. -/
def main (arguments : List String) : IO UInt32 := do
  let tree ← ProtoSchema.namedFile arguments
  ProtoSchema.conclude (ProtoSchema.CommandLine.run tree arguments)
