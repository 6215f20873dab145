import ForeignBridge.CommandLine

/-! # The command-line program

Finds the manifest, runs the command and writes its output. -/

open ForeignBridge CommandLine

/-- Looks for the manifest in a directory, given by its parts, and above it. -/
def findManifest : List String → IO ManifestFile
  | [] => return .missing
  | part :: above => do
    let directory := "/".intercalate (part :: above).reverse
    let path := directory ++ "/" ++ manifestName
    try
      return .found (if directory.isEmpty then "/" else directory) path (← IO.FS.readFile path)
    catch
      | .noFileOrDirectory .. => findManifest above
      | .inappropriateType .. => findManifest above
      | e => return .unreadable path (toString e)

def main (args : List String) : IO UInt32 := do
  let directory := toString (← IO.currentDir)
  let result := run (← findManifest (directory.splitOn "/").reverse) (Request.ofArguments args)
  (← IO.getStdout).putStr result.output
  (← IO.getStderr).putStr result.errors
  return UInt32.ofNat result.code
