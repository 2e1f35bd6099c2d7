import Logicless.CommandLine

namespace Logicless

/-!
The program: carries the command line out on the real file system.

A run is computed from a file tree and reports the paths that it looks at. The tree begins empty; as
long as a run looks at paths that have not been read yet, they are read and the run is computed
again.
-/

def observe (tree : FileTree) (place : Place) : IO FileTree := do
  match ← (IO.FS.readBinFile (Path.ofPlace place).toString).toBaseIO with
  | .ok content => return tree.set place (.file content.toList)
  | .error (.inappropriateType ..) => return tree.set place .directory
  | .error _ => return tree

def observePath (directory : Place) (tree : FileTree) (path : String) : IO FileTree := do
  let segments := (Path.ofString path).segmentsFrom directory
  (List.range segments.length).foldlM (fun tree (count : Nat) =>
    observe tree (Place.normalize (segments.take (count + 1)))) tree

def consulted (outcome : CommandLine.Outcome) : List String :=
  outcome.reports.filterMap fun event =>
    match event with
    | .consulted path => some path
    | _ => none

/-- Limits that no template comes near by itself. -/
def usualLimits : CommandLine.Limits := ⟨1000, 2000⟩

partial def carryOut (arguments : List String) (known : List String)
    (surroundings : CommandLine.Surroundings) : IO CommandLine.Outcome := do
  let outcome := CommandLine.run usualLimits arguments surroundings
  match (consulted outcome).filter fun path => !known.contains path with
  | [] => return outcome
  | missing => do
      let tree ← missing.foldlM (observePath surroundings.directory) surroundings.tree
      carryOut arguments (missing ++ known) { surroundings with tree }

partial def readAll (stream : IO.FS.Stream) (read : ByteArray) : IO ByteArray := do
  let chunk ← stream.read 65536
  if chunk.isEmpty then return read else readAll stream (read ++ chunk)

def wantsInput (arguments : List String) : Bool :=
  match CommandLine.Request.ofArguments arguments with
  | .ok request => request.data == some "-"
  | .error _ => false

end Logicless

open Logicless in
def main (arguments : List String) : IO UInt32 := do
  let directory := Place.normalize ((Path.ofString (← IO.currentDir).toString).segmentsFrom [])
  let debug := ((← IO.getEnv "STACHE_DEBUG").getD "") != ""
  let input ←
    if wantsInput arguments then readAll (← IO.getStdin) .empty else pure .empty
  let text := String.ofList (Text.decodeLossy input.toList)
  let surroundings : CommandLine.Surroundings := ⟨.empty, directory, text, debug, .standard⟩
  let outcome ← carryOut arguments [] surroundings
  let errors ← IO.getStderr
  errors.putStr (outcome.notes (CommandLine.wantsDebug arguments surroundings))
  match outcome.ending with
  | .stopped .misuse => errors.putStr CommandLine.usage
  | .failed fault => errors.putStr (fault.line ++ "\n")
  | _ => pure ()
  (← IO.getStdout).putStr outcome.output
  return (outcome.code?.getD 1).toUInt32
