import ClassWeave.Command.Program

/-!
# The command line

The program works on a file tree, so what the arguments name is read beforehand, and what has
changed is written back afterwards.  A file is written beside the one that it replaces and then
takes its place.

* `readPath` : a tree with what stands at a path and below it.
* `writePlace` : a file written back.
-/

namespace ClassWeave

namespace Main

/-- Where `place` is. -/
def locationOf (place : Place) := System.mkFilePath ("/" :: place)

/-- The tree `t` with the `entries` of the directory at `place`. -/
partial def readBelow (t : FileTree) (place : Place) (entries : Array IO.FS.DirEntry) :
    IO FileTree :=
  entries.foldlM (fun t e => do
    let place := place ++ [e.fileName]
    if ← e.path.isDir then readBelow (t.addDirectory place) place (← e.path.readDir)
    else return t.addFile place (← IO.FS.readBinFile e.path).data.toList) t

/-- The tree `t` with what stands at `place`, if there is something. -/
def readPlace (t : FileTree) (place : Place) : IO FileTree := do
  let location := locationOf place
  if ← location.isDir then return t.addDirectory place
  else if ← location.pathExists then
    return t.addFile place (← IO.FS.readBinFile location).data.toList
  else return t

/-- The tree `t` with what stands at the path `text`, on the way to it and below it. -/
def readPath (t : FileTree) (text : String) : IO FileTree := do
  let place := t.placeOf (.ofText text)
  let t ← (FileTree.placesTo place).foldlM readPlace t
  if t.entry? place = some .directory then
    readBelow t place (← (locationOf place).readDir)
  else return t

/-- Writes `data` to the file at `place`. -/
def writePlace (place : Place) (data : Bytes) : IO Unit := do
  let location := locationOf place
  let staging := location.toString ++ Directory.stagingSuffix
  IO.FS.writeBinFile staging ⟨data.toArray⟩
  IO.FS.rename staging location

end Main

end ClassWeave

open ClassWeave in
/-- Runs the program on the files that the arguments name. -/
def main (arguments : List String) : IO UInt32 := do
  let here := Path.components (Path.ofText (← IO.currentDir).toString).segments
  let start := FileTree.addDirectory { here } here
  let before ← match Invocation.ofArguments arguments with
    | .run _ _ request => request.paths.foldlM Main.readPath start
    | _ => pure start
  let (answer, after) := Program.run arguments before
  for (place, data) in after.filesSince before do
    Main.writePlace place data
  IO.print answer.output
  match answer.failure?, answer.exit with
  | some failure, _ => IO.eprintln failure.text
  | none, .misuse => IO.eprint (Program.unlines (Program.help .outer))
  | none, _ => pure ()
  return UInt32.ofNat answer.exit.toNat
