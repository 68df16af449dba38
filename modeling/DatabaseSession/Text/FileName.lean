namespace DatabaseSession.Text

/-- The parts of a path between slashes, less the empty ones and those that stay in place. -/
def pathParts (path : String) : List String :=
  (path.splitOn "/").filter fun part => part ≠ "" ∧ part ≠ "."

/-- A name up to its last dot; a leading dot does not count. -/
def dropExtension (name : String) : String :=
  let back := name.toList.reverse
  let before := (back.dropWhile (· ≠ '.')).drop 1
  if before.isEmpty then name else String.ofList before.reverse

/-- The file's name without its extension; empty when the path names no file. -/
def fileStem (path : String) : String :=
  match (pathParts path).getLast? with
  | none => ""
  | some name => if name = ".." then "" else dropExtension name

end DatabaseSession.Text
