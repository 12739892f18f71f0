/-!
# Failures of file operations

`FileError` lists the reasons for which a file or directory cannot be read, written or made.
Those that the operating system reports carry its number in their text.
-/

namespace TwinSudoku

/-- Why an operation on a file or directory failed. -/
inductive FileError
  /-- Nothing has this name, or a directory on the way is missing. -/
  | notFound
  /-- Something with this name is in the way of a new directory. -/
  | alreadyExists
  /-- A file stands where a directory is needed. -/
  | notDirectory
  /-- A directory stands where a file is needed. -/
  | isDirectory
  /-- A part of the name is too long. -/
  | nameTooLong
  /-- The name holds a zero character. -/
  | zeroInName
  /-- The bytes of the file are no text. -/
  | notText
  /-- Any other failure, with the text of its report. -/
  | other (report : String)
deriving DecidableEq

namespace FileError

/-- A failure reported by the operating system under a number. -/
def numbered (report : String) (number : Nat) : String :=
  report ++ " (os error " ++ toString number ++ ")"

/-- The text of a failure. -/
def message : FileError → String
  | notFound => numbered "No such file or directory" 2
  | alreadyExists => numbered "File exists" 17
  | notDirectory => numbered "Not a directory" 20
  | isDirectory => numbered "Is a directory" 21
  | nameTooLong => numbered "File name too long" 36
  | zeroInName => "file name contained an unexpected NUL byte"
  | notText => "stream did not contain valid UTF-8"
  | other report => report

/-- The failure that the operating system reports under a number. -/
def ofNumber (number : Nat) (report : String) : FileError :=
  match number with
  | 2 => notFound
  | 17 => alreadyExists
  | 20 => notDirectory
  | 21 => isDirectory
  | 36 => nameTooLong
  | _ => other (numbered report number)

end FileError

end TwinSudoku
