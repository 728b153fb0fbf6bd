/-
  The faults of a file system, with the wording of each (`Fault.message`).
-/

namespace SongLibrary

/-- Why an operation on files fails. -/
inductive Fault where
  | notFound
  | busy
  | alreadyExists
  /-- A file would get onto another device. -/
  | crossesDevices
  | notADirectory
  | isADirectory
  | invalid
  | nameTooLong
  | notEmpty
  /-- A name holds a NUL character. -/
  | nulInName
  /-- What is to be copied is no file. -/
  | notRegular
  /-- What is to be read as text is no text. -/
  | notText
  /-- Any other fault, in words. -/
  | other (message : String)
  deriving DecidableEq, Repr

/-- The wording of a fault. -/
def Fault.message : Fault → String
  | notFound => "No such file or directory (os error 2)"
  | busy => "Device or resource busy (os error 16)"
  | alreadyExists => "File exists (os error 17)"
  | crossesDevices => "Invalid cross-device link (os error 18)"
  | notADirectory => "Not a directory (os error 20)"
  | isADirectory => "Is a directory (os error 21)"
  | invalid => "Invalid argument (os error 22)"
  | nameTooLong => "File name too long (os error 36)"
  | notEmpty => "Directory not empty (os error 39)"
  | nulInName => "file name contained an unexpected NUL byte"
  | notRegular => "the source path is neither a regular file nor a symlink to a regular file"
  | notText => "stream did not contain valid UTF-8"
  | other message => message

end SongLibrary
