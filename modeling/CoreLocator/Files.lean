import CoreLocator.Bytes

/-! Files by path, and the ways in which one cannot be read. -/
namespace CoreLocator

inductive Files.Fault
  | notFound
  | isDirectory
  | notDirectory
  | nameTooLong
  | nulInName
  /-- A fault in the words of whoever reports it. -/
  | reported (text : String)
  deriving DecidableEq, Repr

def Files.Fault.message : Files.Fault → String
  | notFound => "No such file or directory (os error 2)"
  | isDirectory => "Is a directory (os error 21)"
  | notDirectory => "Not a directory (os error 20)"
  | nameTooLong => "File name too long (os error 36)"
  | nulInName => "file name contained an unexpected NUL byte"
  | reported text => text

class Files (m : Type → Type) where
  read : String → m (Except Files.Fault Bytes)

end CoreLocator
