import CoreLocator.Files

/-! One directory of files, with no other directory below it, as all the files that there are. The
directories above it can be reached, and hold nothing. -/
namespace CoreLocator

structure Directory where
  files : List (String × Bytes)

namespace Directory

def find? (d : Directory) (name : String) : Option Bytes :=
  (d.files.find? fun (n, _) => n == name).map Prod.snd

/-- A name longer than this is refused. -/
def maxNameSize : Nat := 255

/-- A path that is this long or longer is refused. -/
def pathSizeLimit : Nat := 4096

/-- Parts of a path that lead nowhere else. -/
def staysHere (name : String) : Bool := name == "" || name == "."

/-- Every directory above, and the root above them all, which is above itself. -/
def above : Directory := ⟨[]⟩

/-- The file at the end of the parts of a path. -/
def follow (d : Directory) : List String → Except Files.Fault Bytes
  | [] => .error .isDirectory
  | name :: rest =>
    if staysHere name then follow d rest
    else if name == ".." then follow above rest
    else if maxNameSize < name.utf8ByteSize then .error .nameTooLong
    else match d.find? name with
      | none => .error .notFound
      | some content => if rest.isEmpty then .ok content else .error .notDirectory

def read (d : Directory) (path : String) : Except Files.Fault Bytes :=
  if path.toList.contains '\x00' then .error .nulInName
  else if path.isEmpty then .error .notFound
  else if pathSizeLimit ≤ path.utf8ByteSize then .error .nameTooLong
  else match path.splitOn "/" with
    | "" :: rest => above.follow rest
    | parts => d.follow parts

end Directory

instance {m : Type → Type} [Monad m] : Files (ReaderT Directory m) where
  read path := do return (← ReaderT.read).read path

end CoreLocator
