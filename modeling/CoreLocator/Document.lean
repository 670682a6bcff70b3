import CoreLocator.Failure
import CoreLocator.Json.Lookup

/-! The discovery document: UTF-8 text that is one JSON value. Only the first group, its first core
and its first authority count. -/
namespace CoreLocator.Document

/-- Accepts a document, which stays as it is. -/
def validate (document : Bytes) : Except DocumentDefect Unit :=
  match Utf8.decode document with
  | .error fault => .error (.notUtf8 fault)
  | .ok _ =>
    match Json.check document with
    | .error fault => .error (.notJson (fault.diagnose document))
    | .ok () => .ok ()

/-- The text at a path, without quotes if it is a string. -/
def search? (document : Bytes) (path : String) : Option Bytes :=
  (Json.search? document (.ofString path)).map (·.text)

def require (document : Bytes) (path : String) : Except Failure Bytes :=
  match search? document path with
  | none => .error (.fieldNotFound path)
  | some value => .ok value

def certificatePath : String := "GGGroups[0].CAs[0]"
def groupIdPath : String := "GGGroups[0].GGGroupId"
def corePath : String := "GGGroups[0].Cores[0]"
def coreArnPath : String := s!"{corePath}.thingArn"
def hostPath (index : Nat) : String := s!"{corePath}.Connectivity[{index}].HostAddress"
def portPath (index : Nat) : String := s!"{corePath}.Connectivity[{index}].PortNumber"

end CoreLocator.Document
