import CoreLocator.Network.Address

/-! The names that a server can be asked for: host names by their labels, and addresses. -/
namespace CoreLocator.ServerName

def dot : UInt8 := 0x2E

def hyphen : UInt8 := 0x2D

def isLabelByte (b : UInt8) : Bool :=
  Ascii.isLetter b || Ascii.isDigit b || b == 0x5F || b == hyphen

def isLabel (label : Bytes) : Bool :=
  !label.isEmpty && decide (label.length ≤ 63) && label.all isLabelByte
    && label.head? != some hyphen && label.getLast? != some hyphen

/-- The labels of a name; a dot may stand behind the last one. -/
def labels (name : Bytes) : List Bytes :=
  let parts := Bytes.splitAt dot name
  if parts.getLast? = some [] then parts.dropLast else parts

/-- A name whose last label is a number would look like an address. -/
def isHostName (name : Bytes) : Bool :=
  decide (name.length ≤ 253) && !(labels name).isEmpty && (labels name).all isLabel
    && !((labels name).getLast?.getD []).all Ascii.isDigit

def isAddress (name : Bytes) : Bool := (Network.Address.ofBytes? name).isSome

def isValid (name : Bytes) : Bool := isHostName name || isAddress name

end CoreLocator.ServerName
