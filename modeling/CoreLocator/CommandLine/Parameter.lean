import CoreLocator.CommandLine.Arguments

/-! The options and switches of the command line, by their names, and the values that options
take. -/
namespace CoreLocator.CommandLine

/-- Why a command line is not followed. -/
inductive Stop
  | help
  | version
  | unknownArgument
  | missingValue
  | unwantedValue
  | invalidValue
  | repeated
  deriving DecidableEq, Repr

/-- Reads an option's value. -/
abbrev ValueReader (α : Type) := String → Except Stop α

namespace ValueReader

def text : ValueReader String := .ok

/-- An empty path is as good as none. -/
def path : ValueReader String := fun value =>
  if value.isEmpty then .error .missingValue else .ok value

def ofOption {α : Type} (read? : String → Option α) : ValueReader α := fun value =>
  match read? value with
  | none => .error .invalidValue
  | some a => .ok a

def format : ValueReader Report.Format := ofOption Report.Format.ofName?

/-- A number below `limit`. -/
def natural (limit : Nat) : ValueReader Nat :=
  ofOption fun value => Decimal.whole? limit (.ofString value)

/-- A minus sign and zeros. -/
def isNegativeZero (value : Bytes) : Bool :=
  match value with
  | 0x2D :: digits => !digits.isEmpty && digits.all (· == 0x30)
  | _ => false

/-- A number below `limit`, read as one that may have either sign. -/
def signed (limit : Nat) : ValueReader Nat :=
  ofOption fun value =>
    if isNegativeZero (.ofString value) then some 0
    else Decimal.whole? limit (.ofString value)

end ValueReader

/-- What is to be done about an argument. -/
inductive Meaning
  | stop (reason : Stop)
  | switch (turnOn : Arguments → Except Stop Arguments)
  | option (put : String → Arguments → Except Stop Arguments)

structure Parameter where
  long : String
  short : Option Char
  meaning : Meaning

namespace Parameter

/-- An option that may be given once. -/
def option {α : Type} (long : String) (short : Option Char) (read : ValueReader α)
    (given : Arguments → Option α) (put : α → Arguments → Arguments) : Parameter where
  long := long
  short := short
  meaning := .option fun value a =>
    if (given a).isSome then .error .repeated else (read value).map (put · a)

/-- A switch that may be turned on once. -/
def switch (long : String) (given : Arguments → Bool) (turnOn : Arguments → Arguments) :
    Parameter where
  long := long
  short := none
  meaning := .switch fun a => if given a then .error .repeated else .ok (turnOn a)

def all : List Parameter :=
  [option "config" (some 'c') .path (·.config) fun v a => { a with config := some v },
   option "endpoint" (some 'e') .text (·.endpoint) fun v a => { a with endpoint := some v },
   option "port" (some 'p') (.signed UInt16.size) (·.port.map UInt16.toNat) fun n a =>
      { a with port := some n.toUInt16 },
   option "thing-name" (some 't') .text (·.thingName) fun v a => { a with thingName := some v },
   option "interface" (some 'i') (.natural UInt64.size) (·.interface.map UInt64.toNat) fun n a =>
      { a with interface := some n.toUInt64 },
   option "buffer-size" none (.natural UInt64.size) (·.bufferSize.map UInt64.toNat) fun n a =>
      { a with bufferSize := some n.toUInt64 },
   option "root-ca" none .path (·.rootCa) fun v a => { a with rootCa := some v },
   option "cert" none .path (·.cert) fun v a => { a with cert := some v },
   option "key" none .path (·.key) fun v a => { a with key := some v },
   option "attempts" none (.signed UInt32.size) (·.attempts.map UInt32.toNat) fun n a =>
      { a with attempts := some n.toUInt32 },
   option "retry-wait-ms" none (.natural UInt64.size) (·.retryWait.map UInt64.toNat) fun n a =>
      { a with retryWait := some n.toUInt64 },
   switch "plain" (·.plain) fun a => { a with plain := true },
   option "ca-out" none .path (·.caOut) fun v a => { a with caOut := some v },
   option "format" (some 'f') .format (·.format) fun v a => { a with format := some v },
   option "log-level" none .text (·.logLevel) fun v a => { a with logLevel := some v },
   ⟨"help", some 'h', .stop .help⟩,
   ⟨"version", some 'V', .stop .version⟩]

/-- Names are not abbreviated. -/
def byLong? (name : String) : Option Parameter := all.find? (·.long == name)

def byShort? (letter : Char) : Option Parameter := all.find? (·.short == some letter)

end Parameter
end CoreLocator.CommandLine
