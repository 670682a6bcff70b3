import CoreLocator.CommandLine.Parameter

/-! Reading a command line. An option's value may be attached to it or follow it as an argument of
its own; one that follows is looked at when the next option comes or the line ends, and a line that
holds an unknown argument is refused for that before it is looked at. -/
namespace CoreLocator.CommandLine

inductive Tail
  | settled
  /-- An option that may get its value yet. -/
  | awaiting (put : String → Arguments → Except Stop Arguments)
  /-- A value that is not looked at yet. -/
  | holding (put : String → Arguments → Except Stop Arguments) (value : String)

structure Reading where
  taken : Arguments := {}
  tail : Tail := .settled

namespace Reading

def settle (r : Reading) : Except Stop Arguments :=
  match r.tail with
  | .settled => .ok r.taken
  | .awaiting _ => .error .missingValue
  | .holding put value => put value r.taken

/-- A parameter that is met, with the value that is attached to it. -/
def meet (r : Reading) (p : Parameter) (attached : Option (List Char)) : Except Stop Reading :=
  match p.meaning, attached with
  | .option put, some value => do return { taken := ← put (String.ofList value) (← r.settle) }
  | .option put, none => do return { taken := ← r.settle, tail := .awaiting put }
  | .switch turnOn, none => do return { taken := ← turnOn (← r.settle) }
  | .stop reason, none => do
    let _ ← r.settle
    throw reason
  | _, some _ => throw .unwantedValue

/-- A long name; what follows an equals sign is attached to it. -/
def long (r : Reading) (text : List Char) : Except Stop Reading :=
  let attached := match text.dropWhile (· ≠ '=') with
    | [] => none
    | _ :: value => some value
  match Parameter.byLong? (String.ofList (text.takeWhile (· ≠ '='))) with
  | none => .error .unknownArgument
  | some p => r.meet p attached

/-- Short names in a row. All that follows an option's is attached to it, and an equals sign in
between is passed over. -/
def cluster (r : Reading) : List Char → Except Stop Reading
  | [] => .ok r
  | letter :: rest =>
    match Parameter.byShort? letter with
    | none => .error .unknownArgument
    | some p =>
      match p.meaning with
      | .option _ =>
        r.meet p (match rest with
          | [] => none
          | '=' :: value => some value
          | value => some value)
      | _ => do (← r.meet p none).cluster rest

def plain (r : Reading) (argument : String) : Except Stop Reading :=
  match r.tail with
  | .awaiting put => .ok { r with tail := .holding put argument }
  | _ => .error .unknownArgument

/-- Nothing but the end may follow two dashes on their own. -/
def readAll (r : Reading) : List String → Except Stop Arguments
  | [] => r.settle
  | argument :: rest =>
    match argument.toList with
    | ['-', '-'] => if rest.isEmpty then r.settle else .error .unknownArgument
    | '-' :: '-' :: text => do (← r.long text).readAll rest
    | '-' :: letter :: letters => do (← r.cluster (letter :: letters)).readAll rest
    | _ => do (← r.plain argument).readAll rest

end Reading

def parse (arguments : List String) : Except Stop Arguments := Reading.readAll {} arguments

end CoreLocator.CommandLine
