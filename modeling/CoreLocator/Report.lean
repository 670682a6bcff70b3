import CoreLocator.Discovery
import CoreLocator.Json.Value

/-! What a user is told: the core that was found, as lines or as one JSON object, or the causes of
a failure, outermost first. -/
namespace CoreLocator.Report

inductive Format
  | pretty
  | json
  deriving DecidableEq, Repr

def Format.ofName? (name : String) : Option Format :=
  match String.ofList (name.toList.map Char.toLower) with
  | "pretty" => some pretty
  | "p" => some pretty
  | "json" => some json
  | "j" => some json
  | _ => none

/-- What is not known has no line. -/
def lines (core : CoreAddress) : List String :=
  [s!"core:        {core.host}:{core.port}"]
    ++ (core.coreArn.map fun arn => s!"thing arn:   {arn}").toList
    ++ (core.groupId.map fun group => s!"group:       {group}").toList
    ++ (core.certificate.map fun c => s!"group CA:    {c.length} bytes").toList

open Json.Value in
/-- Members in the order of their names; a certificate that is no text is left out as well. -/
def toJson (core : CoreAddress) : Json.Value :=
  object
    [("certificate", ofOption text core.certificatePem),
     ("core_thing_arn", ofOption text core.coreArn),
     ("group_id", ofOption text core.groupId),
     ("host", text core.host),
     ("port", natural core.port.toNat)]

def render (format : Format) (core : CoreAddress) : String :=
  match format with
  | .pretty => String.join ((lines core).map (· ++ "\n"))
  | .json => (toJson core).pretty ++ "\n"

/-- The file that a group certificate is kept in; there is none for a certificate that is no
text. -/
def certificateFile? (core : CoreAddress) : Option String := core.certificatePem.map (· ++ "\n")

/-- A cause with its number, if there are several, and its later lines set under the first. -/
def cause (number : Option Nat) (message : String) : String :=
  let (mark, margin) := match number with
    | none => ("    ", "    ")
    | some n => ("".pushn ' ' (5 - (toString n).length) ++ toString n ++ ": ", "       ")
  mark ++ ("\n" ++ margin).intercalate (message.splitOn "\n")

def failureText : List String → String
  | [] => ""
  | [message] => message
  | [message, only] => message ++ "\n\nCaused by:\n" ++ cause none only
  | message :: causes =>
    message ++ "\n\nCaused by:\n"
      ++ "\n".intercalate (causes.mapIdx fun n text => cause (some n) text)

end CoreLocator.Report
