import CoreLocator.Pem.Base64

/-! PEM text: sections between marked lines, with anything around them. Sections of unknown kinds
are passed over. -/
namespace CoreLocator.Pem

inductive Kind
  | certificate
  | publicKey
  | rsaPrivateKey
  | privateKey
  | ecPrivateKey
  | revocationList
  | certificateRequest
  | helloConfigurations
  deriving DecidableEq, Repr

def Kind.label : Kind → String
  | certificate => "CERTIFICATE"
  | publicKey => "PUBLIC KEY"
  | rsaPrivateKey => "RSA PRIVATE KEY"
  | privateKey => "PRIVATE KEY"
  | ecPrivateKey => "EC PRIVATE KEY"
  | revocationList => "X509 CRL"
  | certificateRequest => "CERTIFICATE REQUEST"
  | helloConfigurations => "ECHCONFIG"

def Kind.all : List Kind :=
  [certificate, publicKey, rsaPrivateKey, privateKey, ecPrivateKey, revocationList,
    certificateRequest, helloConfigurations]

def Kind.ofLabel? (label : Bytes) : Option Kind :=
  all.find? fun kind => Bytes.ofString kind.label == label

structure Block where
  kind : Kind
  content : Bytes
  deriving DecidableEq, Repr

inductive Fault
  /-- A line that opens a section and is not closed as such lines are. -/
  | badStart
  | noEnd (label : Bytes)
  | badContent
  deriving DecidableEq, Repr

def Fault.message : Fault → String
  | badStart => "illegal section start"
  | noEnd _ => "section end not found"
  | badContent => "base64 decode error"

/-- The lines of a text; each of the two characters of a line end is one by itself. -/
def lines : Bytes → List Bytes
  | [] => [[]]
  | b :: s =>
    if b = 0x0A ∨ b = 0x0D then [] :: lines s
    else match lines s with
      | [] => [[b]]
      | line :: rest => (b :: line) :: rest

def dash : UInt8 := 0x2D

def blank : UInt8 := 0x20

def dashes : Bytes := List.replicate 5 dash

def opening : Bytes := dashes ++ Bytes.ofString "BEGIN "

def closing (label : Bytes) : Bytes := dashes ++ Bytes.ofString "END " ++ label ++ dashes

/-- The label in front of the dashes that a line ends with; there are five of them, with or without
blanks between and behind. -/
def labelOf? (text : Bytes) : Option Bytes :=
  let trail := (text.reverse.takeWhile fun b => b == dash || b == blank).reverse
  if trail.count dash = 5 then
    some (text.take (text.length - trail.length) ++ trail.takeWhile (· == blank))
  else none

/-- The label of the section that is open, and the lines read in sections since the last one was
finished, the latest first. A line that opens a section within another keeps what was read. -/
structure Scan where
  label : Option Bytes := none
  body : List Bytes := []

/-- The sections, up to the first fault. -/
def blocksFrom (state : Scan) : List Bytes → List (Except Fault Block)
  | [] => match state.label with
    | none => []
    | some label => [.error (.noEnd label)]
  | line :: rest =>
    match Bytes.after? opening line, state.label with
    | some text, _ => match labelOf? text with
      | none => [.error .badStart]
      | some label => blocksFrom { state with label := some label } rest
    | none, none => blocksFrom state rest
    | none, some label =>
      if (Bytes.after? (closing label) line).isSome then
        match Kind.ofLabel? label with
        | none => blocksFrom {} rest
        | some kind => match Base64.decode? state.body.reverse.flatten with
          | none => [.error .badContent]
          | some content => .ok ⟨kind, content⟩ :: blocksFrom {} rest
      else blocksFrom { state with body := line :: state.body } rest

def blocks (text : Bytes) : List (Except Fault Block) := blocksFrom {} (lines text)

/-- The contents of all certificates. A fault anywhere in the text is a fault of all. -/
def certificates (text : Bytes) : Except Fault (List Bytes) := do
  let blocks ← (blocks text).mapM id
  return (blocks.filter (·.kind == .certificate)).map (·.content)

def Kind.isPrivateKey : Kind → Bool
  | rsaPrivateKey => true
  | privateKey => true
  | ecPrivateKey => true
  | _ => false

/-- The first private key, unless a fault comes before it. -/
def privateKey? (text : Bytes) : Except Fault (Option Block) :=
  first (blocks text)
where
  first : List (Except Fault Block) → Except Fault (Option Block)
    | [] => .ok none
    | .error fault :: _ => .error fault
    | .ok block :: rest => if block.kind.isPrivateKey then .ok (some block) else first rest

end CoreLocator.Pem
