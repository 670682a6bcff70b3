import CoreLocator.Failure

/-! The group certificate as a document carries it: PEM text whose line ends are spelled as escapes.
They are made real ones again, the last one excepted, which is dropped. The same can be done within
the bytes' own buffer, since the result is never ahead of what is left to read. -/
namespace CoreLocator.Certificate

def escapedNewline : Bytes := [0x5C, 0x6E]

/-- The text with every escaped line end, from left to right, made a real one. -/
def unescape : Bytes → Bytes
  | [] => []
  | [b] => [b]
  | a :: b :: s => if a = 0x5C ∧ b = 0x6E then 0x0A :: unescape s else a :: unescape (b :: s)

/-- Reads on at `read` and writes the result at `write`. Bytes behind the result stay as they
are. -/
def unescapeFrom (buffer : Array UInt8) (read write : Nat) : Array UInt8 × Nat :=
  if _h : read < buffer.size then
    if buffer[read] = 0x5C ∧ buffer[read + 1]? = some 0x6E then
      unescapeFrom (buffer.setIfInBounds write 0x0A) (read + 2) (write + 1)
    else
      unescapeFrom (buffer.setIfInBounds write buffer[read]) (read + 1) (write + 1)
  else (buffer, write)
termination_by buffer.size - read
decreasing_by all_goals simp only [Array.size_setIfInBounds]; omega

def unescapeInPlace (buffer : Bytes) : Bytes × Nat :=
  let (buffer, length) := unescapeFrom buffer.toArray 0 0
  (buffer.toList, length)

def decode (raw : Bytes) : Except DocumentDefect Bytes :=
  if raw.length < escapedNewline.length then .error (.certificateTooShort raw.length)
  else
    match unescape ((Bytes.before? escapedNewline raw).getD raw) with
    | [] => .error .certificateEmpty
    | certificate => .ok certificate

end CoreLocator.Certificate
