import CoreLocator.Proofs.Request
import CoreLocator.Proofs.Utf8

/-! What goes over the wire for a name. A name that passes its check adds nothing to the structure
of the request: the line has the two blanks of its frame, it ends where the frame ends it, and the
name can be read back from it. -/
namespace CoreLocator.Request

variable {buffer : Bytes} {thingName : String} {size : Nat}

/-- A single line with two blanks in it. Nothing comes behind the blank line that ends it. -/
structure OneLine (request : Bytes) : Prop where
  line : ∃ line, request = line ++ Bytes.blankLine ∧ 0x0D ∉ line ∧ 0x0A ∉ line
  ends : ∀ front back, request = front ++ Bytes.blankLine ++ back → back = []
  blanks : request.count 0x20 = 2

theorem isGraphic_iff {b : UInt8} :
    Ascii.isGraphic b = true ↔ 0x21 ≤ b.toNat ∧ b.toNat ≤ 0x7E := by
  simp [Ascii.isGraphic, UInt8.le_iff_toNat_le]

theorem checkName_iff : checkName thingName = .ok () ↔ thingName ≠ "" ∧
    ∀ b ∈ Bytes.ofString thingName, 0x21 ≤ b.toNat ∧ b.toNat ≤ 0x7E := by
  unfold checkName
  split
  · next empty =>
    rw [String.isEmpty_iff] at empty
    simp [empty]
  next named =>
  rw [String.isEmpty_iff] at named
  split
  · next graphic =>
    simpa [named, isGraphic_iff] using graphic
  · next hidden =>
    simpa [named, isGraphic_iff] using hidden

/-- Blanks and line ends are not visible. -/
theorem not_mem_name (named : checkName thingName = .ok ()) {b : UInt8} (small : b.toNat < 0x21) :
    b ∉ Bytes.ofString thingName := by
  intro member
  have visible := (checkName_iff.mp named).2 b member
  omega

/-- The request up to the blank line that ends it. -/
def line (thingName : String) : Bytes :=
  .ofString opening ++ .ofString thingName ++ .ofString " HTTP/1.1"

theorem bytes_eq_line (thingName : String) :
    bytes thingName = line thingName ++ Bytes.blankLine := by
  have frame : Bytes.ofString closing = .ofString " HTTP/1.1" ++ Bytes.blankLine := by
    decide +kernel
  rw [bytes, frame, line, List.append_assoc, List.append_assoc, List.append_assoc]

theorem not_mem_line (named : checkName thingName = .ok ()) {b : UInt8} (small : b.toNat < 0x21)
    (before : b ∉ Bytes.ofString opening) (behind : b ∉ Bytes.ofString " HTTP/1.1") :
    b ∉ line thingName := by
  intro member
  rcases List.mem_append.mp member with member | member
  · rcases List.mem_append.mp member with member | member
    · exact before member
    · exact not_mem_name named small member
  · exact behind member

theorem oneLine_bytes (named : checkName thingName = .ok ()) : OneLine (bytes thingName) := by
  have noReturn : 0x0D ∉ line thingName :=
    not_mem_line named (by decide) (by decide +kernel) (by decide +kernel)
  have noFeed : 0x0A ∉ line thingName :=
    not_mem_line named (by decide) (by decide +kernel) (by decide +kernel)
  refine ⟨⟨line thingName, bytes_eq_line thingName, noReturn, noFeed⟩, ?_, ?_⟩
  · intro front back same
    -- Both line feeds are in the blank line, so the last byte, which is one, is not behind it.
    have feeds : (bytes thingName).count 0x0A = 2 := by
      rw [bytes_eq_line, List.count_append, List.count_eq_zero_of_not_mem noFeed]
      decide
    rw [same, List.count_append, List.count_append] at feeds
    have own : Bytes.blankLine.count 0x0A = 2 := by decide
    have noMore : 0x0A ∉ back := List.count_eq_zero.mp (by omega)
    have last : (bytes thingName).getLast? = some 0x0A := by
      rw [bytes_eq_line, List.getLast?_append]
      rfl
    rcases List.eq_nil_or_concat back with empty | ⟨rest, b, rfl⟩
    · exact empty
    · rw [same, List.concat_eq_append, ← List.append_assoc, List.getLast?_concat] at last
      obtain rfl := Option.some.inj last
      exact absurd (by simp) noMore
  · have inner : (Bytes.ofString thingName).count 0x20 = 0 :=
      List.count_eq_zero_of_not_mem (not_mem_name named (by decide))
    have before : (Bytes.ofString opening).count 0x20 = 1 := by decide +kernel
    have behind : (Bytes.ofString closing).count 0x20 = 1 := by decide +kernel
    rw [bytes, List.count_append, List.count_append, inner, before, behind]

theorem bytes_inj {other : String} : bytes other = bytes thingName ↔ other = thingName := by
  constructor
  · intro same
    apply Utf8.ofString_inj.mp
    exact List.append_cancel_left (List.append_cancel_right same)
  · exact congrArg bytes

theorem write_eq_ok : (write buffer thingName).1 = .ok size ↔ checkName thingName = .ok () ∧
    length thingName ≤ buffer.length ∧ size = length thingName := by
  constructor
  · intro wrote
    cases named : checkName thingName with
    | error defect =>
      simp only [write, named] at wrote
      contradiction
    | ok =>
      by_cases fits : length thingName ≤ buffer.length
      · rw [write_of_fits named fits] at wrote
        exact ⟨rfl, fits, (Except.ok.inj wrote).symm⟩
      · rw [write_of_small named (Nat.lt_of_not_le fits)] at wrote
        contradiction
  · rintro ⟨named, fits, rfl⟩
    rw [write_of_fits named fits]

/-- What the buffer holds of the request is the request. -/
theorem take_write (wrote : (write buffer thingName).1 = .ok size) :
    (write buffer thingName).2.take size = bytes thingName :=
  (take_of_write (Prod.ext wrote rfl)).1

/-- A request is written exactly if its name is one of visible ASCII characters and the buffer has
room for it. Then it takes the front of the buffer and leaves the rest, and it is one line, from
which the name can be told. Otherwise the buffer stays as it is. -/
theorem write_exact (buffer : Bytes) (thingName : String) :
    let wrote := write buffer thingName
    ((∃ size, wrote.1 = .ok size) ↔ thingName ≠ "" ∧
        (∀ b ∈ Bytes.ofString thingName, 0x21 ≤ b.toNat ∧ b.toNat ≤ 0x7E) ∧
        length thingName ≤ buffer.length) ∧
      (∀ size, wrote.1 = .ok size →
        size = length thingName ∧
          wrote.2 = .ofString "GET /greengrass/discover/thing/" ++ .ofString thingName ++
            .ofString " HTTP/1.1\r\n\r\n" ++ buffer.drop size ∧
          OneLine (wrote.2.take size) ∧
          ∀ (other : String) (otherBuffer : Bytes) (otherSize : Nat),
            (write otherBuffer other).1 = .ok otherSize →
            (write otherBuffer other).2.take otherSize = wrote.2.take size → other = thingName) ∧
      ∀ failure, wrote.1 = .error failure → wrote.2 = buffer := by
  intro wrote
  refine ⟨?_, ?_, ?_⟩
  · rw [← and_assoc, ← checkName_iff]
    constructor
    · rintro ⟨size, done⟩
      obtain ⟨named, fits, -⟩ := write_eq_ok.mp done
      exact ⟨named, fits⟩
    · rintro ⟨named, fits⟩
      exact ⟨length thingName, write_eq_ok.mpr ⟨named, fits, rfl⟩⟩
  · intro size done
    obtain ⟨named, fits, rfl⟩ := write_eq_ok.mp done
    refine ⟨rfl, ?_, ?_, ?_⟩
    · exact congrArg Prod.snd (write_of_fits named fits)
    · rw [take_write done]
      exact oneLine_bytes named
    · intro other otherBuffer otherSize otherDone same
      rw [take_write done, take_write otherDone] at same
      exact bytes_inj.mp same
  · intro failure failed
    exact write_of_error (Prod.ext failed rfl)

/-- A request that just fits, and the same buffer with one byte less. -/
theorem write_exact_fit :
    let buffer : Bytes := List.replicate 46 0x0A
    let wrote := write buffer "a~"
    (∃ size, wrote.1 = .ok size) ∧ wrote.1 = .ok 46 ∧ OneLine (wrote.2.take 46) ∧
      (write buffer "b~").2.take 46 ≠ wrote.2.take 46 ∧
      (write (buffer.drop 1) "a~").1 = .error (.bufferTooSmall 45 46) ∧
      (write (buffer.drop 1) "a~").2 = buffer.drop 1 := by
  intro buffer wrote
  have done : wrote.1 = .ok 46 := by decide +kernel
  have failed : (write (buffer.drop 1) "a~").1 = .error (.bufferTooSmall 45 46) := by
    decide +kernel
  obtain ⟨can, holds, -⟩ := write_exact buffer "a~"
  obtain ⟨-, -, line, told⟩ := holds 46 done
  have visible : ∀ b ∈ Bytes.ofString "a~", 0x21 ≤ b.toNat ∧ b.toNat ≤ 0x7E := by decide +kernel
  have other : (write buffer "b~").2.take 46 ≠ wrote.2.take 46 := by
    intro same
    exact absurd (told "b~" buffer 46 (by decide +kernel) same) (by decide)
  exact ⟨can.mpr ⟨by decide, visible, by decide +kernel⟩, done, line, other, failed,
    (write_exact (buffer.drop 1) "a~").2.2 _ failed⟩

end CoreLocator.Request
