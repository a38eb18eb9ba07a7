/-!
# Texts for a terminal

A text that comes from outside may hold control characters and sequences that move a
terminal's cursor, colour its text or set its title.  They are left out of what is
printed; line ends and tabs stay.

A sequence is read character by character.  Escape starts one wherever it stands, and
two other control characters, cancel and substitute, end one.
-/

namespace OpenApiTypings.Text

inductive Sequence where
  /-- In the text itself. -/
  | none
  /-- Behind escape. -/
  | escape
  /-- Behind escape and a blank or a punctuation mark. -/
  | intermediate
  /-- In a control sequence, which a letter ends. -/
  | control
  /-- In a command to the terminal, which the bell ends. -/
  | command
  /-- In text that is meant for a device and not for the screen. -/
  | device
  deriving DecidableEq, Repr

namespace Sequence

/-- A control character that is printed nevertheless. -/
def isPrintedControl (c : Char) : Bool :=
  c = '\t' || c = '\n' || c = '\r' || c.toNat = 0x0C

def ofIntroducer (c : Char) : Sequence :=
  if c = '[' then .control
  else if c = ']' then .command
  else if "PX^_".toList.contains c then .device
  else .none

/-- Where the character after `c` stands, and whether `c` is printed. -/
def next (sequence : Sequence) (c : Char) : Sequence × Bool :=
  let n := c.toNat
  if n = 0x1B then (.escape, false)
  else if n = 0x18 || n = 0x1A then (.none, false)
  else
    match sequence with
    | .none => (.none, isPrintedControl c || (0x20 ≤ n && n ≠ 0x7F))
    | .command => (if n = 0x07 then .none else .command, false)
    | .device => (.device, false)
    | _ =>
        if isPrintedControl c then (.none, true)
        else if n < 0x20 || 0x7F ≤ n then (sequence, false)
        else
          match sequence with
          | .control => (if 0x40 ≤ n then .none else .control, false)
          | .escape => (if n < 0x30 then .intermediate else ofIntroducer c, false)
          | _ => (if n < 0x30 then .intermediate else .none, false)

end Sequence

def printedFrom : Sequence → List Char → List Char
  | _, [] => []
  | sequence, c :: rest =>
      let (after, isPrinted) := sequence.next c
      if isPrinted then c :: printedFrom after rest else printedFrom after rest

def printed (s : String) : String :=
  String.ofList (printedFrom .none s.toList)

end OpenApiTypings.Text
