import UndoLog.Bytes

/-!
# Digits

Numbers in decimal digits, with leading zeros up to a width. Bytes as two lower-case hexadecimal
digits each, and words of 32 bits as eight digits after `0x`.
-/

namespace UndoLog.Decimal

/-- The decimal digits of a number, most significant first. -/
def digits (n : Nat) : List Char := Nat.toDigits 10 n

/-- A number in decimal, with leading zeros up to `width` digits. -/
def padded (width n : Nat) : String :=
  let ds := digits n
  String.ofList (List.replicate (width - ds.length) '0' ++ ds)

/-- The number that decimal digits write, if there is at least one and nothing else. -/
def value? (cs : List Char) : Option Nat :=
  match cs with
  | [] => none
  | _ => cs.foldlM (fun n c => if c.isDigit then some (10 * n + (c.toNat - 48)) else none) 0

end UndoLog.Decimal

namespace UndoLog.Hex

/-- A hexadecimal digit, lower case. -/
def digit (n : Nat) : Char := Nat.digitChar (n % 16)

/-- The two digits of a byte. -/
def ofByte (b : UInt8) : List Char := [digit (b.toNat / 16), digit b.toNat]

/-- Bytes in hexadecimal, two digits each with nothing between them. -/
def ofBytes (bytes : Bytes) : String := String.ofList (bytes.flatMap ofByte)

/-- A list of bytes in square brackets, each as two digits. -/
def bracketed (bytes : Bytes) : String :=
  "[" ++ ", ".intercalate (bytes.map fun b => String.ofList (ofByte b)) ++ "]"

/-- A 32-bit word as `0x` and eight digits. -/
def ofWord32 (w : UInt32) : String :=
  "0x" ++ String.ofList ([7, 6, 5, 4, 3, 2, 1, 0].map fun i => digit (w.toNat >>> (4 * i)))

end UndoLog.Hex
