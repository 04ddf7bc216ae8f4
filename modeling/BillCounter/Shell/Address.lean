import BillCounter.Lib.CString

/-!
# Dotted addresses

`ip4addr_aton` of lwIP, which decides what the shell accepts as an address.  It
takes one to four numbers, each decimal, octal or hexadecimal as in C, computes
with `u32_t` throughout, and lets anything follow that begins with white space.
A string is the list of the bytes from `cp` on; behind its end a NUL is read.
-/

namespace BillCounter.Shell

open BillCounter.Lib.RawBytes
open BillCounter.Lib.CString

/-- `in_range`. -/
def inRange (c lo up : Byte) : Bool := lo ≤ c && c ≤ up

def isdigit (c : Byte) : Bool := inRange c (ascii '0') (ascii '9')

def isxdigit (c : Byte) : Bool :=
  isdigit c || inRange c (ascii 'a') (ascii 'f') || inRange c (ascii 'A') (ascii 'F')

def islower (c : Byte) : Bool := inRange c (ascii 'a') (ascii 'z')

/-- `' '`, `'\f'`, `'\n'`, `'\r'`, `'\t'` and `'\v'`. -/
def isspace (c : Byte) : Bool :=
  c == 0x20 || c == 0x0C || c == 0x0A || c == 0x0D || c == 0x09 || c == 0x0B

/-- `*cp`. -/
def char (cp : List Byte) : Byte := cp.headD 0

/-- The base a number is written in, and where its digits begin. -/
def numberBase (cp : List Byte) : BitVec 32 × List Byte :=
  if char cp = ascii '0' then
    if char cp.tail = ascii 'x' ∨ char cp.tail = ascii 'X' then (16, cp.tail.tail)
    else (8, cp.tail)
  else (10, cp)

/-- The digits of a number.  Behind a leading 0 the digits 8 and 9 are let
through. -/
def numberDigits (base : BitVec 32) (val : BitVec 32) : List Byte → BitVec 32 × List Byte
  | [] => (val, [])
  | c :: cp =>
      if isdigit c then
        numberDigits base (val * base + (c - ascii '0').setWidth 32) cp
      else if base = 16 ∧ isxdigit c then
        numberDigits base
          (val <<< 4 ||| (c + 10 - (if islower c then ascii 'a' else ascii 'A')).setWidth 32)
          cp
      else (val, c :: cp)

/-- The outer loop of `ip4addr_aton`: the numbers in front of a dot, the last
one, and what follows it.  `room` is how many entries of `parts` are left. -/
def addressParts : Nat → List (BitVec 32) → List Byte →
    Option (List (BitVec 32) × BitVec 32 × List Byte)
  | room, parts, cp =>
      if isdigit (char cp) then
        let (base, cp) := numberBase cp
        let (val, cp) := numberDigits base 0 cp
        if char cp = ascii '.' then
          match room with
          | 0 => none
          | room + 1 => addressParts room (parts ++ [val]) cp.tail
        else some (parts, val, cp)
      else none

/-- The address the numbers make, in host order. -/
def concoctAddress (parts : List (BitVec 32)) (val : BitVec 32) : Option (BitVec 32) :=
  match parts with
  | [] => some val
  | [a] =>
      if 0xFFFFFF < val then none
      else if 0xFF < a then none
      else some (val ||| a <<< 24)
  | [a, b] =>
      if 0xFFFF < val then none
      else if 0xFF < a ∨ 0xFF < b then none
      else some (val ||| (a <<< 24 ||| b <<< 16))
  | [a, b, c] =>
      if 0xFF < val then none
      else if 0xFF < a ∨ 0xFF < b ∨ 0xFF < c then none
      else some (val ||| (a <<< 24 ||| b <<< 16 ||| c <<< 8))
  | _ => none

/-- `lwip_htonl`. -/
def lwipHtonl (x : BitVec 32) : BitVec 32 := wordAt 32 (wordBytes 4 x).reverse

/-- `ip4addr_aton`: the address `*addr` is set to, or `none` for 0. -/
def ip4addrAton (cp : List Byte) : Option (BitVec 32) :=
  match addressParts 3 [] cp with
  | none => none
  | some (parts, val, cp) =>
      if char cp ≠ 0 ∧ isspace (char cp) = false then none
      else (concoctAddress parts val).map lwipHtonl

end BillCounter.Shell
