/-!
# Base64

Bytes written with the standard alphabet, six bits a character, padded with `=` to a multiple
of four characters.

* `Base64.encode`: the one text of some bytes.
* `Base64.decode?`: the bytes of such a text; padding has to be there and to stand for zeros.
-/

namespace SqlJson.Base64

/-- The standard alphabet. -/
def alphabet : List Char :=
  "ABCDEFGHIJKLMNOPQRSTUVWXYZabcdefghijklmnopqrstuvwxyz0123456789+/".toList

/-- The character of six bits. -/
def digit (n : Nat) : Char := alphabet.getD (n % 64) 'A'

/-- The six bits of a character. -/
def digit? (c : Char) : Option Nat := alphabet.idxOf? c

/-- **The text of some bytes.** -/
def encodeChars : List UInt8 → List Char
  | [] => []
  | [a] => [digit (a.toNat / 4), digit (a.toNat % 4 * 16), '=', '=']
  | [a, b] =>
    [digit (a.toNat / 4), digit (a.toNat % 4 * 16 + b.toNat / 16), digit (b.toNat % 16 * 4), '=']
  | a :: b :: c :: rest =>
    digit (a.toNat / 4) :: digit (a.toNat % 4 * 16 + b.toNat / 16)
      :: digit (b.toNat % 16 * 4 + c.toNat / 64) :: digit (c.toNat % 64) :: encodeChars rest

/-- The text of some bytes. -/
def encode (bytes : List UInt8) : String := String.ofList (encodeChars bytes)

/-- **The bytes of a text**, `none` if it is not the text of any bytes. -/
def decode? : List Char → Option (List UInt8)
  | [] => some []
  | [w, x, '=', '='] => do
    let w ← digit? w
    let x ← digit? x
    if x % 16 = 0 then some [UInt8.ofNat (w * 4 + x / 16)] else none
  | [w, x, y, '='] => do
    let w ← digit? w
    let x ← digit? x
    let y ← digit? y
    if y % 4 = 0 then
      some [UInt8.ofNat (w * 4 + x / 16), UInt8.ofNat (x % 16 * 16 + y / 4)]
    else none
  | w :: x :: y :: z :: rest => do
    let w ← digit? w
    let x ← digit? x
    let y ← digit? y
    let z ← digit? z
    let bytes ← decode? rest
    return UInt8.ofNat (w * 4 + x / 16) :: UInt8.ofNat (x % 16 * 16 + y / 4)
      :: UInt8.ofNat (y % 4 * 64 + z) :: bytes
  | _ => none

end SqlJson.Base64
