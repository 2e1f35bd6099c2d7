import Logicless.Decimal.Shortest

namespace Logicless.Decimal

structure Format where
  plainFrom : Int
  plainBelow : Int
  exponentMark : Char
  exponentWidth : Nat
  notANumber : String
  infinity : String
  deriving Repr, DecidableEq

def standard : Format where
  plainFrom := -4
  plainBelow := 16
  exponentMark := 'e'
  exponentWidth := 2
  notANumber := "nan"
  infinity := "inf"

def natChars (number : Nat) : List Char := Nat.toDigits 10 number

def padLeft (width : Nat) (digits : List Char) : List Char :=
  List.replicate (width - digits.length) '0' ++ digits

def Format.layout (format : Format) (d : Dec) : List Char :=
  let digits := natChars d.digits
  let leading : Int := d.exponent + digits.length - 1
  if format.plainFrom ≤ leading && leading < format.plainBelow then
    if d.exponent ≥ 0 then digits ++ List.replicate d.exponent.toNat '0' ++ ['.', '0']
    else if leading ≥ 0 then
      digits.take (leading.toNat + 1) ++ '.' :: digits.drop (leading.toNat + 1)
    else '0' :: '.' :: List.replicate (-leading - 1).toNat '0' ++ digits
  else
    let fraction := digits.drop 1
    let point := if fraction.isEmpty then [] else '.' :: fraction
    let sign := if leading < 0 then '-' else '+'
    digits.take 1 ++ point ++ format.exponentMark :: sign ::
      padLeft format.exponentWidth (natChars leading.natAbs)

def Format.write (format : Format) (x : Float) : List Char :=
  let bits := x.toBits
  let sign := if (bits >>> 63) == 1 then ['-'] else []
  if x.isNaN then format.notANumber.toList
  else if x.isInf then sign ++ format.infinity.toList
  else
    let size := Binary.ofBits bits
    sign ++ if size.mantissa == 0 then ['0', '.', '0'] else format.layout size.shortest

end Logicless.Decimal
