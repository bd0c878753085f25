/-! # Decimal text

Numbers as digits: naturals without leading zeros, naturals padded with zeros to
a least width, and integers with a minus sign.
-/

namespace ChainTable.Decimal

def ofNat (n : Nat) : List Char := Nat.toDigits 10 n

def padded (width n : Nat) : List Char :=
  List.replicate (width - (ofNat n).length) '0' ++ ofNat n

def ofInt : Int → List Char
  | .ofNat n => ofNat n
  | .negSucc n => '-' :: ofNat (n + 1)

end ChainTable.Decimal
