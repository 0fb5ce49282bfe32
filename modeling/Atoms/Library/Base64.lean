import Mathlib.Data.List.Basic

namespace base64

/-- The alphabet, in the order of the values. -/
def alphabet : List Char := "ABCDEFGHIJKLMNOPQRSTUVWXYZabcdefghijklmnopqrstuvwxyz0123456789+/".toList

def write_sextet (value : Nat) : Char := alphabet.getD value 'A'

def read_sextet (c : Char) : Option Nat := alphabet.findIdx? fun other => other = c

/-- `base64.b64encode` -/
def encode : List UInt8 → List Char
  | [] => []
  | [a] =>
    let bits := a.toNat * 16
    [write_sextet (bits / 64), write_sextet (bits % 64), '=', '=']
  | [a, b] =>
    let bits := (a.toNat * 256 + b.toNat) * 4
    [write_sextet (bits / 4096), write_sextet (bits / 64 % 64), write_sextet (bits % 64), '=']
  | a :: b :: c :: rest =>
    let bits := (a.toNat * 256 + b.toNat) * 256 + c.toNat
    [write_sextet (bits / 262144), write_sextet (bits / 4096 % 64), write_sextet (bits / 64 % 64),
      write_sextet (bits % 64)] ++ encode rest

/-- `base64.b64decode(text, validate=True)`: the bits below the last byte are dropped. -/
def decode : List Char → Option (List UInt8)
  | [] => some []
  | [a, b, '=', '='] => do
    let a ← read_sextet a
    let b ← read_sextet b
    pure [UInt8.ofNat ((a * 64 + b) / 16)]
  | [a, b, c, '='] => do
    let a ← read_sextet a
    let b ← read_sextet b
    let c ← read_sextet c
    let bits := ((a * 64 + b) * 64 + c) / 4
    pure [UInt8.ofNat (bits / 256), UInt8.ofNat (bits % 256)]
  | a :: b :: c :: d :: rest => do
    let a ← read_sextet a
    let b ← read_sextet b
    let c ← read_sextet c
    let d ← read_sextet d
    let bits := ((a * 64 + b) * 64 + c) * 64 + d
    let bytes ← decode rest
    pure (UInt8.ofNat (bits / 65536) :: UInt8.ofNat (bits / 256 % 256) :: UInt8.ofNat (bits % 256) :: bytes)
  | _ => none

theorem read_write_sextet : ∀ value < 64, read_sextet (write_sextet value) = some value := by decide +kernel

theorem write_sextet_ne : ∀ value < 64, write_sextet value ≠ '=' := by decide +kernel

/-- Four characters of which the last is no padding are read as three bytes. -/
theorem decode_quad {a b c d : Char} (h : d ≠ '=') (rest : List Char) : decode (a :: b :: c :: d :: rest) = (do
    let a ← read_sextet a
    let b ← read_sextet b
    let c ← read_sextet c
    let d ← read_sextet d
    let bits := ((a * 64 + b) * 64 + c) * 64 + d
    let bytes ← decode rest
    pure (UInt8.ofNat (bits / 65536) :: UInt8.ofNat (bits / 256 % 256) :: UInt8.ofNat (bits % 256) :: bytes)) := by
  rw [decode]
  · intro _ hd
    exact absurd hd h
  · intro hd
    exact absurd hd h

theorem decode_encode (data : List UInt8) : decode (encode data) = some data := by
  have hbyte : ∀ byte : UInt8, byte.toNat < 256 := UInt8.toNat_lt
  induction data using encode.induct with
  | case1 => rfl
  | case2 a =>
    have ha := hbyte a
    simp only [encode]
    generalize hbits : a.toNat * 16 = bits
    have hvalue : (bits / 64 * 64 + bits % 64) / 16 = a.toNat := by omega
    rw [decode, read_write_sextet _ (by omega), read_write_sextet _ (by omega)]
    simp only [Option.bind_eq_bind, Option.bind_some, hvalue, UInt8.ofNat_toNat]
    rfl
  | case3 a b =>
    have ha := hbyte a
    have hb := hbyte b
    simp only [encode]
    generalize hbits : (a.toNat * 256 + b.toNat) * 4 = bits
    have hvalue : ((bits / 4096 * 64 + bits / 64 % 64) * 64 + bits % 64) / 4 = a.toNat * 256 + b.toNat := by omega
    have hhigh : (a.toNat * 256 + b.toNat) / 256 = a.toNat := by omega
    have hlow : (a.toNat * 256 + b.toNat) % 256 = b.toNat := by omega
    rw [decode, read_write_sextet _ (by omega), read_write_sextet _ (by omega), read_write_sextet _ (by omega)]
    · simp only [Option.bind_eq_bind, Option.bind_some, hvalue, hhigh, hlow, UInt8.ofNat_toNat]
      rfl
    · exact write_sextet_ne _ (by omega)
  | case4 a b c rest ih =>
    have ha := hbyte a
    have hb := hbyte b
    have hc := hbyte c
    simp only [encode]
    generalize hbits : (a.toNat * 256 + b.toNat) * 256 + c.toNat = bits
    have hvalue : ((bits / 262144 * 64 + bits / 4096 % 64) * 64 + bits / 64 % 64) * 64 + bits % 64 = bits := by omega
    have hhigh : bits / 65536 = a.toNat := by omega
    have hmiddle : bits / 256 % 256 = b.toNat := by omega
    have hlow : bits % 256 = c.toNat := by omega
    simp only [List.cons_append, List.nil_append]
    rw [decode_quad (write_sextet_ne _ (by omega)), read_write_sextet _ (by omega), read_write_sextet _ (by omega),
      read_write_sextet _ (by omega), read_write_sextet _ (by omega), ih]
    simp only [Option.bind_eq_bind, Option.bind_some, hvalue, hhigh, hmiddle, hlow, UInt8.ofNat_toNat]
    rfl

end base64
