import Mathlib.Data.List.Basic
import Mathlib.Data.List.TakeWhile
import Mathlib.Tactic.Common

/-!
# Bytes, C strings and numbers

The functions of the C library the server computes with: strings are bounded by
their first NUL byte (`strnlen`, `strndup`), compared up to ASCII case
(`strcasecmp`) and read as numbers (`strtol`); the 16-bit fields of a packet are
big-endian (`htons`, `ntohs`), and `poke` is what `memcpy` and `fwrite` do.
-/

namespace Nbstftp

/-- A block of memory, or the content of a file. -/
abbrev Bytes := List UInt8

/-- The bytes of a string literal. -/
def ascii (s : String) : Bytes := s.toList.map fun ch => ch.toNat.toUInt8

/-- The length of the string at the start of `s`, of at most `maxlen` bytes. -/
def strnlen (s : Bytes) (maxlen : ℕ) : ℕ := ((s.take maxlen).takeWhile (· != 0)).length

/-- The string at the start of `s`, of at most `maxlen` bytes. -/
def strndup (s : Bytes) (maxlen : ℕ) : Bytes := (s.take maxlen).takeWhile (· != 0)

/-- A string read is not cut once more. -/
theorem strnlen_strndup (s : Bytes) (maxlen : ℕ) :
    strnlen (strndup s maxlen) maxlen = (strndup s maxlen).length := by
  rw [strnlen, List.take_of_length_le, strndup, List.takeWhile_idem]
  exact Nat.le_trans (List.takeWhile_prefix _).length_le (List.length_take_le _ _)

def tolower (b : UInt8) : UInt8 := if 65 ≤ b ∧ b ≤ 90 then b + 32 else b

/-- The difference of the first bytes that differ, up to case; `0` if none do. -/
def strcasecmp : Bytes → Bytes → Int
  | [], [] => 0
  | [], b :: _ => -(tolower b).toNat
  | a :: _, [] => (tolower a).toNat
  | a :: as, b :: bs =>
    if tolower a = tolower b then strcasecmp as bs
    else (tolower a).toNat - (tolower b).toNat

/-- Strings that do not differ start alike. -/
theorem tolower_eq_of_strcasecmp {a b : UInt8} {as bs : Bytes}
    (h : strcasecmp (a :: as) (b :: bs) = 0) : tolower a = tolower b := by
  rw [strcasecmp] at h
  split at h
  · assumption
  · exact UInt8.toNat_inj.1 (by omega)

def isspace (b : UInt8) : Bool := b == 32 || (9 ≤ b && b ≤ 13)

def isdigit (b : UInt8) : Bool := 48 ≤ b && b ≤ 57

/-- The number at the start of `s`, in base 10 and clamped to a 64-bit `long`;
    `true` if it was clamped (`errno` is `ERANGE`). -/
def strtol (s : Bytes) : Int × Bool :=
  let s := s.dropWhile isspace
  let sign : Int := if s.head? = some 45 then -1 else 1
  let s := if s.head? = some 45 ∨ s.head? = some 43 then s.tail else s
  let n : ℕ := (s.takeWhile isdigit).foldl (fun n b => n * 10 + (b.toNat - 48)) 0
  if sign * n < Int64.minValue.toInt then (Int64.minValue.toInt, true)
  else if Int64.maxValue.toInt < sign * n then (Int64.maxValue.toInt, true)
  else (sign * n, false)

/-- `%zu`. -/
def decimal (n : ℕ) : Bytes := (Nat.toDigits 10 n).map fun ch => ch.toNat.toUInt8

/-- `%ld`. -/
def decimalInt (n : Int) : Bytes :=
  if n < 0 then ascii "-" ++ decimal n.natAbs else decimal n.natAbs

/-- The number read from a string is at most 20 characters long. -/
theorem length_decimalInt_strtol_le (s : Bytes) : (decimalInt (strtol s).1).length ≤ 20 := by
  have hmin : Int64.minValue.toInt = -9223372036854775808 := by decide
  have hmax : Int64.maxValue.toInt = 9223372036854775807 := by decide
  have hbound : -9223372036854775808 ≤ (strtol s).1 ∧ (strtol s).1 ≤ 9223372036854775807 := by
    rw [strtol, hmin, hmax]
    split_ifs <;> dsimp only <;> omega
  have hdigits : (decimal (strtol s).1.natAbs).length ≤ 19 := by
    rw [decimal, List.length_map, Nat.length_toDigits_le_iff (by decide) (by decide)]
    omega
  rw [decimalInt]
  split_ifs
  · rw [List.length_append]
    exact Nat.add_le_add (show (ascii "-").length ≤ 1 by decide) hdigits
  · exact Nat.le_succ_of_le hdigits

/-! ## Network byte order -/

def htons (n : UInt16) : Bytes := [UInt8.ofNat (n.toNat / 256), UInt8.ofNat (n.toNat % 256)]

/-- The 16-bit field at offset `off` of the memory block `p`. -/
def ntohs (p : Bytes) (off : ℕ) : UInt16 :=
  UInt16.ofNat ((p.getD off 0).toNat * 256 + (p.getD (off + 1) 0).toNat)

@[simp] theorem length_htons (n : UInt16) : (htons n).length = 2 := rfl

/-- The value of two bytes, the high one first, is read back from them. -/
theorem ntohs_htons_append (n : UInt16) (p : Bytes) : ntohs (htons n ++ p) 0 = n := by
  have hn : n.toNat < 65536 := n.toNat_lt
  apply UInt16.toNat_inj.1
  simp [ntohs, htons]
  omega

/-- The second field of a packet is the first one of what follows the first. -/
theorem ntohs_htons_append_two (n : UInt16) (p : Bytes) :
    ntohs (htons n ++ p) 2 = ntohs p 0 := by
  simp [ntohs, htons]

/-! ## Writing to memory -/

/-- Memory `s` with `data` written at offset `off`; a gap is filled with zeros,
    as a file is. -/
def poke (s : Bytes) (off : ℕ) (data : Bytes) : Bytes :=
  s.take off ++ List.replicate (off - s.length) 0 ++ data ++ s.drop (off + data.length)

/-- Writing at the end appends. -/
theorem poke_length (s data : Bytes) : poke s s.length data = s ++ data := by
  simp [poke]

theorem length_poke (s : Bytes) (off : ℕ) (data : Bytes) :
    (poke s off data).length = max s.length (off + data.length) := by
  simp [poke]
  omega

/-- A field is read past a write behind it. -/
theorem ntohs_poke {off off' : ℕ} (h : off' + 2 ≤ off) (s data : Bytes) :
    ntohs (poke s off data) off' = ntohs s off' := by
  have hget : ∀ i < off, (poke s off data).getD i 0 = s.getD i 0 := by
    intro i hi
    rw [List.getD_eq_getElem?_getD, List.getD_eq_getElem?_getD, poke, List.append_assoc,
      List.append_assoc, List.getElem?_append]
    rcases Nat.lt_or_ge i s.length with hs | hs
    · rw [if_pos (by rw [List.length_take]; omega), List.getElem?_take_of_lt hi]
    · -- Past the end of `s` there is a zero anyway.
      rw [if_neg (by rw [List.length_take]; omega), List.getElem?_append,
        if_pos (by simp; omega), List.getElem?_replicate, List.getElem?_eq_none hs]
      split <;> rfl
  rw [ntohs, ntohs, hget off' (by omega), hget (off' + 1) (by omega)]

/-- Writing over a part of the memory. -/
theorem poke_append {a b data : Bytes} {off : ℕ} (ha : a.length = off)
    (hb : b.length = data.length) (c : Bytes) :
    poke (a ++ b ++ c) off data = a ++ data ++ c := by
  subst ha
  have hlen : a.length - (a ++ b ++ c).length = 0 := by simp
  have hdrop : (a ++ b ++ c).drop (a.length + data.length) = c := by
    rw [← hb, ← List.length_append, List.drop_left]
  rw [poke, hlen, hdrop, List.append_assoc a b c, List.take_left, List.replicate_zero,
    List.append_nil]

/-- What was written at the start is read back. -/
theorem take_poke_zero (s data : Bytes) : (poke s 0 data).take data.length = data := by
  simp [poke]

end Nbstftp
