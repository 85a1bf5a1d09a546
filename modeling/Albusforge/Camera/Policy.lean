import Albusforge.Lib.Json
import Albusforge.Lib.Disk

/-!
# What the card's modules share

`src/firmware/esp32s3-camera/main/observation_policy.c`, and the checksum that the owner marker
and the records of the spool each carry. A string of C is bytes without a zero among them.
-/

namespace Albusforge.Camera

open Lib

def ascii (text : Text) : Bytes := text.map UInt8.ofNat

def chars (s : String) : Bytes := ascii (js s)

/-- What stands before the NUL of a `char *`. -/
structure CString where
  bytes : Bytes
  nonzero : (0 : UInt8) ∉ bytes
  deriving DecidableEq

def crcBit (crc : BitVec 32) : BitVec 32 := crc >>> 1 ^^^ (0xedb88320#32 &&& -(crc &&& 1#32))

def crc32 (bytes : Bytes) : BitVec 32 :=
  ~~~ bytes.foldl (fun crc b => crcBit^[8] (crc ^^^ BitVec.ofNat 32 b.toNat)) 0xffffffff#32

def hexDigit (n : ℕ) : UInt8 := UInt8.ofNat (if n < 10 then 48 + n else 87 + n)

/-- `%08x` -/
def hex8 (word : BitVec 32) : Bytes :=
  (List.range 8).map fun i => hexDigit (word.toNat / 16 ^ (7 - i) % 16)

theorem hex8_length (word : BitVec 32) : (hex8 word).length = 8 := by simp [hex8]

def isHexDigit (c : UInt8) : Bool := (48 ≤ c && c ≤ 57) || (97 ≤ c && c ≤ 102)

def obsUuidValid (s : Bytes) : Bool :=
  s.length = 36 &&
    (s.zipIdx.all fun (c, i) => if i = 8 || i = 13 || i = 18 || i = 23 then c = 45 else isHexDigit c) &&
    s[14]? = some 52 && (s[19]? = some 56 || s[19]? = some 57 || s[19]? = some 97 || s[19]? = some 98)

def obsDigestValid (s : Bytes) : Bool := s.length = 64 && s.all isHexDigit

theorem uuid_byte {s : Bytes} (h : obsUuidValid s = true) {c : UInt8} (hc : c ∈ s) :
    c = 45 ∨ isHexDigit c = true := by
  simp only [obsUuidValid, Bool.and_eq_true, List.all_eq_true] at h
  obtain ⟨⟨⟨-, hall⟩, -⟩, -⟩ := h
  obtain ⟨i, hi, rfl⟩ := List.mem_iff_getElem.mp hc
  have hone := hall (s[i], i) (List.mem_zipIdx_iff_getElem?.mpr (by simp))
  split at hone
  · exact Or.inl (by simpa using hone)
  · exact Or.inr hone

theorem uuid_length {s : Bytes} (h : obsUuidValid s = true) : s.length = 36 := by
  simp only [obsUuidValid, Bool.and_eq_true, decide_eq_true_eq] at h
  exact h.1.1.1

end Albusforge.Camera
