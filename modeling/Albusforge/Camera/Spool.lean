import Albusforge.Camera.Policy

/-!
# The spool

`src/firmware/esp32s3-camera/main/observation_spool.c`. A record is one file: a header of 160
bytes with its own checksum, and the image. A scan reads the headers, removes what is no record
and what is too old, and evicts the oldest records until a new one fits.
-/

namespace Albusforge.Camera

open Lib

def headerSize : ℕ := 160

def obsMaxAgeS : ℤ := 604800

def obsMaxBytes : ℕ := 1048576

def obsSpoolBytes : ℕ := 67108864

def obsSpoolCount : ℕ := 672

structure ObsRecord where
  id : Bytes
  sha256 : Bytes
  capturedAt : ℤ
  bytes : ℕ
  deriving DecidableEq

/-! ## Headers -/

def isSpace (c : UInt8) : Bool := c = 32 || (9 ≤ c && c ≤ 13)

/-- `%Ns`: a word after any spaces, and what comes after it. -/
def scanWord (width : ℕ) (s : Bytes) : Option (Bytes × Bytes) :=
  let s := s.dropWhile isSpace
  let word := (s.takeWhile fun c => !isSpace c).take width
  if word = [] then none else some (word, s.drop word.length)

/-- `%llu`, which takes a sign, and the greatest number for one that is too great. -/
def scanUnsigned (s : Bytes) : Option (ℕ × Bytes) :=
  let s := s.dropWhile isSpace
  let negative := s.head? = some 45
  let s := if s.head? = some 43 || s.head? = some 45 then s.drop 1 else s
  let digits := s.takeWhile fun c => 48 ≤ c && c ≤ 57
  if digits = [] then none
  else
    let n := digits.foldl (fun n c => 10 * n + (c.toNat - 48)) 0
    some (if 2 ^ 64 ≤ n then 2 ^ 64 - 1 else if negative then (2 ^ 64 - n) % 2 ^ 64 else n,
      s.drop digits.length)

/-- `sscanf(raw, "HSXOBS1 %36s %64s %llu %llu", ...)` -/
def scanHeader (raw : Bytes) : Option ObsRecord := do
  let text := raw.takeWhile (· ≠ 0)
  if !(chars "HSXOBS1").isPrefixOf text then none
  let (id, text) ← scanWord 36 (text.drop 7)
  let (sha256, text) ← scanWord 64 text
  let (captured, text) ← scanUnsigned text
  let (bytes, _) ← scanUnsigned text
  return { id := id, sha256 := sha256, capturedAt := captured, bytes := bytes }

/-- What `header` makes of the bytes of a header. -/
def headerOf (raw : Bytes) : Option ObsRecord :=
  if raw.length ≠ headerSize ∨ raw.drop 151 ≠ hex8 (crc32 (raw.take 151)) ++ [0] then none
  else (scanHeader raw).filter fun r =>
    obsUuidValid r.id && obsDigestValid r.sha256 && 1700000000 ≤ r.capturedAt &&
      r.capturedAt ≤ 253402300799 && r.bytes ≠ 0 && r.bytes ≤ obsMaxBytes

def recordOf (content : Bytes) : Option ObsRecord :=
  (headerOf (content.take headerSize)).filter fun r => content.length = headerSize + r.bytes

def header (file : Path) : DiskProc (Option ObsRecord) := do
  match (← Posix.read file 0 headerSize).bind headerOf with
  | none => return none
  | some r => return if (← Posix.seekEnd file) = some (headerSize + r.bytes) then some r else none

def headerBytes (r : ObsRecord) : Option Bytes :=
  let text := chars "HSXOBS1 " ++ r.id ++ [32] ++ r.sha256 ++ [32] ++
    ascii (decimal r.capturedAt.toNat) ++ [32] ++ ascii (decimal r.bytes) ++ [10]
  if 151 ≤ text.length then none
  else
    let raw := text ++ List.replicate (151 - text.length) 0
    some (raw ++ hex8 (crc32 raw) ++ [0])

/-! ## Records in their directory -/

/-- `path`, in a buffer of 256 bytes. -/
def recordPath (dir id suffix : Bytes) : Option Path :=
  if obsUuidValid id && dir.length + id.length + suffix.length + 2 < 256 then
    some (Path.child dir (id ++ suffix))
  else none

def obsSuffix : Bytes := chars ".obs"
def partSuffix : Bytes := chars ".part"

def obsPath (dir id : Bytes) : Path := Path.child dir (id ++ obsSuffix)

def recordAt (d : Disk) (dir id : Bytes) : Option ObsRecord :=
  if obsUuidValid id then ((d.content (obsPath dir id)).bind recordOf).filter fun r => r.id = id else none

def openRecord (file : Path) (id : Bytes) : DiskProc (Option ObsRecord) := do
  if (← Posix.openRead file) ≠ .done then return none
  let r ← header file
  let _ ← Posix.close
  return r.filter fun r => r.id = id

def writeRecord (temp : Path) (content : Bytes) : DiskProc Bool := do
  let synced ← Posix.andThen (Posix.write temp content) (Posix.sync temp)
  let closed ← Posix.close
  return synced && closed

def obsSpoolPut (dir : Bytes) (record : ObsRecord) (bytes : Bytes) : DiskProc Bool :=
  if !obsDigestValid record.sha256 || record.bytes = 0 || obsMaxBytes < record.bytes ||
      record.capturedAt < 1700000000 then return false
  else match recordPath dir record.id partSuffix, recordPath dir record.id obsSuffix,
      headerBytes record with
    | some temp, some final, some raw => do
        if (← Posix.stat final).isSome then return false
        if !(← Posix.openTruncated temp) then return false
        let ok ← writeRecord temp (raw ++ bytes)
        let renamed ← if ok then Posix.rename temp final else pure false
        if renamed then return true
        let _ ← Posix.unlink temp
        return false
    | _, _, _ => return false

/-- `obs_spool_read`: the record, and its image. The id may be the one in the record that is read
into (`own`), and is then compared with itself. -/
def obsSpoolRead (dir id : Bytes) (own : Bool) : DiskProc (Option (ObsRecord × Bytes)) :=
  match recordPath dir id obsSuffix with
  | none => return none
  | some file => do
      if (← Posix.openRead file) ≠ .done then return none
      match (← header file).filter fun r => own || r.id = id with
      | none =>
          let _ ← Posix.close
          return none
      | some r =>
          let bytes ← Posix.read file headerSize r.bytes
          let _ ← Posix.close
          return (bytes.filter fun b => b.length = r.bytes).map fun b => (r, b)

def obsSpoolRemove (dir id : Bytes) : DiskProc Bool :=
  match recordPath dir id obsSuffix with
  | none => return false
  | some file => return (← Posix.unlink file) ≠ .failed

/-! ## Scans -/

/-- `obs_spool_stats`, and the record that is evicted first. -/
structure Pass where
  candidate : Option ObsRecord
  count : ℕ
  bytes : ℕ
  dropped : ℕ
  corrupt : ℕ

def ObsRecord.before (r : ObsRecord) : Option ObsRecord → Bool
  | none => true
  | some c => r.capturedAt < c.capturedAt || (r.capturedAt = c.capturedAt && r.id < c.id)

/-- One entry of the directory; `none` ends the scan. -/
def scanEntry (dir : Bytes) (now : ℤ) (claimed : Option Bytes) (name : Bytes) (pass : Pass) :
    DiskProc (Option Pass) :=
  let id := name.take 36
  let suffix := name.drop 36
  if (name.length ≠ 40 ∧ name.length ≠ 41) ∨ obsUuidValid id = false then return some pass
  else match recordPath dir id suffix with
    | none => return none
    | some file =>
        if suffix = partSuffix then do
          if (← Posix.unlink file) ≠ .done then return none
          return some { pass with corrupt := pass.corrupt + 1 }
        else if suffix ≠ obsSuffix then return some pass
        else do
          match ← openRecord file id with
          | none =>
              if (← Posix.unlink file) ≠ .done then return none
              return some { pass with corrupt := pass.corrupt + 1 }
          | some r =>
              let owned := claimed = some id
              if ¬ owned ∧ r.capturedAt < now - obsMaxAgeS then
                if (← Posix.unlink file) ≠ .done then return none
                return some { pass with dropped := pass.dropped + 1 }
              else
                return some { pass with
                  count := pass.count + 1
                  bytes := pass.bytes + (r.bytes + headerSize)
                  candidate := if ¬ owned ∧ r.before pass.candidate then some r else pass.candidate }

def scanEntries (dir : Bytes) (now : ℤ) (claimed : Option Bytes) :
    List Bytes → Pass → DiskProc (Option Pass)
  | [], pass => return some pass
  | name :: names, pass => do
      match ← scanEntry dir now claimed name pass with
      | none => return none
      | some pass => scanEntries dir now claimed names pass

structure Scan where
  ok : Bool
  pass : Pass

def fits (reserveBytes maxCount maxBytes count bytes : ℕ) : Bool :=
  count + (if reserveBytes ≠ 0 then 1 else 0) ≤ maxCount &&
    bytes + reserveBytes + (if reserveBytes ≠ 0 then headerSize else 0) ≤ maxBytes

/-- `scan_limits`, for as many rounds as it takes. -/
def scanLimits (dir : Bytes) (now : ℤ) (claimed : Option Bytes) (reserveBytes maxCount maxBytes : ℕ) :
    ℕ → (dropped corrupt : ℕ) → DiskProc Scan
  | 0, _, _ => .never
  | rounds + 1, dropped, corrupt => do
      let start : Pass := ⟨none, 0, 0, dropped, corrupt⟩
      if obsMaxBytes < reserveBytes then return ⟨false, start⟩
      match ← Posix.list dir with
      | .absent => return ⟨false, start⟩
      | .failed => return ⟨false, start⟩
      | .names names _ =>
          -- an error ends the names as the end does
          match ← scanEntries dir now claimed names start with
          | none => return ⟨false, start⟩
          | some pass =>
              if fits reserveBytes maxCount maxBytes pass.count pass.bytes then return ⟨true, pass⟩
              match pass.candidate with
              | none => return ⟨false, pass⟩
              | some c =>
                  if !(← obsSpoolRemove dir c.id) then return ⟨false, pass⟩
                  scanLimits dir now claimed reserveBytes maxCount maxBytes rounds (pass.dropped + 1)
                    pass.corrupt

def obsSpoolScan (rounds : ℕ) (dir : Bytes) (now : ℤ) (claimed : Option Bytes) (reserveBytes : ℕ) :
    DiskProc Scan :=
  scanLimits dir now claimed reserveBytes obsSpoolCount obsSpoolBytes rounds 0 0

def obsQuarantineScan (rounds : ℕ) (dir : Bytes) (now : ℤ) : DiskProc Scan :=
  scanLimits dir now none 0 32 8388608 rounds 0 0

def obsSpoolQuarantine (rounds : ℕ) (dir quarantine : Bytes) (record : ObsRecord) (now : ℤ) :
    DiskProc Bool :=
  match recordPath dir record.id obsSuffix, recordPath quarantine record.id obsSuffix with
  | some source, some target => do
      let scan ← scanLimits quarantine now none record.bytes 32 8388608 rounds 0 0
      if !scan.ok then return false
      if (← Posix.stat target).isSome then return false
      Posix.rename source target
  | _, _ => return false

end Albusforge.Camera
