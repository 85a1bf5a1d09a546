import Albusforge.Lib.CMemory
import Albusforge.Camera.Policy

/-!
# The setup form

`src/firmware/esp32s3-camera/main/setup_form.c`. The page of the setup hotspot posts a form with the
token of the page and the two Wi-Fi settings; it is taken apart in buffers of fixed size.
-/

namespace Albusforge.Camera

open Lib Lib.CMemory

/-- `hex`; `none` is `-1`. -/
def hexValue (c : UInt8) : Option ℕ :=
  if 48 ≤ c ∧ c ≤ 57 then some (c.toNat - 48)
  else if 97 ≤ c ∧ c ≤ 102 then some (c.toNat - 97 + 10)
  else if 65 ≤ c ∧ c ≤ 70 then some (c.toNat - 65 + 10)
  else none

/-- The byte that `input[i]` begins, and the index of its last one; `none` ends the decoding. -/
def decodeByte (body : Bytes) (input length i : ℕ) : Access (Option (UInt8 × ℕ)) := do
  let c ← load body (input + i)
  if c = 43 then return some (32, i)
  else if c = 37 then
    if length ≤ i + 2 then return none
    match hexValue (← load body (input + (i + 1))) with
    | none => return none
    | some high =>
        match hexValue (← load body (input + (i + 2))) with
        | none => return none
        | some low => return some (UInt8.ofNat (high * 16 + low), i + 2)
  else return some (c, i)

/-- The loop of `decode`: at `input[i]`, with `n` bytes written. -/
def decodeLoop (body : Bytes) (input length size : ℕ) : (rounds i n : ℕ) → Bytes → Access (Bool × Bytes)
  | 0, _, n, out => do return (true, ← store out n 0)
  | rounds + 1, i, n, out =>
      if length ≤ i then do return (true, ← store out n 0)
      else do
        match ← decodeByte body input length i with
        | none => return (false, out)
        | some (c, i) =>
            if c = 0 ∨ size ≤ n + 1 then return (false, out)
            decodeLoop body input length size rounds (i + 1) (n + 1) (← store out n c)

def decode (body : Bytes) (input length : ℕ) (out : Bytes) (size : ℕ) : Access (Bool × Bytes) :=
  decodeLoop body input length size length 0 0 out

/-- Where the field at `p` ends: at a `&`, or with the body. -/
def fieldEnd (body : Bytes) (p : ℕ) : Access ℕ := do
  match ← strchr body p 38 with
  | some stop => return stop
  | none => return p + (← strlen body p)

/-- Whether what stands from `p` to `stop` is the field of this name. -/
def isParameter (body name : Bytes) (p stop : ℕ) : Access Bool := do
  let key := name.length
  if stop - p ≤ key then return false
  if (← load body (p + key)) ≠ 61 then return false
  sameBytes body p name key

/-- The loop of `parameter`: at `p`, with the field found or not. -/
def parameterLoop (body name : Bytes) (size : ℕ) : (rounds p : ℕ) → Bool → Bytes → Access (Bool × Bytes)
  | 0, _, found, out => some (found, out)
  | rounds + 1, p, found, out => do
      if (← load body p) = 0 then return (found, out)
      let stop ← fieldEnd body p
      let next := if (← load body stop) ≠ 0 then stop + 1 else stop
      if ← isParameter body name p stop then
        if found then return (false, out)
        let (ok, out) ← decode body (p + name.length + 1) (stop - p - name.length - 1) out size
        if !ok then return (false, out)
        parameterLoop body name size rounds next true out
      else parameterLoop body name size rounds next found out

def parameter (body name out : Bytes) (size : ℕ) : Access (Bool × Bytes) := do
  parameterLoop body name size (← strlen body 0) 0 false out

/-- `setup_wifi_valid`, of two buffers -/
def setupWifiValid (ssid password : Bytes) : Access Bool := do
  let ssid ← strlen ssid 0
  let password ← strlen password 0
  return 0 < ssid && ssid ≤ 32 && 8 ≤ password && password ≤ 63

/-- `setup_form_parse`, with what its buffers held before: whether the form is taken, and the two settings. -/
def setupFormParse (body csrf nonce ssid password : Bytes) : Access (Bool × Bytes × Bytes) := do
  if 512 < (← strlen body 0) then return (false, ssid, password)
  let (found, nonce) ← parameter body (chars "csrf") nonce 33
  if !found then return (false, ssid, password)
  if !(← sameString nonce csrf) then return (false, ssid, password)
  let (found, ssid) ← parameter body (chars "ssid") ssid 33
  if !found then return (false, ssid, password)
  let (found, password) ← parameter body (chars "password") password 64
  if !found then return (false, ssid, password)
  return (← setupWifiValid ssid password, ssid, password)

end Albusforge.Camera
