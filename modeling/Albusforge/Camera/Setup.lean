import Albusforge.Lib.Proc
import Albusforge.Lib.Machine
import Albusforge.Camera.SetupForm

/-!
# The Wi-Fi settings of the board

`src/firmware/esp32s3-camera/main/camera_setup.c`. The setup page saves the two settings as one text of
the board's store (`save`), and each boot configures the station with what the text says, or with the
credentials it was provisioned with (`cameraWifiConfigure`).

cJSON is a parameter: what it prints of the two strings, and the strings it finds in a text. So is the
Wi-Fi driver, of which it matters only which configurations it takes.
-/

namespace Albusforge.Camera

open Lib Lib.Proc Lib.CMemory

/-- `wifi_auth_mode_t`, as far as it is set here. -/
inductive AuthMode
  | openNetwork
  | wpa2Psk
  deriving DecidableEq

/-- `wifi_config_t` of a station: two arrays of 32 and 64 bytes, and the threshold. -/
structure Station where
  ssid : Bytes
  password : Bytes
  authmode : AuthMode
  deriving DecidableEq

/-- `memcpy` into an array of zeros. -/
def array (size : ℕ) (s : Bytes) : Bytes := s ++ List.replicate (size - s.length) 0

structure CJson where
  /-- `cJSON_PrintUnformatted` of the object that the two strings were added to. -/
  print : (ssid password : Bytes) → Bytes
  item : (text key : Bytes) → Option CString

/-- What `httpd_req_get_hdr_value_str` comes to. -/
inductive Header
  | value (v : Bytes)
  | notFound
  | truncated

inductive SetupAnswer
  | error (status : ℕ) (text : String)
  | page (headers : List (String × String)) (text : String)
  deriving DecidableEq

inductive BoardOp
  | active
  | getsockname
  | getHeader (name : String) (size : ℕ)
  | recv (n : ℕ)
  | nonceCopy
  | uninitialised (size : ℕ)
  | print (ssid password : Bytes)
  | nvsOpen (readWrite : Bool)
  | nvsGetStr (key : Bytes) (size : ℕ)
  | nvsSetStr (key value : Bytes)
  | nvsCommit
  | nvsClose
  | wifiDisconnect
  | wifiSetConfig (station : Station)
  | wifiConnect
  | respond (answer : SetupAnswer)

def BoardOp.Ret : BoardOp → Type
  | active => Bool
  | getsockname => Option Bytes
  | getHeader _ _ => Header
  | recv _ => Option Bytes
  | nonceCopy => Bytes
  | uninitialised _ => Bytes
  | print _ _ => Option Bytes
  | nvsOpen _ => Bool
  | nvsGetStr _ _ => Option Bytes
  | nvsSetStr _ _ => Bool
  | nvsCommit => Bool
  | nvsClose => Unit
  | wifiDisconnect => Unit
  | wifiSetConfig _ => Bool
  | wifiConnect => Unit
  | respond _ => Unit

abbrev BoardProc (α : Type) : Type := Proc BoardOp.Ret α

namespace Esp

def active : BoardProc Bool := ask BoardOp.active
def getsockname : BoardProc (Option Bytes) := ask BoardOp.getsockname
def getHeader (name : String) (size : ℕ) : BoardProc Header := ask (BoardOp.getHeader name size)
def recv (n : ℕ) : BoardProc (Option Bytes) := ask (BoardOp.recv n)
def nonceCopy : BoardProc Bytes := ask BoardOp.nonceCopy
def uninitialised (size : ℕ) : BoardProc Bytes := ask (BoardOp.uninitialised size)
def print (ssid password : Bytes) : BoardProc (Option Bytes) := ask (BoardOp.print ssid password)
def nvsOpen (readWrite : Bool) : BoardProc Bool := ask (BoardOp.nvsOpen readWrite)
def nvsGetStr (key : Bytes) (size : ℕ) : BoardProc (Option Bytes) := ask (BoardOp.nvsGetStr key size)
def nvsSetStr (key value : Bytes) : BoardProc Bool := ask (BoardOp.nvsSetStr key value)
def nvsCommit : BoardProc Bool := ask BoardOp.nvsCommit
def nvsClose : BoardProc Unit := ask BoardOp.nvsClose
def wifiDisconnect : BoardProc Unit := ask BoardOp.wifiDisconnect
def wifiSetConfig (station : Station) : BoardProc Bool := ask (BoardOp.wifiSetConfig station)
def wifiConnect : BoardProc Unit := ask BoardOp.wifiConnect
def respond (answer : SetupAnswer) : BoardProc Unit := ask (BoardOp.respond answer)

end Esp

def within {α : Type} : Access α → BoardProc α
  | some a => pure a
  | none => .never

/-! ## The store and the radio -/

def wifiLocal : Bytes := chars "wifi_local"

def configure (ssid password : Bytes) : BoardProc Bool := do
  if !(← within (setupWifiValid ssid password)) then return false
  let ssid ← within (stringAt ssid 0)
  let password ← within (stringAt password 0)
  Esp.wifiSetConfig { ssid := array 32 ssid, password := array 64 password, authmode := .wpa2Psk }

def configureFrom (ssid password : Option CString) : BoardProc Bool :=
  match ssid, password with
  | some ssid, some password => configure (ssid.bytes ++ [0]) (password.bytes ++ [0])
  | _, _ => return false

def savedText : BoardProc (Option Bytes) := do
  if !(← Esp.nvsOpen false) then return none
  let raw ← Esp.nvsGetStr wifiLocal 512
  Esp.nvsClose
  return raw

/-- `camera_wifi_configure`, with the strings of the configuration the board was provisioned with -/
def cameraWifiConfigure (json : CJson) (config : Bytes → Option CString) : BoardProc Bool := do
  if let some raw ← savedText then
    if ← configureFrom (json.item raw (chars "ssid")) (json.item raw (chars "password")) then return true
  configureFrom (config (chars "wifi_ssid")) (config (chars "wifi_password"))

/-! ## The setup page -/

def apRequest : BoardProc Bool := do
  if !(← Esp.active) then return false
  match ← Esp.getsockname with
  | none => return false
  | some address => return address = [192, 168, 4, 1]

def setupHostAllowed (host : Bytes) : Bool := host = chars "192.168.4.1" || host = chars "192.168.4.1:80"

def setupOriginAllowed (origin : Bytes) : Bool :=
  origin = chars "http://192.168.4.1" || origin = chars "http://192.168.4.1:80"

def canonicalHost : BoardProc Bool := do
  match ← Esp.getHeader "Host" 32 with
  | .value host => return setupHostAllowed host
  | _ => return false

def sameOrigin : BoardProc Bool := do
  match ← Esp.getHeader "Origin" 40 with
  | .value origin => return setupOriginAllowed origin
  | .notFound => return true
  | .truncated => return false

/-- `content_len` and what the client sends. -/
structure SetupRequest where
  contentLen : ℕ
  body : Bytes

def receive (contentLen : ℕ) : (rounds : ℕ) → Bytes → BoardProc (Option Bytes)
  | 0, body => if contentLen ≤ body.length then return some body else .never
  | rounds + 1, body => do
      if contentLen ≤ body.length then return some body
      match ← Esp.recv (contentLen - body.length) with
      | none => return none
      | some chunk => receive contentLen rounds (body ++ chunk)

/-- What `save` does with a body: the settings, if it is a form to be taken. -/
def takeForm (body : Bytes) : BoardProc (Option (Bytes × Bytes)) := do
  let nonce ← Esp.nonceCopy
  if !(← apRequest) then return none
  let (valid, ssid, password) ← within (setupFormParse (array 513 body) nonce (← Esp.uninitialised 33)
    (← Esp.uninitialised 33) (← Esp.uninitialised 64))
  return if valid then some (ssid, password) else none

/-- What `save` does with settings: they are in the store, or they are not. -/
def saveSettings (ssid password : Bytes) : BoardProc Bool := do
  match ← Esp.print (← within (stringAt ssid 0)) (← within (stringAt password 0)) with
  | none => return false
  | some serialized =>
      if !(← Esp.nvsOpen true) then return false
      let saved ← do
        if !(← Esp.nvsSetStr wifiLocal serialized) then pure false
        else Esp.nvsCommit
      Esp.nvsClose
      return saved

def invalidRequest : SetupAnswer := .error 400 "Invalid setup request"

def incompleteRequest : SetupAnswer := .error 400 "Incomplete request"

def invalidSettings : SetupAnswer := .error 400 "Invalid Wi-Fi settings"

def unableToSave : SetupAnswer := .error 500 "Unable to save settings"

def unableToConfigure : SetupAnswer := .error 500 "Unable to configure Wi-Fi"

def savedPage : SetupAnswer :=
  .page [("Cache-Control", "no-store")] ("Saved. Connecting to Wi-Fi; this setup hotspot closes after connection. " ++
    "If it stays open, reconnect here and correct the settings.")

/-- What `save` checks of a request before it receives the body. -/
def setupRequest (request : SetupRequest) : BoardProc Bool := do
  if !(← apRequest) then return false
  if !(← canonicalHost) then return false
  if !(← sameOrigin) then return false
  return 0 < request.contentLen && request.contentLen ≤ 512

def save (request : SetupRequest) : BoardProc Unit := do
  if !(← setupRequest request) then
    Esp.respond invalidRequest
    return
  let some body ← receive request.contentLen request.contentLen [] | Esp.respond incompleteRequest
  let some (ssid, password) ← takeForm body | Esp.respond invalidSettings
  if !(← saveSettings ssid password) then
    Esp.respond unableToSave
    return
  Esp.wifiDisconnect
  if !(← configure ssid password) then
    Esp.respond unableToConfigure
    return
  Esp.respond savedPage
  Esp.wifiConnect

/-! ## Runs of the board -/

structure Board where
  stored : Bytes → Option Bytes
  pending : Option (Bytes × Bytes)
  station : Option Station
  unread : Bytes
  committed : Bool
  sent : Option SetupAnswer

def Board.commit (b : Board) : Bytes → Option Bytes :=
  match b.pending with
  | some (key, value) => fun k => if k = key then some value else b.stored k
  | none => b.stored

/-- What the calls come to. Any of them may fail, but a store with an entry can be opened and read; a commit
is made as a whole or not at all. -/
def Board.serves (json : CJson) (accepts : Station → Bool) : Surroundings BoardOp.Ret Board := fun b op r b' =>
  match op, r with
  | .recv _, none => b' = b
  | .recv n, some chunk => chunk ≠ [] ∧ chunk.length ≤ n ∧ ∃ rest, b.unread = chunk ++ rest ∧ b' = { b with unread := rest }
  | .nonceCopy, (r : Bytes) => b' = b ∧ r.length = 33 ∧ 0 ∈ r
  | .uninitialised size, r => b' = b ∧ r.length = size
  | .print ssid password, r => b' = b ∧ (r = none ∨ r = some (json.print ssid password))
  | .nvsOpen readWrite, r => b' = { b with pending := none } ∧
      (readWrite = false → (∃ key, b.stored key ≠ none) → r = true)
  | .nvsGetStr key size, r => b' = b ∧ r = (b.stored key).filter fun value => value.length + 1 ≤ size
  | .nvsSetStr key value, (r : Bool) => b' = { b with pending := if r then some (key, value) else b.pending }
  | .nvsCommit, (r : Bool) => b' = if r then { b with stored := b.commit, pending := none, committed := true } else b
  | .nvsClose, _ => b' = { b with pending := none }
  | .wifiSetConfig station, (r : Bool) => r = accepts station ∧ b' = { b with station := if r then some station else b.station }
  | .respond answer, _ => b' = { b with sent := some answer }
  | _, _ => b' = b

def Board.rebooted (b : Board) : Board :=
  { stored := b.stored, pending := none, station := none, unread := [], committed := false, sent := none }

def Board.receives (b : Board) (request : SetupRequest) : Board :=
  { b with unread := request.body, committed := false, sent := none }

/-- What is seen of a board: a request with whether it led to a commit and what it was answered, or a boot
with what it came to. -/
inductive SetupEvent
  | save (request : SetupRequest) (committed : Bool) (answer : Option SetupAnswer)
  | boot (config : Bytes → Option CString) (configured : Option Bool) (station : Option Station)

/-- **The board**, which may be cut off anywhere. -/
def setup (json : CJson) (accepts : Station → Bool) : Machine Board SetupEvent where
  init _ := True
  step b e b' := match e with
    | .save request committed answer => committed = b'.committed ∧ answer = b'.sent ∧
        ∃ x, Exec (Board.serves json accepts) (b.receives request) (save request) b' x
    | .boot config configured station => station = b'.station ∧
        Exec (Board.serves json accepts) b.rebooted (cameraWifiConfigure json config) b' configured

end Albusforge.Camera
