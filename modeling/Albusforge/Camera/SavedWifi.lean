import Albusforge.Camera.FormFields
import Albusforge.Camera.SettingsText

/-!
# Saved settings and the next boot

A save leaves the store as it was, or its settings in it, and says which (`save_spec`). A boot takes the
text of the store if its buffer holds it, and silently goes on to the provisioned credentials if not
(`boot_ends`). **So settings that were answered for are those of every later boot exactly if their text has
at most 511 bytes** (`saved_survives_iff`), which those with control characters may exceed.
-/

namespace Albusforge.Camera

open Lib Lib.Proc Lib.CMemory Lib.Machine

variable {json : CJson} {accepts : Station → Bool} {b b' b₁ : Board} {request : SetupRequest}

/-! ## Configuring the station -/

def stationOf (ssid password : Bytes) : Station :=
  { ssid := array 32 ssid, password := array 64 password, authmode := .wpa2Psk }

theorem configure_eq {ssid password rest rest' : Bytes} (hssid : 0 ∉ ssid) (hpassword : 0 ∉ password) :
    configure (ssid ++ 0 :: rest) (password ++ 0 :: rest') =
      if WifiValid ssid password then Esp.wifiSetConfig (stationOf ssid password) else pure false := by
  unfold configure
  rw [setupWifiValid_spec hssid hpassword, stringAt_zero hssid, stringAt_zero hpassword]
  by_cases hvalid : WifiValid ssid password
  · rw [if_pos hvalid, decide_eq_true hvalid]
    rfl
  · rw [if_neg hvalid, decide_eq_false hvalid]
    rfl

def stationFrom (accepts : Station → Bool) : (ssid password : Option CString) → Option Station
  | some ssid, some password =>
      if WifiValid ssid.bytes password.bytes ∧ accepts (stationOf ssid.bytes password.bytes) = true then
        some (stationOf ssid.bytes password.bytes)
      else none
  | _, _ => none

theorem configureFrom_ends {ssid password : Option CString} {Q : Bool → Board → Prop}
    (h : Q (stationFrom accepts ssid password).isSome
      { b with station := (stationFrom accepts ssid password).or b.station }) :
    ends (Board.serves json accepts) (configureFrom ssid password) Q b := by
  cases ssid with
  | none => exact h
  | some ssid =>
  cases password with
  | none => exact h
  | some password =>
  rw [configureFrom, configure_eq ssid.nonzero password.nonzero]
  rw [stationFrom] at h
  split
  · rename_i hvalid
    refine ends_ask ⟨_, _, rfl, rfl⟩ ?_
    rintro r b' ⟨hr, hb'⟩
    subst hr hb'
    cases haccepts : accepts (stationOf ssid.bytes password.bytes) with
    | true =>
        rw [if_pos ⟨hvalid, haccepts⟩] at h
        exact h
    | false =>
        rw [if_neg (by simp [haccepts])] at h
        exact h
  · rename_i hvalid
    rw [if_neg fun hboth => hvalid hboth.1] at h
    exact h

/-! ## A boot -/

def textOf (stored : Bytes → Option Bytes) : Option Bytes :=
  (stored wifiLocal).filter fun text => text.length + 1 ≤ 512

def bootStation (json : CJson) (accepts : Station → Bool) (stored : Bytes → Option Bytes)
    (config : Bytes → Option CString) : Option Station :=
  ((textOf stored).bind fun text =>
    stationFrom accepts (json.item text (chars "ssid")) (json.item text (chars "password"))).or
  (stationFrom accepts (config (chars "wifi_ssid")) (config (chars "wifi_password")))

theorem savedText_ends {Q : Option Bytes → Board → Prop} (h : Q (textOf b.stored) { b with pending := none }) :
    ends (Board.serves json accepts) savedText Q b := by
  refine ends_bind (ends_ask ⟨true, _, rfl, fun _ _ => rfl⟩ ?_)
  intro opened b₁ ⟨hb₁, hopens⟩
  subst hb₁
  cases opened with
  | false =>
      -- nothing is stored at all
      have hnone : textOf b.stored = none := by
        rw [textOf]
        cases hstored : b.stored wifiLocal with
        | none => rfl
        | some text => exact absurd (hopens rfl ⟨wifiLocal, by simp [hstored]⟩) (by simp)
      rw [hnone] at h
      exact h
  | true =>
      refine ends_bind (ends_ask ⟨_, _, rfl, rfl⟩ ?_)
      intro raw b₂ ⟨hb₂, hraw⟩
      subst hb₂ hraw
      refine ends_bind (ends_ask ⟨(), _, rfl⟩ ?_)
      intro _ b₃ hb₃
      obtain rfl : b₃ = _ := hb₃
      exact h

theorem boot_ends (b : Board) (config : Bytes → Option CString) :
    ends (Board.serves json accepts) (cameraWifiConfigure json config)
      (fun ok b' => b'.station = bootStation json accepts b.stored config ∧ ok = b'.station.isSome) b.rebooted := by
  have hfallback : ∀ b₁ : Board, b₁.station = none → ends (Board.serves json accepts)
      (configureFrom (config (chars "wifi_ssid")) (config (chars "wifi_password")))
      (fun ok b' => b'.station = stationFrom accepts (config (chars "wifi_ssid")) (config (chars "wifi_password")) ∧
        ok = b'.station.isSome) b₁ := by
    intro b₁ hstation
    refine configureFrom_ends ?_
    simp [hstation]
  refine ends_bind (savedText_ends ?_)
  have hstored : b.rebooted.stored = b.stored := rfl
  rw [bootStation, hstored]
  cases textOf b.stored with
  | none => exact hfallback _ rfl
  | some text =>
      refine ends_bind (configureFrom_ends ?_)
      have hnone : b.rebooted.station = none := rfl
      simp only [Option.bind_some, hnone, Option.or_none]
      cases stationFrom accepts (json.item text (chars "ssid")) (json.item text (chars "password")) with
      | none => exact hfallback _ rfl
      | some station => exact ⟨rfl, rfl⟩

/-! ## What a call leaves alone -/

structure Still (b b' : Board) : Prop where
  stored : b'.stored = b.stored
  unread : b'.unread = b.unread
  committed : b'.committed = b.committed
  sent : b'.sent = b.sent

theorem Still.refl (b : Board) : Still b b := ⟨rfl, rfl, rfl, rfl⟩

theorem Still.trans {b'' : Board} (h : Still b b') (h' : Still b' b'') : Still b b'' :=
  ⟨h'.stored.trans h.stored, h'.unread.trans h.unread, h'.committed.trans h.committed, h'.sent.trans h.sent⟩

def BoardOp.Quiet : BoardOp → Prop
  | recv _ => False
  | nvsCommit => False
  | respond _ => False
  | _ => True

theorem serves_still {op : BoardOp} {r : op.Ret} (hquiet : op.Quiet) (h : Board.serves json accepts b op r b') :
    Still b b' := by
  cases op with
  | recv n => exact hquiet.elim
  | nvsCommit => exact hquiet.elim
  | respond answer => exact hquiet.elim
  | nonceCopy => exact h.1 ▸ .refl b
  | uninitialised size => exact h.1 ▸ .refl b
  | print ssid password => exact h.1 ▸ .refl b
  | nvsGetStr key size => exact h.1 ▸ .refl b
  | nvsOpen readWrite => exact h.1 ▸ ⟨rfl, rfl, rfl, rfl⟩
  | wifiSetConfig station => exact h.2 ▸ ⟨rfl, rfl, rfl, rfl⟩
  | nvsSetStr key value =>
      obtain rfl : b' = _ := h
      exact ⟨rfl, rfl, rfl, rfl⟩
  | nvsClose =>
      obtain rfl : b' = _ := h
      exact ⟨rfl, rfl, rfl, rfl⟩
  | active => exact (show b' = b from h) ▸ .refl b
  | getsockname => exact (show b' = b from h) ▸ .refl b
  | getHeader name size => exact (show b' = b from h) ▸ .refl b
  | wifiDisconnect => exact (show b' = b from h) ▸ .refl b
  | wifiConnect => exact (show b' = b from h) ▸ .refl b

theorem quiet_wp {α : Type} {t : BoardProc α} (h : t.Asks BoardOp.Quiet) :
    wp (Board.serves json accepts) t (fun _ => Still b) (Still b) b :=
  h.wp (fun _ _ _ _ hquiet hstill hserves => hstill.trans (serves_still hquiet hserves)) (.refl b)

theorem within_quiet {α : Type} {a : Access α} : (within a).Asks BoardOp.Quiet := by
  cases a with
  | none => trivial
  | some a => trivial

theorem ask_quiet (op : BoardOp) (h : op.Quiet) : (ask op : BoardProc op.Ret).Asks BoardOp.Quiet := ⟨h, fun _ => trivial⟩

theorem configure_quiet {ssid password : Bytes} : (configure ssid password).Asks BoardOp.Quiet := by
  refine within_quiet.bind ?_
  intro valid
  cases valid with
  | false => trivial
  | true => exact within_quiet.bind fun _ => within_quiet.bind fun _ => ask_quiet (.wifiSetConfig _) trivial

theorem apRequest_quiet : apRequest.Asks BoardOp.Quiet := by
  refine (ask_quiet .active trivial).bind ?_
  intro active
  cases active with
  | false => trivial
  | true =>
      refine (ask_quiet .getsockname trivial).bind ?_
      intro address
      cases address with
      | none => trivial
      | some address => trivial

theorem canonicalHost_quiet : canonicalHost.Asks BoardOp.Quiet := by
  refine (ask_quiet (.getHeader _ _) trivial).bind ?_
  intro host
  cases host with
  | value host => trivial
  | notFound => trivial
  | truncated => trivial

theorem sameOrigin_quiet : sameOrigin.Asks BoardOp.Quiet := by
  refine (ask_quiet (.getHeader _ _) trivial).bind ?_
  intro origin
  cases origin with
  | value origin => trivial
  | notFound => trivial
  | truncated => trivial

theorem setupRequest_quiet : (setupRequest request).Asks BoardOp.Quiet := by
  refine apRequest_quiet.bind ?_
  intro ap
  cases ap with
  | false => trivial
  | true =>
  refine canonicalHost_quiet.bind ?_
  intro host
  cases host with
  | false => trivial
  | true =>
  refine sameOrigin_quiet.bind ?_
  intro origin
  cases origin with
  | false => trivial
  | true => trivial

theorem configureFrom_quiet {ssid password : Option CString} : (configureFrom ssid password).Asks BoardOp.Quiet := by
  cases ssid with
  | none => trivial
  | some ssid =>
      cases password with
      | none => trivial
      | some password => exact configure_quiet

theorem savedText_quiet : savedText.Asks BoardOp.Quiet := by
  refine (ask_quiet (.nvsOpen false) trivial).bind ?_
  intro opened
  cases opened with
  | false => trivial
  | true => exact (ask_quiet (.nvsGetStr _ _) trivial).bind fun _ => (ask_quiet .nvsClose trivial).bind fun _ => trivial

theorem cameraWifiConfigure_quiet {config : Bytes → Option CString} :
    (cameraWifiConfigure json config).Asks BoardOp.Quiet := by
  refine savedText_quiet.bind ?_
  intro raw
  cases raw with
  | none => exact configureFrom_quiet
  | some raw =>
      refine configureFrom_quiet.bind ?_
      intro ok
      cases ok with
      | true => trivial
      | false => exact configureFrom_quiet

/-! ## A save, stage by stage -/

def SetupRequest.text (request : SetupRequest) : Bytes := (request.body.take request.contentLen).takeWhile (· ≠ 0)

theorem receive_wp {n rounds : ℕ} {body : Bytes} (hlength : body.length ≤ n) (hrounds : n ≤ body.length + rounds) :
    wp (Board.serves json accepts) (receive n rounds body)
      (fun r b' => (∃ u, b' = { b with unread := u }) ∧ ∀ whole, r = some whole → whole = (body ++ b.unread).take n)
      (fun b' => ∃ u, b' = { b with unread := u }) b := by
  have hdone : n ≤ body.length → ∀ whole, some body = some whole → whole = (body ++ b.unread).take n := by
    intro hn whole hwhole
    obtain rfl := Option.some.inj hwhole
    rw [List.take_left' (by omega)]
  induction rounds generalizing body b with
  | zero =>
      unfold receive
      rw [if_pos (by omega)]
      exact ⟨⟨⟨b.unread, rfl⟩, hdone (by omega)⟩, b.unread, rfl⟩
  | succ rounds ih =>
      unfold receive
      split
      · rename_i hn
        exact ⟨⟨⟨b.unread, rfl⟩, hdone hn⟩, b.unread, rfl⟩
      · refine wp_bind ⟨⟨b.unread, rfl⟩, ?_⟩
        intro r b₁ hr
        cases r with
        | none =>
            obtain rfl : b₁ = b := hr
            exact ⟨⟨⟨⟨b₁.unread, rfl⟩, by simp⟩, b₁.unread, rfl⟩, b₁.unread, rfl⟩
        | some chunk =>
            obtain ⟨hne, hfits, rest, hunread, rfl⟩ := hr
            have hpos := List.length_pos_iff.mpr hne
            refine ⟨?_, rest, rfl⟩
            refine wp_mono ?_ ?_ (ih ?_ ?_ ?_)
            · intro r b' ⟨⟨u, hb'⟩, hwhole⟩
              refine ⟨⟨u, hb'⟩, ?_⟩
              intro whole hr
              rw [hwhole whole hr, hunread, List.append_assoc]
            · intro b' hb'
              exact hb'
            · rw [List.length_append]
              omega
            · rw [List.length_append]
              omega
            · intro hn whole hwhole
              obtain rfl := Option.some.inj hwhole
              rw [List.take_left' (by rw [List.length_append] at hn ⊢; omega)]

theorem array_string {body : Bytes} {size : ℕ} (h : body.length < size) :
    ∃ more, array size body = body.takeWhile (· ≠ 0) ++ 0 :: more ∧ 0 ∉ body.takeWhile (· ≠ 0) := by
  obtain ⟨k, hk⟩ : ∃ k, size - body.length = k + 1 := ⟨size - body.length - 1, by omega⟩
  obtain ⟨rest, hrest, hzero⟩ := exists_string (show (0 : UInt8) ∈ body ++ [0] by simp)
  have hsame : (body ++ [0]).takeWhile (· ≠ 0) = body.takeWhile (· ≠ 0) := by
    by_cases hmem : 0 ∈ body
    · obtain ⟨front, back, hsplit, hfront⟩ := List.eq_append_cons_of_mem hmem
      have hpass : ∀ c ∈ front, decide (c ≠ 0) = true := by
        intro c hc
        rw [decide_eq_true_iff]
        intro heq
        exact hfront (heq ▸ hc)
      rw [hsplit, List.append_assoc, List.takeWhile_append_of_pos hpass, List.takeWhile_append_of_pos hpass]
      rfl
    · have hpass : ∀ c ∈ body, decide (c ≠ 0) = true := by
        intro c hc
        rw [decide_eq_true_iff]
        intro heq
        exact hmem (heq ▸ hc)
      rw [List.takeWhile_append_of_pos hpass, List.takeWhile_eq_self_iff.mpr hpass]
      simp
  rw [hsame] at hrest hzero
  refine ⟨rest ++ List.replicate k 0, ?_, hzero⟩
  rw [array, hk, List.replicate_succ, ← List.singleton_append, ← List.append_assoc, hrest]
  simp

structure FormIn (text ssid password : Bytes) (s p : Bytes) : Prop where
  form : ∃ token, Form text token s p
  ssid : ∃ rest, ssid = s ++ 0 :: rest
  password : ∃ rest, password = p ++ 0 :: rest

theorem FormIn.nonzero {text ssid password s p : Bytes} (h : FormIn text ssid password s p) : 0 ∉ s ∧ 0 ∉ p := by
  obtain ⟨token, hform⟩ := h.form
  exact ⟨hform.ssidField.nonzero, hform.passwordField.nonzero⟩

theorem takeForm_wp {body : Bytes} (hlength : body.length ≤ 512) :
    wp (Board.serves json accepts) (takeForm body)
      (fun r b' => Still b b' ∧ ∀ ssid password, r = some (ssid, password) →
        ∃ s p, FormIn (body.takeWhile (· ≠ 0)) ssid password s p) (Still b) b := by
  refine wp_bind ⟨.refl b, ?_⟩
  intro (csrf : Bytes) b₁ ⟨hb₁, hcsrf, hzero⟩
  subst hb₁
  refine ⟨wp_bind (wp_mono ?_ (fun _ h => h) (quiet_wp apRequest_quiet)), .refl b₁⟩
  intro ap b₂ hstill
  cases ap with
  | false => exact ⟨⟨hstill, by simp⟩, hstill⟩
  | true =>
  refine wp_bind ⟨hstill, ?_⟩
  intro (nonce : Bytes) b₃ ⟨hb₃, hnonce⟩
  subst hb₃
  refine ⟨wp_bind ⟨hstill, ?_⟩, hstill⟩
  intro (ssid : Bytes) b₄ ⟨hb₄, hssid⟩
  subst hb₄
  refine ⟨wp_bind ⟨hstill, ?_⟩, hstill⟩
  intro (password : Bytes) b₅ ⟨hb₅, hpassword⟩
  subst hb₅
  obtain ⟨more, hbuffer, hbody⟩ := array_string (show body.length < 513 by omega)
  obtain ⟨extra, htoken, htokenZero⟩ := exists_string hzero
  obtain ⟨ok, ssid', password', hparse, hok, hvalues⟩ :=
    setupFormParse_spec more extra hbody htokenZero hnonce hssid hpassword
  rw [← hbuffer, ← htoken] at hparse
  refine ⟨?_, hstill⟩
  beta_reduce
  rw [hparse]
  refine ⟨⟨hstill, ?_⟩, hstill⟩
  intro ssid'' password'' hr
  cases ok with
  | false => exact absurd hr (by simp)
  | true =>
      obtain ⟨rfl, rfl⟩ := Prod.mk.inj (Option.some.inj hr)
      obtain ⟨s, p, hform⟩ := hok.mp rfl
      obtain ⟨hs, hp⟩ := hvalues rfl s p hform
      obtain ⟨rest, hrest, -⟩ := stringAt_zero_inv hs
      obtain ⟨rest', hrest', -⟩ := stringAt_zero_inv hp
      exact ⟨s, p, ⟨_, hform⟩, ⟨rest, hrest⟩, rest', hrest'⟩

structure Written (json : CJson) (s p : Bytes) (b b' : Board) : Prop where
  stored : b'.stored = fun key => if key = wifiLocal then some (json.print s p) else b.stored key
  committed : b'.committed = true
  sent : b'.sent = b.sent

theorem Written.still {s p : Bytes} (h : Written json s p b b₁) (hstill : Still b₁ b') : Written json s p b b' :=
  ⟨hstill.stored.trans h.stored, hstill.committed.trans h.committed, hstill.sent.trans h.sent⟩

theorem saveSettings_wp {s p rest rest' : Bytes} (hs : 0 ∉ s) (hp : 0 ∉ p) :
    wp (Board.serves json accepts) (saveSettings (s ++ 0 :: rest) (p ++ 0 :: rest'))
      (fun ok b' => if ok then Written json s p b b' else Still b b') (fun b' => Still b b' ∨ Written json s p b b') b := by
  unfold saveSettings
  rw [stringAt_zero hs, stringAt_zero hp]
  have hrefl := Still.refl b
  refine ⟨Or.inl hrefl, ?_⟩
  intro r b₁ ⟨hb₁, hprinted⟩
  subst hb₁
  rcases hprinted with rfl | rfl
  · exact ⟨hrefl, Or.inl hrefl⟩
  refine ⟨Or.inl hrefl, ?_⟩
  intro opened b₂ ⟨hb₂, _⟩
  subst hb₂
  have hopened : Still b₁ { b₁ with pending := none } := ⟨rfl, rfl, rfl, rfl⟩
  cases opened with
  | false => exact ⟨hopened, Or.inl hopened⟩
  | true =>
  refine ⟨Or.inl hopened, ?_⟩
  intro set b₃ hb₃
  obtain rfl : b₃ = _ := hb₃
  cases set with
  | false =>
      refine ⟨Or.inl hopened, ?_⟩
      intro _ b₄ hb₄
      obtain rfl : b₄ = _ := hb₄
      exact ⟨hopened, Or.inl hopened⟩
  | true =>
      have hset : Still b₁ { b₁ with pending := some (wifiLocal, json.print s p) } := ⟨rfl, rfl, rfl, rfl⟩
      refine ⟨Or.inl hset, ?_⟩
      intro committed b₄ hb₄
      obtain rfl : b₄ = _ := hb₄
      cases committed with
      | false =>
          refine ⟨Or.inl hset, ?_⟩
          intro _ b₅ hb₅
          obtain rfl : b₅ = _ := hb₅
          exact ⟨hopened, Or.inl hopened⟩
      | true =>
          refine ⟨Or.inr ⟨rfl, rfl, rfl⟩, ?_⟩
          intro _ b₅ hb₅
          obtain rfl : b₅ = _ := hb₅
          exact ⟨⟨rfl, rfl, rfl⟩, Or.inr ⟨rfl, rfl, rfl⟩⟩

def refusals : List SetupAnswer := [invalidRequest, incompleteRequest, invalidSettings, unableToSave]

/-- **What a save leaves, wherever it ends**: the store as it was, or the settings of the form in it. -/
inductive Saving (json : CJson) (accepts : Station → Bool) (request : SetupRequest) (b : Board) : Board → Prop
  | before {b' : Board} : b'.stored = b.stored → b'.committed = false →
      (b'.sent = none ∨ ∃ answer ∈ refusals, b'.sent = some answer) → Saving json accepts request b b'
  | after {b' : Board} {s p token : Bytes} : Form request.text token s p →
      (b'.stored = fun key => if key = wifiLocal then some (json.print s p) else b.stored key) →
      b'.committed = true →
      (b'.sent = none ∨ b'.sent = some unableToConfigure ∨
        b'.sent = some savedPage ∧ accepts (stationOf s p) = true) → Saving json accepts request b b'

theorem Saving.refused {answer : SetupAnswer} (hstored : b'.stored = b.stored) (hcommitted : b'.committed = false)
    (hsent : b'.sent = none) (h : answer ∈ refusals) :
    wp (Board.serves json accepts) (Esp.respond answer) (fun _ => Saving json accepts request b)
      (Saving json accepts request b) b' := by
  refine ⟨.before hstored hcommitted (Or.inl hsent), ?_⟩
  intro _ b'' hb''
  obtain rfl : b'' = _ := hb''
  have hsaving : Saving json accepts request b { b' with sent := some answer } :=
    .before hstored hcommitted (Or.inr ⟨answer, h, rfl⟩)
  exact ⟨hsaving, hsaving⟩

theorem setupRequest_short : wp (Board.serves json accepts) (setupRequest request)
    (fun ok _ => ok = true → request.contentLen ≤ 512) (fun _ => True) b := by
  refine wp_bind (wp_mono ?_ (fun _ _ => trivial) (quiet_wp apRequest_quiet))
  intro ap b₁ _
  cases ap with
  | false => exact ⟨by simp, trivial⟩
  | true =>
  refine wp_bind (wp_mono ?_ (fun _ _ => trivial) (quiet_wp canonicalHost_quiet))
  intro host b₂ _
  cases host with
  | false => exact ⟨by simp, trivial⟩
  | true =>
  refine wp_bind (wp_mono ?_ (fun _ _ => trivial) (quiet_wp sameOrigin_quiet))
  intro origin b₃ _
  cases origin with
  | false => exact ⟨by simp, trivial⟩
  | true => exact ⟨by simp, trivial⟩

theorem save_spec (b : Board) (request : SetupRequest) : wp (Board.serves json accepts) (save request)
    (fun _ => Saving json accepts request b) (Saving json accepts request b) (b.receives request) := by
  have hbefore : ∀ b', Still (b.receives request) b' → Saving json accepts request b b' := fun b' hstill =>
    .before hstill.stored hstill.committed (Or.inl hstill.sent)
  refine wp_bind (wp_mono ?_ (fun b' hboth => hbefore b' hboth.1) (wp_and (quiet_wp setupRequest_quiet) setupRequest_short))
  intro allowed b₁ ⟨hstill, hshort⟩
  cases allowed with
  | false => exact Saving.refused hstill.stored hstill.committed hstill.sent (by simp [refusals])
  | true =>
  have hreceiving : ∀ b', (∃ u, b' = { b₁ with unread := u }) → Saving json accepts request b b' := by
    intro b' ⟨u, hb'⟩
    subst hb'
    exact .before hstill.stored hstill.committed (Or.inl hstill.sent)
  refine wp_bind (wp_mono ?_ hreceiving (receive_wp (Nat.zero_le _) (by simp)))
  intro body b₂ ⟨⟨u, hb₂⟩, hwhole⟩
  subst hb₂
  cases body with
  | none => exact Saving.refused hstill.stored hstill.committed hstill.sent (by simp [refusals])
  | some body =>
  have hbody : body = request.body.take request.contentLen := by
    rw [hwhole body rfl, hstill.unread]
    rfl
  -- the request as it goes on, which has said nothing yet
  generalize hb₃ : ({ b₁ with unread := u } : Board) = b₃
  have hstored : b₃.stored = b.stored := hb₃ ▸ hstill.stored
  have hcommitted : b₃.committed = false := hb₃ ▸ hstill.committed
  have hsent : b₃.sent = none := hb₃ ▸ hstill.sent
  have hforming : ∀ b', Still b₃ b' → Saving json accepts request b b' := fun b' hstill =>
    .before (hstill.stored.trans hstored) (hstill.committed.trans hcommitted) (Or.inl (hstill.sent.trans hsent))
  have hlength : body.length ≤ 512 := by
    have hshort := hshort rfl
    rw [hbody, List.length_take]
    omega
  refine wp_bind (wp_mono ?_ hforming (takeForm_wp hlength))
  intro settings b₄ ⟨hstill, hform⟩
  have hstored := hstill.stored.trans hstored
  have hcommitted := hstill.committed.trans hcommitted
  have hsent := hstill.sent.trans hsent
  cases settings with
  | none => exact Saving.refused hstored hcommitted hsent (by simp [refusals])
  | some settings =>
  obtain ⟨ssid, password⟩ := settings
  obtain ⟨s, p, hformIn⟩ := hform ssid password rfl
  obtain ⟨hs, hp⟩ := hformIn.nonzero
  obtain ⟨⟨token, htaken⟩, ⟨rest, rfl⟩, rest', rfl⟩ := hformIn
  rw [hbody] at htaken
  have hafter : ∀ b', Written json s p b₄ b' → Saving json accepts request b b' := by
    intro b' hwritten
    exact .after htaken (hstored ▸ hwritten.stored) hwritten.committed (Or.inl (hwritten.sent.trans hsent))
  have hsaving : ∀ b', Still b₄ b' ∨ Written json s p b₄ b' → Saving json accepts request b b' := by
    intro b' hor
    rcases hor with hstill | hwritten
    · exact .before (hstill.stored.trans hstored) (hstill.committed.trans hcommitted) (Or.inl (hstill.sent.trans hsent))
    · exact hafter b' hwritten
  refine wp_bind (wp_mono ?_ hsaving (saveSettings_wp hs hp))
  intro saved b₅ hsaved
  cases saved with
  | false =>
      have hstill : Still b₄ b₅ := hsaved
      exact Saving.refused (hstill.stored.trans hstored) (hstill.committed.trans hcommitted) (hstill.sent.trans hsent)
        (by simp [refusals])
  | true =>
  have hwritten : Written json s p b₄ b₅ := hsaved
  refine ⟨hafter b₅ hwritten, ?_⟩
  intro _ b₆ hb₆
  obtain rfl : b₆ = b₅ := hb₆
  have hanswered : ∀ b' answer, Written json s p b₄ b' → answer = unableToConfigure ∨
      answer = savedPage ∧ accepts (stationOf s p) = true →
      Saving json accepts request b { b' with sent := some answer } := by
    intro b' answer hwritten hanswer
    refine .after htaken (hstored ▸ hwritten.stored) hwritten.committed (Or.inr ?_)
    rcases hanswer with rfl | ⟨rfl, haccepts⟩
    · exact Or.inl rfl
    · exact Or.inr ⟨rfl, haccepts⟩
  have hfailed : ∀ b', Written json s p b₄ b' → wp (Board.serves json accepts) (Esp.respond unableToConfigure)
      (fun _ => Saving json accepts request b) (Saving json accepts request b) b' := by
    intro b' hwritten
    refine ⟨hafter b' hwritten, ?_⟩
    intro _ b'' hb''
    obtain rfl : b'' = _ := hb''
    exact ⟨hanswered b' _ hwritten (Or.inl rfl), hanswered b' _ hwritten (Or.inl rfl)⟩
  beta_reduce
  rw [configure_eq hs hp]
  split
  · refine ⟨hafter b₆ hwritten, ?_⟩
    intro configured b₇ ⟨hconfigured, hb₇⟩
    subst hconfigured hb₇
    have hwritten : ∀ station, Written json s p b₄ { b₆ with station := station } := fun _ =>
      hwritten.still ⟨rfl, rfl, rfl, rfl⟩
    cases haccepts : accepts (stationOf s p) with
    | false => exact hfailed _ (hwritten _)
    | true =>
        refine ⟨hafter _ (hwritten _), ?_⟩
        intro _ b₈ hb₈
        obtain rfl : b₈ = _ := hb₈
        have hpage := hanswered _ savedPage (hwritten (some (stationOf s p))) (Or.inr ⟨rfl, haccepts⟩)
        refine ⟨hpage, ?_⟩
        intro _ b₉ hb₉
        obtain rfl : b₉ = _ := hb₉
        exact ⟨hpage, hpage⟩
  · exact hfailed _ hwritten

/-! ## Settings from one boot to the next -/

def SetupEvent.commits : SetupEvent → Bool
  | save _ committed _ => committed
  | boot _ _ _ => false

theorem step_stored {e : SetupEvent} (h : (setup json accepts).step b e b') (hcommits : e.commits = false) :
    b'.stored = b.stored := by
  cases e with
  | save request committed answer =>
      obtain ⟨hcommitted, -, x, hexec⟩ := h
      obtain rfl : committed = false := hcommits
      have hwp := hexec.wp (save_spec b request)
      have hsaving : Saving json accepts request b b' := by
        cases x with
        | none => exact hwp.2 rfl
        | some _ => exact hwp.1 _ rfl
      cases hsaving with
      | before hstored _ _ => exact hstored
      | after _ _ htrue _ => exact absurd (hcommitted.trans htrue) (by simp)
  | boot config configured station =>
      obtain ⟨-, hexec⟩ := h
      have hwp := hexec.wp (quiet_wp cameraWifiConfigure_quiet)
      have hstill : Still b.rebooted b' := by
        cases configured with
        | none => exact hwp.2 rfl
        | some _ => exact hwp.1 _ rfl
      exact hstill.stored

theorem steps_stored {es : List SetupEvent} (h : (setup json accepts).Steps b es b')
    (hcommits : ∀ e ∈ es, e.commits = false) : b'.stored = b.stored := by
  induction h with
  | refl => rfl
  | step hone _ ih =>
      rw [ih fun e he => hcommits e (List.mem_cons_of_mem _ he)]
      exact step_stored hone (hcommits _ List.mem_cons_self)

def Boots (json : CJson) (accepts : Station → Bool) (b : Board) (config : Bytes → Option CString)
    (station : Station) : Prop :=
  ends (Board.serves json accepts) (cameraWifiConfigure json config)
    (fun ok b' => ok = true ∧ b'.station = some station) b.rebooted

theorem boots_iff {config : Bytes → Option CString} {station : Station} :
    Boots json accepts b config station ↔ bootStation json accepts b.stored config = some station := by
  constructor
  · intro h
    obtain ⟨s', ok, ⟨_, hstation⟩, hboot, _⟩ := ends_meet h (boot_ends b config)
    rw [← hboot, hstation]
  · intro h
    refine ends_mono ?_ (boot_ends b config)
    intro ok b' ⟨hstation, hok⟩
    rw [h] at hstation
    exact ⟨by simp [hok, hstation], hstation⟩

theorem bootStation_saved (hjson : json.Documented) (ssid password : CString) (hvalid : WifiValid ssid.bytes password.bytes)
    (haccepts : accepts (stationOf ssid.bytes password.bytes) = true)
    {stored : Bytes → Option Bytes} (hstored : stored wifiLocal = some (json.print ssid.bytes password.bytes))
    (config : Bytes → Option CString) : bootStation json accepts stored config =
      if 25 + (ssid.bytes.flatMap escaped).length + (password.bytes.flatMap escaped).length ≤ 511 then
        some (stationOf ssid.bytes password.bytes)
      else stationFrom accepts (config (chars "wifi_ssid")) (config (chars "wifi_password")) := by
  have hlength := settingsText_length ssid.bytes password.bytes
  rw [← hjson.prints ssid password] at hlength
  have hfrom : stationFrom accepts (some ssid) (some password) = some (stationOf ssid.bytes password.bytes) := by
    rw [stationFrom, if_pos ⟨hvalid, haccepts⟩]
  rw [bootStation, textOf, hstored]
  split
  · have hfits : (json.print ssid.bytes password.bytes).length + 1 ≤ 512 := by omega
    simp [Option.filter, hfits, hjson.ssid, hjson.password, hfrom]
  · have hlong : ¬ (json.print ssid.bytes password.bytes).length + 1 ≤ 512 := by omega
    simp [Option.filter, hlong]

theorem Form.unique {text token token' s p s' p' : Bytes} (h : Form text token s p) (h' : Form text token' s' p') :
    s = s' ∧ p = p' :=
  ⟨h.ssidField.unique h'.ssidField, h.passwordField.unique h'.passwordField⟩

def Survives (json : CJson) (accepts : Station → Bool) (b : Board) (ssid password : Bytes) : Prop :=
  ∀ es b', (setup json accepts).Steps b es b' → (∀ e ∈ es, e.commits = false) →
    ∀ config, Boots json accepts b' config (stationOf ssid password)

theorem survives_iff (hjson : json.Documented) {s p : Bytes} (hs : 0 ∉ s) (hp : 0 ∉ p) (hvalid : WifiValid s p)
    (haccepts : accepts (stationOf s p) = true) (hstored : b.stored wifiLocal = some (json.print s p)) :
    Survives json accepts b s p ↔ 25 + (s.flatMap escaped).length + (p.flatMap escaped).length ≤ 511 := by
  have hboot := @bootStation_saved json accepts hjson ⟨s, hs⟩ ⟨p, hp⟩ hvalid haccepts
  constructor
  · intro h
    have hnow := boots_iff.mp (h [] b (.refl b) (by simp) fun _ => none)
    rw [hboot hstored] at hnow
    split at hnow
    · assumption
    · exact absurd hnow (by simp [stationFrom])
  · intro hfits es b' hsteps hcommits config
    rw [boots_iff, hboot (by rw [steps_stored hsteps hcommits, hstored]), if_pos hfits]

/-! ## Every valid pair can be saved -/

section

variable (json : CJson) (accepts : Station → Bool) (b : Board)

theorem apRequest_exec : Exec (Board.serves json accepts) b apRequest b (some true) := by
  refine (Exec.ask (show Board.serves json accepts b .active true b from rfl)).andThen ?_
  refine (Exec.ask (show Board.serves json accepts b .getsockname (some [192, 168, 4, 1]) b from rfl)).andThen ?_
  exact .ret

theorem canonicalHost_exec : Exec (Board.serves json accepts) b canonicalHost b (some true) := by
  have hhost : Board.serves json accepts b (.getHeader "Host" 32) (.value (chars "192.168.4.1")) b := rfl
  exact (Exec.ask hhost).andThen .ret

theorem sameOrigin_exec : Exec (Board.serves json accepts) b sameOrigin b (some true) := by
  have horigin : Board.serves json accepts b (.getHeader "Origin" 40) .notFound b := rfl
  exact (Exec.ask horigin).andThen .ret

theorem setupRequest_exec (hpos : 0 < request.contentLen) (hshort : request.contentLen ≤ 512) :
    Exec (Board.serves json accepts) b (setupRequest request) b (some true) := by
  have hallowed : (decide (0 < request.contentLen) && decide (request.contentLen ≤ 512)) = true := by simp [hpos, hshort]
  unfold setupRequest
  rw [hallowed]
  exact (apRequest_exec json accepts b).andThen ((canonicalHost_exec json accepts b).andThen
    ((sameOrigin_exec json accepts b).andThen .ret))

theorem receive_done {n rounds : ℕ} {body : Bytes} (h : n ≤ body.length) : receive n rounds body = pure (some body) := by
  cases rounds with
  | zero => rw [receive, if_pos h]
  | succ rounds => rw [receive, if_pos h]

theorem receive_exec {body : Bytes} (hbody : body ≠ []) (hunread : b.unread = body) :
    Exec (Board.serves json accepts) b (receive body.length body.length []) { b with unread := [] } (some (some body)) := by
  obtain ⟨n, hn⟩ := Nat.exists_eq_succ_of_ne_zero (mt List.eq_nil_of_length_eq_zero hbody)
  have hrecv : Board.serves json accepts b (.recv body.length) (some body) { b with unread := [] } :=
    ⟨hbody, Nat.le_refl _, [], by simp [hunread], rfl⟩
  have hpending : ¬ body.length ≤ ([] : Bytes).length := by
    rw [hn]
    exact Nat.not_succ_le_zero n
  have hexec : Exec (Board.serves json accepts) b (receive body.length (n + 1) []) { b with unread := [] }
      (some (some body)) := by
    rw [receive, if_neg hpending]
    refine (Exec.ask hrecv).andThen ?_
    show Exec _ _ (receive body.length n body) _ _
    rw [receive_done (Nat.le_refl _)]
    exact .ret
  rwa [← Nat.succ_eq_add_one, ← hn] at hexec

theorem takeForm_exec {body token s p : Bytes} (hlength : body.length ≤ 512) (htoken : 0 ∉ token)
    (hform : Form (body.takeWhile (· ≠ 0)) token s p) : ∃ ssid password,
    Exec (Board.serves json accepts) b (takeForm body) b (some (some (ssid, password))) ∧
      FormIn (body.takeWhile (· ≠ 0)) ssid password s p := by
  have hshort := hform.token
  obtain ⟨more, hbuffer, hbody⟩ := array_string (show body.length < 513 by omega)
  have hcsrf : array 33 token = token ++ 0 :: List.replicate (32 - token.length) 0 := by
    rw [array, show 33 - token.length = 32 - token.length + 1 by omega, List.replicate_succ]
  have hzeros : ∀ size, (List.replicate size (0 : UInt8)).length = size := fun size => List.length_replicate
  obtain ⟨ok, ssid, password, hparse, hok, hvalues⟩ := setupFormParse_spec more (List.replicate (32 - token.length) 0)
    hbody htoken (hzeros 33) (hzeros 33) (hzeros 64)
  obtain rfl := hok.mpr ⟨s, p, hform⟩
  obtain ⟨hs, hp⟩ := hvalues rfl s p hform
  obtain ⟨rest, hrest, -⟩ := stringAt_zero_inv hs
  obtain ⟨rest', hrest', -⟩ := stringAt_zero_inv hp
  refine ⟨ssid, password, ?_, ⟨token, hform⟩, ⟨rest, hrest⟩, rest', hrest'⟩
  have huninitialised : ∀ size, Exec (Board.serves json accepts) b (Esp.uninitialised size) b
      (some (List.replicate size 0)) := fun size =>
    Exec.ask (show Board.serves json accepts b (.uninitialised size) (List.replicate size (0 : UInt8)) b from
      ⟨rfl, List.length_replicate⟩)
  have hnonce : Board.serves json accepts b .nonceCopy (array 33 token) b := by
    refine ⟨rfl, ?_, ?_⟩
    · rw [hcsrf]
      simp
      omega
    · rw [hcsrf]
      simp
  rw [← hbuffer, ← hcsrf] at hparse
  refine (Exec.ask hnonce).andThen ((apRequest_exec json accepts b).andThen ((huninitialised 33).andThen ((huninitialised 33).andThen
    ((huninitialised 64).andThen ?_))))
  rw [hparse]
  exact .ret

theorem saveSettings_exec {s p : Bytes} (hs : 0 ∉ s) (hp : 0 ∉ p) (rest rest' : Bytes) : ∃ b', Written json s p b b' ∧
    Exec (Board.serves json accepts) b (saveSettings (s ++ 0 :: rest) (p ++ 0 :: rest')) b' (some true) := by
  let opened : Board := { b with pending := none }
  let set : Board := { b with pending := some (wifiLocal, json.print s p) }
  let written : Board := { set with stored := set.commit, pending := none, committed := true }
  have hprint : Board.serves json accepts b (.print s p) (some (json.print s p)) b := ⟨rfl, Or.inr rfl⟩
  have hopen : Board.serves json accepts b (.nvsOpen true) true opened := ⟨rfl, by simp⟩
  have hset : Board.serves json accepts opened (.nvsSetStr wifiLocal (json.print s p)) true set := rfl
  have hcommit : Board.serves json accepts set .nvsCommit true written := rfl
  have hclose : Board.serves json accepts written .nvsClose () written := rfl
  have hend : Exec (Board.serves json accepts) written (Esp.nvsClose >>= fun _ => pure true) written (some true) :=
    (Exec.ask hclose).andThen .ret
  unfold saveSettings
  rw [stringAt_zero hs, stringAt_zero hp]
  exact ⟨written, ⟨rfl, rfl, rfl⟩, (Exec.ask hprint).andThen ((Exec.ask hopen).andThen ((Exec.ask hset).andThen
    ((Exec.ask hcommit).andThen hend)))⟩

theorem save_exec {token s p : Bytes} (htoken : 0 ∉ token) (hlength : request.body.length = request.contentLen)
    (hform : Form request.text token s p) (hshort : request.contentLen ≤ 512) (haccepts : accepts (stationOf s p) = true) :
    ∃ b', (setup json accepts).step b (.save request true (some savedPage)) b' := by
  have hwhole : request.body.take request.contentLen = request.body := by rw [← hlength, List.take_length]
  rw [SetupRequest.text, hwhole] at hform
  have hne : request.body ≠ [] := by
    intro hnil
    obtain ⟨e, he, -⟩ := hform.ssidField
    simp [hnil, fields, not_isField_nil] at he
  have hpos : 0 < request.contentLen := by
    rw [← hlength]
    exact List.length_pos_iff.mpr hne
  have hreceive := receive_exec json accepts (b.receives request) hne rfl
  rw [hlength] at hreceive
  obtain ⟨ssid, password, htake, hin⟩ := takeForm_exec json accepts { b.receives request with unread := [] }
    (by omega) htoken hform
  have hvalid := hform.valid
  obtain ⟨hs, hp⟩ := hin.nonzero
  obtain ⟨-, ⟨rest, rfl⟩, rest', rfl⟩ := hin
  obtain ⟨b₁, hwritten, hsave⟩ := saveSettings_exec json accepts { b.receives request with unread := [] } hs hp rest rest'
  have hdisconnect : Board.serves json accepts b₁ .wifiDisconnect () b₁ := rfl
  have hconfigure : Exec (Board.serves json accepts) b₁ (configure (s ++ 0 :: rest) (p ++ 0 :: rest'))
      { b₁ with station := some (stationOf s p) } (some true) := by
    rw [configure_eq hs hp, if_pos hvalid]
    refine Exec.ask ?_
    exact ⟨haccepts.symm, rfl⟩
  have hrespond : Board.serves json accepts { b₁ with station := some (stationOf s p) } (.respond savedPage) ()
    { b₁ with station := some (stationOf s p), sent := some savedPage } := rfl
  have hconnect : Board.serves json accepts { b₁ with station := some (stationOf s p), sent := some savedPage }
    .wifiConnect () { b₁ with station := some (stationOf s p), sent := some savedPage } := rfl
  refine ⟨{ b₁ with station := some (stationOf s p), sent := some savedPage }, hwritten.committed.symm, rfl, some (), ?_⟩
  exact (setupRequest_exec json accepts _ hpos hshort).andThen (hreceive.andThen (htake.andThen (hsave.andThen
    ((Exec.ask hdisconnect).andThen (hconfigure.andThen ((Exec.ask hrespond).andThen (Exec.ask hconnect)))))))

/-- **Any board that is given valid settings, in some form, can save them.** -/
theorem valid_saved {s p : Bytes} (hs : 0 ∉ s) (hp : 0 ∉ p) (hvalid : WifiValid s p)
    (haccepts : accepts (stationOf s p) = true) : ∃ request token b', Form request.text token s p ∧
      (setup json accepts).step b (.save request true (some savedPage)) b' := by
  obtain ⟨es, hes⟩ := exists_encoding hs
  obtain ⟨ep, hep⟩ := exists_encoding hp
  have htoken : 0 ∉ chars "nonce" := by decide
  have hmade : Made [chars "csrf" ++ 61 :: chars "nonce", chars "ssid" ++ 61 :: es, chars "password" ++ 61 :: ep]
      (chars "nonce") s p := ⟨chars "nonce", es, ep, encodes_plain (by decide), hes, hep, .refl _⟩
  have hform := hmade.form (by decide) hvalid
  have hzero := intercalate_nonzero fun f hf => (hmade.bytes f hf).1
  generalize ([38] : Bytes).intercalate _ = body at hform hzero
  have htext : (body.take body.length).takeWhile (· ≠ 0) = body := by
    rw [List.take_length, List.takeWhile_eq_self_iff]
    intro c hc
    rw [decide_eq_true_iff]
    intro heq
    exact hzero (heq ▸ hc)
  have hform' : Form (SetupRequest.text ⟨body.length, body⟩) (chars "nonce") s p := by
    rw [SetupRequest.text, htext]
    exact hform
  obtain ⟨b', hstep⟩ := save_exec json accepts b htoken rfl hform' hform.short haccepts
  exact ⟨_, _, b', hform', hstep⟩

end

/-! ## What the page promises -/

structure Promised (json : CJson) (accepts : Station → Bool) (b b₁ : Board) (request : SetupRequest)
    (committed : Bool) (answer : Option SetupAnswer) (kept : Bytes → Bytes → Prop) : Prop where
  saved : answer = some savedPage → (∃ token s p, Form request.text token s p) ∧
    ∀ token s p, Form request.text token s p → (Survives json accepts b₁ s p ↔ kept s p)
  refused : committed = false → b₁.stored = b.stored ∧
    ∀ config station, Boots json accepts b₁ config station ↔ Boots json accepts b config station
  answers : ∀ a, answer = some a → (a ∈ refusals ↔ committed = false)

theorem promised_iff (hjson : json.Documented) {committed : Bool} {answer : Option SetupAnswer}
    (h : (setup json accepts).step b (.save request committed answer) b₁) :
    Promised json accepts b b₁ request committed answer fun s p =>
      25 + (s.flatMap escaped).length + (p.flatMap escaped).length ≤ 511 := by
  obtain ⟨rfl, rfl, x, hexec⟩ := h
  have hwp := hexec.wp (save_spec b request)
  have hsaving : Saving json accepts request b b₁ := by
    cases x with
    | none => exact hwp.2 rfl
    | some _ => exact hwp.1 _ rfl
  cases hsaving with
  | before hstored hcommitted hsent =>
      refine ⟨?_, ?_, ?_⟩
      · intro hsaved
        rcases hsent with hnone | ⟨answer, hmem, hsent⟩
        · exact absurd (hnone.symm.trans hsaved) (by simp)
        · obtain rfl := Option.some.inj (hsent.symm.trans hsaved)
          exact absurd hmem (by decide)
      · intro _
        refine ⟨hstored, ?_⟩
        intro config station
        rw [boots_iff, boots_iff, hstored]
      · intro a ha
        rcases hsent with hnone | ⟨answer, hmem, hsent⟩
        · exact absurd (hnone.symm.trans ha) (by simp)
        · obtain rfl := Option.some.inj (hsent.symm.trans ha)
          exact iff_of_true hmem hcommitted
  | @after s p token hform hstored hcommitted hsent =>
      refine ⟨?_, ?_, ?_⟩
      · intro hsaved
        refine ⟨⟨token, s, p, hform⟩, ?_⟩
        intro token' s' p' hform'
        obtain ⟨rfl, rfl⟩ := hform.unique hform'
        have haccepts : accepts (stationOf s p) = true := by
          rw [hsaved] at hsent
          rcases hsent with hnone | hunable | ⟨-, haccepts⟩
          · exact absurd hnone (by simp)
          · exact absurd hunable (by decide)
          · exact haccepts
        exact survives_iff hjson hform.ssidField.nonzero hform.passwordField.nonzero hform.valid haccepts
          (by rw [hstored]; exact if_pos rfl)
      · intro hfalse
        exact absurd (hcommitted.symm.trans hfalse) (by simp)
      · intro a ha
        rw [ha] at hsent
        refine iff_of_false ?_ (by simp [hcommitted])
        rcases hsent with hnone | hunable | ⟨hpage, -⟩
        · exact absurd hnone (by simp)
        · obtain rfl := Option.some.inj hunable
          decide
        · obtain rfl := Option.some.inj hpage
          decide

/-- **Settings that the page answered for are those of every later boot exactly if their text fits the buffer
of a boot; an error before the commit leaves the settings as they were.** -/
theorem saved_survives_iff (hjson : json.Documented) : ∀ b request committed answer b₁,
    (setup json accepts).step b (.save request committed answer) b₁ →
      Promised json accepts b b₁ request committed answer fun s p =>
        25 + (s.flatMap escaped).length + (p.flatMap escaped).length ≤ 511 :=
  fun _ _ _ _ _ => promised_iff hjson

def emptyBoard : Board :=
  { stored := fun _ => none, pending := none, station := none, unread := [], committed := false, sent := none }

/-- Settings without anything to escape, which are there after the next boot. -/
theorem saved_survives_plain : ∃ request b₁,
    (setup plainJson fun _ => true).step emptyBoard (.save request true (some savedPage)) b₁ ∧
      Boots plainJson (fun _ => true) b₁ (fun _ => none) (stationOf (chars "Plant") (chars "password")) := by
  obtain ⟨request, token, b₁, hform, hstep⟩ := valid_saved (s := chars "Plant") (p := chars "password") plainJson
    (fun _ => true) emptyBoard (by decide) (by decide) (by decide) rfl
  have hpromised := saved_survives_iff plainJson_documented emptyBoard request true (some savedPage) b₁ hstep
  have hsurvives := ((hpromised.saved rfl).2 token _ _ hform).mpr (by decide)
  exact ⟨request, b₁, hstep, hsurvives [] b₁ (.refl b₁) (by simp) fun _ => none⟩

/-- A network named by 32 control characters, with a password of 63 of them. -/
theorem saved_lost_control : ¬ ∀ (json : CJson) (accepts : Station → Bool), json.Documented →
    ∀ b request committed answer b₁, (setup json accepts).step b (.save request committed answer) b₁ →
      Promised json accepts b b₁ request committed answer fun _ _ => True := by
  intro h
  obtain ⟨request, token, b₁, hform, hstep⟩ := valid_saved (s := List.replicate 32 1) (p := List.replicate 63 1) plainJson
    (fun _ => true) emptyBoard (by decide) (by decide) (by decide) rfl
  have hpromised := h plainJson (fun _ => true) plainJson_documented emptyBoard request true (some savedPage) b₁ hstep
  have hlost := promised_iff plainJson_documented hstep
  have hsurvives := ((hpromised.saved rfl).2 token _ _ hform).mpr trivial
  have hfits := ((hlost.saved rfl).2 token _ _ hform).mp hsurvives
  have hescaped : ∀ n, ((List.replicate n (1 : UInt8)).flatMap escaped).length = 6 * n := by
    intro n
    have hone : (escaped 1).length = 6 := by decide
    rw [List.length_flatMap, List.map_replicate, hone]
    simp [Nat.mul_comm]
  rw [hescaped, hescaped] at hfits
  omega

end Albusforge.Camera
