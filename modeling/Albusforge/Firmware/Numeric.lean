import Albusforge.Lib.Machine
import Albusforge.Firmware.Wire

/-!
# The numeric firmware

`src/firmware/esp32s3/main/hsx_sdk.c`: `hsx_run`, from a boot through the loop that
samples, stores, sends and clears. The flash keeps one string, the JSON of the object
`state`: the packet that is being sent, if there is one, and the next sequence. Every
write of it is atomic. A write that fails halts the device, whether or not it reached
the flash; power may be lost between any two steps. The string is written and read by
cJSON, which is not part of the repository: `reread` is what it reads back of a number
that it wrote.

`numeric_sequence_law` is what the sequences of the packets on the wire obey.
-/

namespace Albusforge.Firmware

open Lib

inductive Event (P R : Type) where
  | quiet
  | rebooted
  | sampled (now : ℤ)
  | persisted (p : P)
  | sent (p : P) (reply : Option R)

/-! ## Sensors -/

section Sensors

variable {ν : Type} [JsNumber ν]

structure Sensors where
  bh1750 : Bool
  bme280 : Bool
  seesawSoil : Bool

structure Raw (ν : Type) where
  lux : Option ν
  climate : Option (ν × ν × ν)
  moisture : Option ν

/-- `push` of `hsx_sensors.c`: an implausible value fails the sample. -/
def push (readings : List (Reading ν)) (channel : Text) (value min max : ν) :
    Option (List (Reading ν)) :=
  if maxReadings ≤ readings.length then none
  else if !JsNumber.isFinite value || JsNumber.lt value min || JsNumber.gt value max then none
  else some (readings ++ [⟨channel, value, min, max, false⟩])

/-- `hsx_sensors_read` -/
def sensorsRead (s : Sensors) (raw : Raw ν) : Option (List (Reading ν)) := do
  let n : ℕ → ν := JsNumber.ofNat
  let r ← if s.bh1750 then raw.lux.bind fun lux => push [] (js "illuminance") lux (n 0) (n 65535)
    else some []
  let r ← if s.bme280 then raw.climate.bind fun (temperature, humidity, pressure) => do
      let r ← push r (js "temperature") temperature (n 0 - n 40) (n 85)
      let r ← push r (js "humidity") humidity (n 0) (n 100)
      push r (js "pressure") pressure (n 300) (n 1100)
    else some r
  let r ← if s.seesawSoil then
      raw.moisture.bind fun moisture => push r (js "soil_moisture") moisture (n 0) (n 4095)
    else some r
  if r.isEmpty then none else some r

end Sensors

/-! ## The device -/

structure Config where
  device : Text
  sensors : Sensors
  seqStart : ℕ
  start_le : seqStart ≤ 9007199254740990

/-- The object `state`, in memory or in flash. -/
structure Saved (P : Type) where
  packet : Option P
  nextSeq : Option ℕ

/-- Where `hsx_run` is. -/
inductive Phase (P : Type) where
  | booting
  | loop
  | storing (p : P)
  | posting (p : P)
  | clearing
  /-- `fail_closed` -/
  | halted

structure Numeric (P : Type) where
  nvs : Option (Saved P)
  state : Saved P
  seq : ℕ
  phase : Phase P

variable {ν : Type} [JsNumber ν]

/-- What a boot makes of the flash: the state, and the sequence to go on with. The text of
a packet has between 1 and 2048 characters, so that the check of it never fails. -/
def restore {P : Type} (reread : ℕ → ℕ) (seqStart : ℕ) : Option (Saved P) → Option (Saved P × ℕ)
  | none => some (⟨none, none⟩, seqStart)
  | some saved =>
      match saved.nextSeq with
      | none => none
      | some n =>
          let n := reread n
          if n < seqStart || maxSequence < n then none else some (⟨saved.packet, some n⟩, n)

/-- A status `hsx_run` does not go on from. -/
def refusal (status : ℕ) : Bool := [400, 401, 403, 409, 413].contains status

def afterReply {P : Type} : Option ℕ → Phase P
  | none => .loop
  | some status => if status = 202 then .clearing else if refusal status then .halted else .loop

section

variable (print : ν → Numeral) (reread : ℕ → ℕ) (cfg : Config)

inductive Numeric.Step (s : Numeric (Packet print cfg.device)) :
    Event (Packet print cfg.device) ℕ → Numeric (Packet print cfg.device) → Prop
  | reboot : Step s .rebooted ⟨s.nvs, ⟨none, none⟩, 0, .booting⟩
  /-- `fail_closed`, anywhere: no memory, no sensors, a failed write that did not reach the flash. -/
  | fail : Step s .quiet { s with phase := .halted }
  | boot (state : Saved (Packet print cfg.device)) (seq : ℕ) : s.phase = .booting →
      restore reread cfg.seqStart s.nvs = some (state, seq) → Step s .quiet ⟨s.nvs, state, seq, .loop⟩
  | bootFail : s.phase = .booting → restore reread cfg.seqStart s.nvs = none →
      Step s .quiet { s with phase := .halted }
  | skip : s.phase = .loop → Step s .quiet s
  | sample (p : Packet print cfg.device) (raw : Raw ν) : s.phase = .loop → s.state.packet = none →
      1700000000 ≤ p.timestamp → sensorsRead cfg.sensors raw = some p.readings →
      s.seq < maxSequence → p.sequence = s.seq →
      Step s (.sampled p.timestamp) { s with phase := .storing p }
  | store (p : Packet print cfg.device) : s.phase = .storing p →
      Step s (.persisted p) ⟨some ⟨some p, some (s.seq + 1)⟩, ⟨some p, some (s.seq + 1)⟩,
        s.seq + 1, .posting p⟩
  | storeFail (p : Packet print cfg.device) : s.phase = .storing p →
      Step s (.persisted p) { s with nvs := some ⟨some p, some (s.seq + 1)⟩, phase := .halted }
  | resume (p : Packet print cfg.device) : s.phase = .loop → s.state.packet = some p →
      Step s .quiet { s with phase := .posting p }
  | post (p : Packet print cfg.device) (reply : Option ℕ) : s.phase = .posting p →
      Step s (.sent p reply) { s with
        state := if reply = some 202 then { s.state with packet := none } else s.state
        phase := afterReply reply }
  | clear : s.phase = .clearing → Step s .quiet { s with nvs := some s.state, phase := .loop }
  | clearFail : s.phase = .clearing → Step s .quiet { s with nvs := some s.state, phase := .halted }

def numeric : Machine (Numeric (Packet print cfg.device)) (Event (Packet print cfg.device) ℕ) where
  init s := s = ⟨none, ⟨none, none⟩, 0, .booting⟩
  step := Numeric.Step print reread cfg

end

/-! ## What has been seen -/

section Seen

variable {P R : Type}

def sentIn (es : List (Event P R)) : List P :=
  es.filterMap fun
    | .sent p _ => some p
    | _ => none

def persistedIn (es : List (Event P R)) : List P :=
  es.filterMap fun
    | .persisted p => some p
    | _ => none

def answeredIn (es : List (Event P R)) (answer : R → Bool) : List P :=
  es.filterMap fun
    | .sent p (some r) => if answer r then some p else none
    | _ => none

end Seen

/-! ## The law of sequences -/

section Law

variable {print : ν → Numeral} {reread : ℕ → ℕ} {cfg : Config}

/-- **What the sequences of the packets on the wire obey.** -/
structure SequenceLaw (cfg : Config) (es : List (Event (Packet print cfg.device) ℕ)) : Prop where
  identical : ∀ p ∈ sentIn es, ∀ q ∈ sentIn es, p.sequence = q.sequence → p.text = q.text
  increasing : (sentIn es).Pairwise fun p q => p.text = q.text ∨ p.sequence < q.sequence
  bounds : ∀ p ∈ sentIn es, cfg.seqStart ≤ p.sequence ∧ p.sequence ≤ 2 ^ 53 - 1
  waits : ∀ before q reply, before ++ [.sent q reply] <+: es → ∀ p ∈ persistedIn before,
    p.sequence < q.sequence → p ∈ answeredIn before (· == 202)

structure Flash (cfg : Config) (es : List (Event (Packet print cfg.device) ℕ))
    (nvs : Option (Saved (Packet print cfg.device))) : Prop where
  stored : ∀ p ∈ sentIn es, p ∈ persistedIn es
  unique : ∀ p ∈ persistedIn es, ∀ q ∈ persistedIn es, p.sequence = q.sequence → p = q
  bounds : ∀ p ∈ persistedIn es, cfg.seqStart ≤ p.sequence ∧ p.sequence < maxSequence
  empty : nvs = none → persistedIn es = []
  /-- **Every packet is in the flash or acknowledged**, and below the next sequence. -/
  full : ∀ saved, nvs = some saved → ∃ n, saved.nextSeq = some n ∧
    (cfg.seqStart ≤ n ∧ n ≤ maxSequence) ∧
    (∀ p, saved.packet = some p → p ∈ persistedIn es ∧ p.sequence + 1 = n) ∧
    ∀ p ∈ persistedIn es, p.sequence < n ∧
      (saved.packet = some p ∨ p ∈ answeredIn es (· == 202))

def InStep (cfg : Config) (s : Numeric (Packet print cfg.device)) : Prop :=
  (s.nvs = none ∧ s.state = ⟨none, none⟩ ∧ s.seq = cfg.seqStart) ∨
    (s.nvs = some s.state ∧ s.state.nextSeq = some s.seq)

def Memory (cfg : Config) (es : List (Event (Packet print cfg.device) ℕ))
    (s : Numeric (Packet print cfg.device)) : Prop :=
  match s.phase with
  | .booting | .halted => True
  | .loop => InStep cfg s
  | .storing p => InStep cfg s ∧ s.state.packet = none ∧ p.sequence = s.seq ∧ s.seq < maxSequence
  | .posting p => s.nvs = some s.state ∧ s.state.nextSeq = some s.seq ∧ s.state.packet = some p
  | .clearing => ∃ p, s.nvs = some ⟨some p, some s.seq⟩ ∧ s.state = ⟨none, some s.seq⟩ ∧
      p ∈ answeredIn es (· == 202)

structure Invariant (cfg : Config) (es : List (Event (Packet print cfg.device) ℕ))
    (s : Numeric (Packet print cfg.device)) : Prop where
  flash : Flash cfg es s.nvs
  memory : Memory cfg es s
  law : SequenceLaw cfg es

theorem sentIn_append {P R : Type} (es es' : List (Event P R)) :
    sentIn (es ++ es') = sentIn es ++ sentIn es' := List.filterMap_append

theorem persistedIn_append {P R : Type} (es es' : List (Event P R)) :
    persistedIn (es ++ es') = persistedIn es ++ persistedIn es' := List.filterMap_append

theorem answeredIn_append {P R : Type} (es es' : List (Event P R)) (answer : R → Bool) :
    answeredIn (es ++ es') answer = answeredIn es answer ++ answeredIn es' answer :=
  List.filterMap_append

structure Silent {P R : Type} (e : Event P R) : Prop where
  sent : sentIn [e] = []
  persisted : persistedIn [e] = []
  answered : ∀ answer, answeredIn [e] answer = []

theorem silent_quiet {P R : Type} : Silent (.quiet : Event P R) := ⟨rfl, rfl, fun _ => rfl⟩
theorem silent_rebooted {P R : Type} : Silent (.rebooted : Event P R) := ⟨rfl, rfl, fun _ => rfl⟩
theorem silent_sampled {P R : Type} (now : ℤ) : Silent (.sampled now : Event P R) :=
  ⟨rfl, rfl, fun _ => rfl⟩

variable {es : List (Event (Packet print cfg.device) ℕ)} {nvs : Option (Saved (Packet print cfg.device))}
  {s s' : Numeric (Packet print cfg.device)} {e : Event (Packet print cfg.device) ℕ}

theorem Flash.silent (h : Flash cfg es nvs) (he : Silent e) : Flash cfg (es ++ [e]) nvs := by
  have hs : sentIn (es ++ [e]) = sentIn es := by rw [sentIn_append, he.sent, List.append_nil]
  have hp : persistedIn (es ++ [e]) = persistedIn es := by
    rw [persistedIn_append, he.persisted, List.append_nil]
  have ha : answeredIn (es ++ [e]) (· == 202) = answeredIn es (· == 202) := by
    rw [answeredIn_append, he.answered, List.append_nil]
  refine ⟨?_, ?_, ?_, ?_, ?_⟩
  · rw [hs, hp]; exact h.stored
  · rw [hp]; exact h.unique
  · rw [hp]; exact h.bounds
  · rw [hp]; exact h.empty
  · rw [hp, ha]; exact h.full

theorem SequenceLaw.unsent (h : SequenceLaw cfg es) (hs : sentIn [e] = []) :
    SequenceLaw cfg (es ++ [e]) := by
  have hsent : sentIn (es ++ [e]) = sentIn es := by rw [sentIn_append, hs, List.append_nil]
  refine ⟨?_, ?_, ?_, ?_⟩
  · rw [hsent]; exact h.identical
  · rw [hsent]; exact h.increasing
  · rw [hsent]; exact h.bounds
  · intro before q reply hpre
    rcases List.prefix_concat_iff.mp hpre with heq | hpre
    · obtain ⟨-, rfl⟩ : before = es ∧ Event.sent q reply = e := by simpa using heq
      simp [sentIn] at hs
    · exact h.waits before q reply hpre

theorem SequenceLaw.send (h : SequenceLaw cfg es) {saved : Saved (Packet print cfg.device)}
    (hf : Flash cfg es (some saved)) {p : Packet print cfg.device} (hp : saved.packet = some p)
    (reply : Option ℕ) : SequenceLaw cfg (es ++ [.sent p reply]) := by
  obtain ⟨n, -, hn, hpacket, hall⟩ := hf.full saved rfl
  obtain ⟨hmem, hnext⟩ := hpacket p hp
  have hsent : sentIn (es ++ [.sent p reply]) = sentIn es ++ [p] := by
    rw [sentIn_append]; rfl
  -- every packet sent so far is this one, or below it
  have hbelow : ∀ q ∈ sentIn es, q = p ∨ q.sequence < p.sequence := by
    intro q hq
    have hlt := (hall q (hf.stored q hq)).1
    rcases Nat.lt_or_ge q.sequence p.sequence with hqp | hqp
    · exact Or.inr hqp
    · exact Or.inl (hf.unique q (hf.stored q hq) p hmem (by omega))
  refine ⟨?_, ?_, ?_, ?_⟩
  · have hone : ∀ q ∈ sentIn es, q.sequence = p.sequence → q.text = p.text := by
      intro q hq heq
      rcases hbelow q hq with rfl | hlt
      · rfl
      · omega
    rw [hsent]
    intro q hq q' hq' heq
    rcases List.mem_append.mp hq with hold | hnew
    · rcases List.mem_append.mp hq' with hold' | hnew'
      · exact h.identical q hold q' hold' heq
      · obtain rfl : q' = p := by simpa using hnew'
        exact hone q hold heq
    · obtain rfl : q = p := by simpa using hnew
      rcases List.mem_append.mp hq' with hold' | hnew'
      · exact (hone q' hold' heq.symm).symm
      · obtain rfl : q' = q := by simpa using hnew'
        rfl
  · rw [hsent, List.pairwise_append]
    refine ⟨h.increasing, by simp, ?_⟩
    intro q hq q' hq'
    obtain rfl : q' = p := by simpa using hq'
    rcases hbelow q hq with rfl | hlt
    · exact Or.inl rfl
    · exact Or.inr hlt
  · rw [hsent]
    intro q hq
    rcases List.mem_append.mp hq with hold | hnew
    · exact h.bounds q hold
    · obtain rfl : q = p := by simpa using hnew
      have := hf.bounds q hmem
      unfold maxSequence at this
      omega
  · intro before q reply' hpre
    rcases List.prefix_concat_iff.mp hpre with heq | hpre
    · obtain ⟨rfl, rfl⟩ : before = es ∧ q = p := by
        have := List.append_inj' heq rfl
        simp_all
      intro q' hq' hlt
      rcases (hall q' hq').2 with hsame | hack
      · rw [hp] at hsame
        obtain rfl := Option.some.inj hsame
        omega
      · exact hack
    · exact h.waits before q reply' hpre

theorem Flash.store (h : Flash cfg es s.nvs) (hsync : InStep cfg s) (hnone : s.state.packet = none)
    {p : Packet print cfg.device} (hseq : p.sequence = s.seq) (hmax : s.seq < maxSequence) :
    Flash cfg (es ++ [.persisted p]) (some ⟨some p, some (s.seq + 1)⟩) := by
  -- every packet so far is below the next sequence, and acknowledged
  have hold : cfg.seqStart ≤ s.seq ∧
      ∀ q ∈ persistedIn es, q.sequence < s.seq ∧ q ∈ answeredIn es (· == 202) := by
    rcases hsync with ⟨hnvs, -, hstart⟩ | ⟨hnvs, hnext⟩
    · rw [h.empty hnvs, hstart]
      simp
    · obtain ⟨n, hn, hbounds, -, hall⟩ := h.full s.state hnvs
      obtain rfl : s.seq = n := Option.some.inj (hnext.symm.trans hn)
      refine ⟨hbounds.1, ?_⟩
      intro q hq
      obtain ⟨hlt, hsame | hack⟩ := hall q hq
      · rw [hnone] at hsame
        exact absurd hsame (by simp)
      · exact ⟨hlt, hack⟩
  have hs : sentIn (es ++ [.persisted p]) = sentIn es := by
    rw [sentIn_append]
    exact List.append_nil _
  have hp : persistedIn (es ++ [.persisted p]) = persistedIn es ++ [p] := by
    rw [persistedIn_append]
    rfl
  have ha : answeredIn (es ++ [.persisted p]) (· == 202) = answeredIn es (· == 202) := by
    rw [answeredIn_append]
    exact List.append_nil _
  refine ⟨?_, ?_, ?_, ?_, ?_⟩
  · intro q hq
    rw [hs] at hq
    rw [hp]
    exact List.mem_append_left _ (h.stored q hq)
  · rw [hp]
    intro q hq q' hq' heq
    rcases List.mem_append.mp hq with hq₁ | hq₁
    · rcases List.mem_append.mp hq' with hq₂ | hq₂
      · exact h.unique q hq₁ q' hq₂ heq
      · obtain rfl : q' = p := by simpa using hq₂
        have := (hold.2 q hq₁).1
        omega
    · obtain rfl : q = p := by simpa using hq₁
      rcases List.mem_append.mp hq' with hq₂ | hq₂
      · have := (hold.2 q' hq₂).1
        omega
      · obtain rfl : q' = q := by simpa using hq₂
        rfl
  · rw [hp]
    intro q hq
    rcases List.mem_append.mp hq with hq₁ | hq₁
    · exact h.bounds q hq₁
    · obtain rfl : q = p := by simpa using hq₁
      omega
  · simp
  · intro saved hsaved
    obtain rfl := Option.some.inj hsaved
    refine ⟨s.seq + 1, rfl, by omega, ?_, ?_⟩
    · intro q hq
      obtain rfl : p = q := by simpa using hq
      rw [hp]
      exact ⟨by simp, by omega⟩
    · rw [hp, ha]
      intro q hq
      rcases List.mem_append.mp hq with hq₁ | hq₁
      · obtain ⟨hlt, hack⟩ := hold.2 q hq₁
        exact ⟨by omega, Or.inr hack⟩
      · obtain rfl : q = p := by simpa using hq₁
        exact ⟨by omega, Or.inl rfl⟩

theorem Flash.clear {p : Packet print cfg.device} {n : ℕ}
    (h : Flash cfg es (some ⟨some p, some n⟩)) (hack : p ∈ answeredIn es (· == 202)) :
    Flash cfg es (some ⟨none, some n⟩) := by
  refine ⟨h.stored, h.unique, h.bounds, by simp, ?_⟩
  intro saved hsaved
  obtain rfl := Option.some.inj hsaved
  obtain ⟨m, hm, hbounds, -, hall⟩ := h.full _ rfl
  obtain rfl : n = m := Option.some.inj hm
  refine ⟨n, rfl, hbounds, by simp, ?_⟩
  intro q hq
  obtain ⟨hlt, hsame | hold⟩ := hall q hq
  · obtain rfl : p = q := by simpa using hsame
    exact ⟨hlt, Or.inr hack⟩
  · exact ⟨hlt, Or.inr hold⟩

theorem Flash.send (h : Flash cfg es nvs) {p : Packet print cfg.device} (hp : p ∈ persistedIn es)
    (reply : Option ℕ) : Flash cfg (es ++ [.sent p reply]) nvs := by
  have hs : sentIn (es ++ [.sent p reply]) = sentIn es ++ [p] := by
    rw [sentIn_append]
    rfl
  have hper : persistedIn (es ++ [.sent p reply]) = persistedIn es := by
    rw [persistedIn_append]
    exact List.append_nil _
  refine ⟨?_, ?_, ?_, ?_, ?_⟩
  · rw [hs, hper]
    intro q hq
    rcases List.mem_append.mp hq with hold | hnew
    · exact h.stored q hold
    · obtain rfl : q = p := by simpa using hnew
      exact hp
  · rw [hper]; exact h.unique
  · rw [hper]; exact h.bounds
  · rw [hper]; exact h.empty
  · intro saved hsaved
    obtain ⟨n, hn, hbounds, hpacket, hall⟩ := h.full saved hsaved
    refine ⟨n, hn, hbounds, by rw [hper]; exact hpacket, ?_⟩
    rw [hper]
    intro q hq
    obtain ⟨hlt, hsame | hold⟩ := hall q hq
    · exact ⟨hlt, Or.inl hsame⟩
    · refine ⟨hlt, Or.inr ?_⟩
      rw [answeredIn_append]
      exact List.mem_append_left _ hold

theorem restore_inStep (hreread : ∀ n ≤ maxSequence, reread n = n) (hf : Flash cfg es nvs)
    {seq : ℕ} {state : Saved (Packet print cfg.device)}
    (h : restore reread cfg.seqStart nvs = some (state, seq)) :
    InStep cfg ⟨nvs, state, seq, .loop⟩ := by
  cases nvs with
  | none =>
      obtain ⟨rfl, rfl⟩ : state = ⟨none, none⟩ ∧ seq = cfg.seqStart := by
        simpa [restore, eq_comm] using h
      exact Or.inl ⟨rfl, rfl, rfl⟩
  | some saved =>
      obtain ⟨packet, nextSeq⟩ := saved
      obtain ⟨n, rfl, hn, -⟩ := hf.full _ rfl
      simp only [restore, hreread n hn.2] at h
      split at h
      · simp at h
      · obtain ⟨rfl, rfl⟩ := Prod.mk.inj (Option.some.inj h)
        exact Or.inr ⟨rfl, rfl⟩

theorem Memory.loop {es' : List (Event (Packet print cfg.device) ℕ)} (h : InStep cfg s)
    (hphase : s.phase = .loop) : Memory cfg es' s := by
  unfold Memory
  rw [hphase]
  exact h

theorem Memory.post {p : Packet print cfg.device} (hnvs : s.nvs = some s.state)
    (hnext : s.state.nextSeq = some s.seq) (hpacket : s.state.packet = some p)
    (reply : Option ℕ) : Memory cfg (es ++ [.sent p reply]) { s with
      state := if reply = some 202 then { s.state with packet := none } else s.state
      phase := afterReply reply } := by
  have hsync : InStep cfg { s with phase := .loop } := Or.inr ⟨hnvs, hnext⟩
  cases reply with
  | none => exact hsync
  | some status =>
      by_cases hok : status = 202
      · subst hok
        refine ⟨p, ?_, ?_, ?_⟩
        · rw [hnvs, ← hpacket, ← hnext]
        · simp [hnext]
        · rw [answeredIn_append]
          exact List.mem_append_right _ (by simp [answeredIn])
      · by_cases hrefused : refusal status = true
        · simp [Memory, afterReply, hok, hrefused]
        · simp only [Memory, afterReply, Option.some.injEq, hok, hrefused, if_false]
          exact hsync

/-- **One step of the firmware keeps the invariant.** -/
theorem Invariant.step (hreread : ∀ n ≤ maxSequence, reread n = n) (h : Invariant cfg es s)
    (hs : Numeric.Step print reread cfg s e s') : Invariant cfg (es ++ [e]) s' := by
  have hmem := h.memory
  unfold Memory at hmem
  cases hs with
  | reboot => exact ⟨h.flash.silent silent_rebooted, trivial, h.law.unsent rfl⟩
  | fail => exact ⟨h.flash.silent silent_quiet, trivial, h.law.unsent rfl⟩
  | boot state seq hphase hrestore =>
      refine ⟨h.flash.silent silent_quiet, ?_, h.law.unsent rfl⟩
      exact Memory.loop (restore_inStep hreread h.flash hrestore) rfl
  | bootFail hphase hrestore => exact ⟨h.flash.silent silent_quiet, trivial, h.law.unsent rfl⟩
  | skip hphase =>
      rw [hphase] at hmem
      exact ⟨h.flash.silent silent_quiet, Memory.loop hmem hphase, h.law.unsent rfl⟩
  | sample p raw hphase hnone htime hread hmax hseq =>
      rw [hphase] at hmem
      exact ⟨h.flash.silent (silent_sampled _), ⟨hmem, hnone, hseq, hmax⟩, h.law.unsent rfl⟩
  | store p hphase =>
      rw [hphase] at hmem
      obtain ⟨hsync, hnone, hseq, hmax⟩ := hmem
      exact ⟨h.flash.store hsync hnone hseq hmax, ⟨rfl, rfl, rfl⟩, h.law.unsent rfl⟩
  | storeFail p hphase =>
      rw [hphase] at hmem
      obtain ⟨hsync, hnone, hseq, hmax⟩ := hmem
      exact ⟨h.flash.store hsync hnone hseq hmax, trivial, h.law.unsent rfl⟩
  | resume p hphase hpacket =>
      rw [hphase] at hmem
      refine ⟨h.flash.silent silent_quiet, ?_, h.law.unsent rfl⟩
      rcases hmem with ⟨-, hstate, -⟩ | ⟨hnvs, hnext⟩
      · rw [hstate] at hpacket
        exact absurd hpacket (by simp)
      · exact ⟨hnvs, hnext, hpacket⟩
  | post p reply hphase =>
      rw [hphase] at hmem
      obtain ⟨hnvs, hnext, hpacket⟩ := hmem
      have hflash := h.flash
      rw [hnvs] at hflash
      obtain ⟨n, hn, -, hp, -⟩ := hflash.full s.state rfl
      refine ⟨h.flash.send (hp p hpacket).1 reply, ?_, h.law.send hflash hpacket reply⟩
      exact Memory.post hnvs hnext hpacket reply
  | clear hphase =>
      rw [hphase] at hmem
      obtain ⟨p, hnvs, hstate, hack⟩ := hmem
      have hflash := h.flash
      rw [hnvs] at hflash
      have hcleared := hflash.clear hack
      rw [← hstate] at hcleared
      refine ⟨hcleared.silent silent_quiet, ?_, h.law.unsent rfl⟩
      refine Memory.loop (Or.inr ⟨rfl, ?_⟩) rfl
      show s.state.nextSeq = some s.seq
      rw [hstate]
  | clearFail hphase =>
      rw [hphase] at hmem
      obtain ⟨p, hnvs, hstate, hack⟩ := hmem
      have hflash := h.flash
      rw [hnvs] at hflash
      have hcleared := hflash.clear hack
      rw [← hstate] at hcleared
      exact ⟨hcleared.silent silent_quiet, trivial, h.law.unsent rfl⟩

end Law

namespace Bench

def config : Config :=
  { device := device, sensors := ⟨true, false, false⟩, seqStart := 7, start_le := by decide }

def light : Reading ℚ := ⟨js "illuminance", 21, 0, 65535, false⟩

def lightText : Text := emitPacket printWhole device 7 1700000000 [light] 60

theorem light_encoded :
    encodeReadings printWhole 1024 device 7 1700000000 [light] 60 = some lightText := by
  decide +kernel

def first : Packet printWhole config.device := ⟨7, 1700000000, [light], 60, lightText, light_encoded⟩

end Bench

end Albusforge.Firmware
