import Mathlib
import Albusforge.Cloudlink.ExactlyOnce

/-!
# Any order will do

Packets come late and out of order. A device's channels and capabilities stay as they
are; each packet is acceptable at the time it is received. **In whatever order they
are stored, the tables end up the same** (`ingest_order_independent`): every upsert
of the transaction keeps a maximum or adds to a sum, and packets of two sequences
never tie.

What the tables end up as is `Settled`: `latest` by time, sequence and place, the
status by sequence, the rest maxima and sums.
-/

namespace Albusforge.Cloudlink

open Lib Lib.Json

variable {ν : Type} [JsonNumber ν]

/-! ## The statements commute -/

theorem greatest_comm (column : Option ℤ) (x y : ℤ) :
    greatest (greatest column x) y = greatest (greatest column y) x :=
  raise_right_comm column fun h => h

omit [JsonNumber ν] in
theorem Device.touch_comm (d : Device ν) {received received' seq seq' : ℤ} {st st' : WireStatus}
    (hseq : seq ≠ seq') :
    (d.touch received seq st).touch received' seq' st' =
      (d.touch received' seq' st').touch received seq st := by
  unfold Device.touch
  have hseen := greatest_comm d.lastSeenAt received received'
  have hlast := greatest_comm d.lastSeq seq seq'
  -- the status that stays is that of the greatest of three sequences
  have hstatus : (if (greatest d.lastSeq seq).all (fun last => last < seq') then some st'
        else if d.lastSeq.all (fun last => last < seq) then some st else d.status) =
      if (greatest d.lastSeq seq').all (fun last => last < seq) then some st
        else if d.lastSeq.all (fun last => last < seq') then some st' else d.status := by
    rcases d.lastSeq with _ | last
    · simp only [greatest, raise_none, Option.all_some, Option.all_none, decide_eq_true_eq, if_true]
      rcases lt_or_gt_of_ne hseq with h | h
      · rw [if_pos h, if_neg (by omega)]
      · rw [if_neg (by omega), if_pos h]
    · simp only [greatest, raise, id, Option.all_some, decide_eq_true_eq]
      split_ifs <;> simp only [Option.all_some, decide_eq_true_eq] at * <;> first | rfl | omega
  simp only [hseen, hlast, hstatus]

theorem Usage.add_comm (u : Option Usage) (n b n' b' : ℕ) :
    Usage.add (some (Usage.add u n b)) n' b' = Usage.add (some (Usage.add u n' b')) n b := by
  cases u <;> simp only [Usage.add, Usage.mk.injEq] <;> omega

theorem Presence.raise_comm (p : Option Presence) (t r t' r' : ℤ) :
    Presence.raise (some (Presence.raise p t r)) t' r' =
      Presence.raise (some (Presence.raise p t' r')) t r := by
  cases p <;> simp only [Presence.raise, Presence.mk.injEq] <;> omega

omit [JsonNumber ν] in
theorem distinctOn_mem {channel : Text} {rows : List (Row ν)} {row : Row ν}
    (h : distinctOn channel rows = some row) : row ∈ rows ∧ row.channel = channel := by
  have hmem := (foldl_raise_greatest h).mem
  simpa using hmem

/-- **Two packets of different sequences may be stored in either order.** -/
theorem store_comm {capabilities : List (Capability ν)} {e e' : Envelope ν} {received received' : ℤ}
    {p p' : Packet} {rows rows' : List (Row ν)} (s : DeviceTables ν) (hseq : e.seq ≠ e'.seq)
    (hrows : ∀ row ∈ rows, row.seq = e.seq) (hrows' : ∀ row ∈ rows', row.seq = e'.seq) :
    store capabilities e' received' p' rows' (store capabilities e received p rows s) =
      store capabilities e received p rows (store capabilities e' received' p' rows' s) := by
  apply DeviceTables.ext
  · simp only [store_device, Option.map_map]
    congr 1
    funext d
    exact d.touch_comm hseq
  · exact Function.update_comm hseq _ _ _
  · simp only [store_readings]
    rw [Multiset.add_assoc, Multiset.add_comm (rows : Multiset (Row ν)), ← Multiset.add_assoc]
  · funext channel
    simp only [store_latest]
    rcases hrow : distinctOn channel rows with _ | row
    · rfl
    rcases hrow' : distinctOn channel rows' with _ | row'
    · rfl
    · -- the two rows have different sequences, so they do not tie
      refine raise_right_comm _ fun hkey => absurd ?_ hseq
      rw [← hrows row (distinctOn_mem hrow).1, ← hrows' row' (distinctOn_mem hrow').1]
      exact congrArg (fun k => (ofLex (ofLex k).2).1) hkey
  · funext channel hour
    simp only [store_dirtyHours]
    exact Bool.or_right_comm _ _ _
  · simp only [store_usage]
    by_cases hp : period received = period received'
    · rw [hp]
      simp only [Function.update_self, Function.update_idem, Usage.add_comm]
    · rw [Function.update_of_ne hp, Function.update_of_ne (Ne.symm hp)]
      exact Function.update_comm hp _ _ _
  · funext id
    simp only [store_presence]
    rcases (captures capabilities id rows).foldl greatest none with _ | t
    · rfl
    rcases (captures capabilities id rows').foldl greatest none with _ | t'
    · rfl
    · exact congrArg some (Presence.raise_comm _ _ _ _ _)

/-! ## Packets acceptable when they come -/

structure Device.Agrees (d d' : Device ν) : Prop where
  tokenHash : d'.tokenHash = d.tokenHash
  revoked : d'.revoked = d.revoked
  channels : d'.channels = d.channels
  nextS : d'.nextS = d.nextS

section

variable (tokenHash : Text → Text) (g : Shared ν) (k : Text) (d : Device ν)

/-- A packet for device `k`, and a time at which it is acceptable. -/
structure Submission where
  authorization : Option Text
  body : Json ν
  received : ℤ
  envelope : Envelope ν
  parses : Envelope.safeParse body = some envelope
  device : uuidOf envelope.dev = k
  credential : bearerHash tokenHash authorization = some d.tokenHash
  current : d.revoked = false
  authorized : authorizes (g.capabilities k) envelope = some true
  channels : d.channels.accepted = true
  admitted : admission d.channels envelope received = .ok (rowsOf envelope envelope.r 0)
  retained : ∀ row ∈ rowsOf envelope envelope.r 0, g.rawBefore ≤ row.ts
  acknowledged : (⟨(rowsOf envelope envelope.r 0).length, d.nextS⟩ : Ack).accepted = true

end

variable {tokenHash : Text → Text} {g : Shared ν} {k : Text} {d : Device ν}

namespace Submission

variable (p : Submission tokenHash g k d)

def request : Request ν := .post p.authorization p.body p.received

def seq : ℤ := p.envelope.seq

def rows : List (Row ν) := rowsOf p.envelope p.envelope.r 0

def ack : Ack := ⟨p.rows.length, d.nextS⟩

def commit (s : DeviceTables ν) : DeviceTables ν :=
  store (g.capabilities k) p.envelope p.received ⟨fingerprint tokenHash p.envelope, p.ack⟩ p.rows s

theorem rows_seq : ∀ row ∈ p.rows, row.seq = p.seq := fun row hrow => (rowsOf_ordinal.1 row hrow).1

theorem exec_eq {s : DeviceTables ν} {d' : Device ν} (hd : s.device = some d') (hagree : d.Agrees d')
    (hnew : s.packets p.seq = none) :
    (ingest tokenHash p.request).exec g s =
      (p.commit s, ⟨p.request, g.capabilities k, .stored p.ack⟩) := by
  have hmatch : matchesDevice d.tokenHash s = true := by
    simp [matchesDevice, hd, hagree.tokenHash, hagree.revoked, p.current]
  have hfine : (p.rows.any fun r => decide (r.ts < g.rawBefore)) = false := by
    rw [List.any_eq_false]
    intro row hrow
    simpa using p.retained row hrow
  have hnone : s.packets p.envelope.seq = none := hnew
  have hack : (⟨p.rows.length, d'.nextS⟩ : Ack) = p.ack := by rw [hagree.nextS]; rfl
  have hok : p.ack.accepted = true := p.acknowledged
  have hadmission : admission d'.channels p.envelope p.received = .ok p.rows := by
    rw [hagree.channels]
    exact p.admitted
  have hnew : storeNew tokenHash p.request (g.capabilities k) p.envelope p.received d' =
      .write (fun _ s => insertPacket p.envelope.seq ⟨fingerprint tokenHash p.envelope, p.ack⟩ s)
        (storeRest p.request (g.capabilities k) p.envelope p.received p.ack p.rows) := by
    have hchannels : d'.channels.accepted = true := by rw [hagree.channels, p.channels]
    simp [storeNew, hchannels, hadmission, hack, hok]
  have hbody : (ingestBody tokenHash p.request p.envelope p.received).exec g s =
      (p.commit s, ⟨p.request, g.capabilities k, .stored p.ack⟩, true) := by
    simp only [ingestBody, Prog.read, Prog.exec, p.device, hd, p.authorized, hnone, hnew, Prog.write,
      storeRest, hfine]
    rfl
  unfold Submission.request at hbody ⊢
  simp only [Transaction.exec, ingest, p.credential, p.parses, hmatch, if_true, hbody]

end Submission

/-! ## A whole set of packets -/

def serve (tokenHash : Text → Text) (g : Shared ν) :
    DeviceTables ν → List (Request ν) → DeviceTables ν × List Answer
  | s, [] => (s, [])
  | s, q :: qs =>
      let (s', o) := (ingest tokenHash q).exec g s
      let (s'', answers) := serve tokenHash g s' qs
      (s'', o.answer :: answers)

def commitAll (ps : List (Submission tokenHash g k d)) (s : DeviceTables ν) : DeviceTables ν :=
  ps.foldl (fun s p => p.commit s) s

omit [JsonNumber ν] in
theorem Device.Agrees.touch {d₀ d' : Device ν} (h : d₀.Agrees d') (received seq : ℤ)
    (st : WireStatus) : d₀.Agrees (d'.touch received seq st) :=
  ⟨h.tokenHash, h.revoked, h.channels, h.nextS⟩

theorem serve_eq : ∀ {ps : List (Submission tokenHash g k d)} {s : DeviceTables ν} {d' : Device ν},
    s.device = some d' → d.Agrees d' → (ps.map Submission.seq).Nodup →
    (∀ p ∈ ps, s.packets p.seq = none) →
    serve tokenHash g s (ps.map Submission.request) =
      (commitAll ps s, ps.map fun p => .stored p.ack)
  | [], _, _, _, _, _, _ => rfl
  | p :: ps, s, d', hd, hagree, hnodup, hnew => by
      rw [List.map_cons, List.nodup_cons] at hnodup
      have hexec := p.exec_eq hd hagree (hnew p (by simp))
      have hd' : (p.commit s).device = some (d'.touch p.received p.envelope.seq p.envelope.st) := by
        simp [Submission.commit, hd]
      have hnew' : ∀ p' ∈ ps, (p.commit s).packets p'.seq = none := by
        intro p' hp'
        have hne : p'.seq ≠ p.envelope.seq := by
          intro heq
          exact hnodup.1 (List.mem_map.mpr ⟨p', hp', heq⟩)
        rw [Submission.commit, store_packets, Function.update_of_ne hne]
        exact hnew p' (List.mem_cons_of_mem _ hp')
      have hrest := serve_eq hd' (hagree.touch _ _ _) hnodup.2 hnew'
      simp only [List.map_cons, serve, hexec, hrest]
      rfl

theorem commitAll_perm {ps ps' : List (Submission tokenHash g k d)} (hperm : ps.Perm ps')
    (hnodup : (ps.map Submission.seq).Nodup) (s : DeviceTables ν) :
    commitAll ps s = commitAll ps' s := by
  refine hperm.foldl_eq' ?_ s
  intro p hp p' hp' s
  by_cases hpp : p = p'
  · rw [hpp]
  · have hseq : p.seq ≠ p'.seq := by
      intro heq
      exact hpp (List.inj_on_of_nodup_map hnodup hp hp' heq)
    exact store_comm s hseq p.rows_seq p'.rows_seq

/-! ## Where the tables settle -/

def readingsOf (u : Option Usage) : ℕ := u.elim 0 Usage.readingsIn
def bytesOf (u : Option Usage) : ℕ := u.elim 0 Usage.payloadBytes

/-- What the tables `s'` hold once the packets `ps` are stored on top of `s`. -/
structure Settled (s : DeviceTables ν) (ps : List (Submission tokenHash g k d))
    (s' : DeviceTables ν) : Prop where
  /-- **Of every channel the latest reading**: greatest by time, sequence and place. -/
  latest : ∀ channel, Holds latestKey
    ((s.latest channel).toList ++ (ps.flatMap Submission.rows).filter fun r => r.channel == channel)
    (s'.latest channel)
  /-- **The status is that of the greatest sequence**; sequence and time are maxima. -/
  device : ∃ d', s'.device = some d' ∧
    Holds id (d.lastSeq.toList ++ ps.map Submission.seq) d'.lastSeq ∧
    Holds id (d.lastSeenAt.toList ++ ps.map Submission.received) d'.lastSeenAt ∧
    ∀ p ∈ ps, (∀ p' ∈ ps, p'.seq ≤ p.seq) →
      d'.status = if d.lastSeq.all (fun last => last < p.seq) then some p.envelope.st else d.status
  presence : ∀ capability,
    Holds id (((s.presence capability).map Presence.lastCaptureAt).toList ++
        ps.flatMap fun p => captures (g.capabilities k) capability p.rows)
      ((s'.presence capability).map Presence.lastCaptureAt) ∧
    Holds id (((s.presence capability).map Presence.lastReceivedAt).toList ++
        (ps.filter fun p => !(captures (g.capabilities k) capability p.rows).isEmpty).map
          Submission.received)
      ((s'.presence capability).map Presence.lastReceivedAt)
  usage : ∀ month,
    readingsOf (s'.usage month) = readingsOf (s.usage month) +
      ((ps.filter fun p => period p.received == month).map fun p => p.rows.length).sum ∧
    bytesOf (s'.usage month) = bytesOf (s.usage month) +
      ((ps.filter fun p => period p.received == month).map fun p =>
        byteLength (canonical p.envelope)).sum

omit [JsonNumber ν] in
theorem distinctOn_eq {channel : Text} {rows : List (Row ν)} {seq : ℤ}
    (h : ∀ row ∈ rows, row.seq = seq) :
    distinctOn channel rows =
      (rows.filter fun r => r.channel == channel).foldl (raise latestKey) none := by
  refine foldl_raise_congr ?_
  intro a ha b hb
  have ha' : a.seq = seq := h a (by simp at ha; exact ha.1)
  have hb' : b.seq = seq := h b (by simp at hb; exact hb.1)
  simp only [batchKey, latestKey, Prod.Lex.toLex_lt_toLex, ha', hb', lt_self_iff_false, false_or,
    true_and]

theorem commitAll_latest (ps : List (Submission tokenHash g k d)) (s : DeviceTables ν)
    (channel : Text) : (commitAll ps s).latest channel =
      ((ps.flatMap Submission.rows).filter fun r => r.channel == channel).foldl (raise latestKey)
        (s.latest channel) := by
  induction ps generalizing s with
  | nil => rfl
  | cons p ps ih =>
      have hone : (p.commit s).latest channel = (p.rows.filter fun r => r.channel == channel).foldl
          (raise latestKey) (s.latest channel) := by
        rw [Submission.commit, store_latest, distinctOn_eq p.rows_seq, upsert_foldl]
        rfl
      rw [List.flatMap_cons, List.filter_append, List.foldl_append, ← hone]
      exact ih (p.commit s)

def touchAll (ps : List (Submission tokenHash g k d)) (d' : Device ν) : Device ν :=
  ps.foldl (fun d' p => d'.touch p.received p.seq p.envelope.st) d'

theorem commitAll_device (ps : List (Submission tokenHash g k d)) {s : DeviceTables ν}
    {d' : Device ν} (hd : s.device = some d') :
    (commitAll ps s).device = some (touchAll ps d') := by
  induction ps generalizing s d' with
  | nil => exact hd
  | cons p ps ih =>
      refine ih (s := p.commit s) ?_
      simp [Submission.commit, Submission.seq, hd]

theorem touchAll_lastSeq (ps : List (Submission tokenHash g k d)) (d' : Device ν) :
    (touchAll ps d').lastSeq = (ps.map Submission.seq).foldl greatest d'.lastSeq := by
  induction ps generalizing d' with
  | nil => rfl
  | cons p ps ih => exact ih (d'.touch p.received p.seq p.envelope.st)

theorem touchAll_lastSeenAt (ps : List (Submission tokenHash g k d)) (d' : Device ν) :
    (touchAll ps d').lastSeenAt = (ps.map Submission.received).foldl greatest d'.lastSeenAt := by
  induction ps generalizing d' with
  | nil => rfl
  | cons p ps ih => exact ih (d'.touch p.received p.seq p.envelope.st)

theorem greatest_all_lt (column : Option ℤ) (x m : ℤ) :
    (greatest column x).all (fun last => last < m) = (column.all (fun last => last < m) && decide (x < m)) := by
  cases column with
  | none => simp [greatest]
  | some last =>
      simp only [greatest, raise, id, Option.all_some]
      rw [Bool.eq_iff_iff]
      split_ifs <;> simp only [Option.all_some, decide_eq_true_eq, Bool.and_eq_true] <;> omega

theorem touchAll_status_of_passed (ps : List (Submission tokenHash g k d)) (d' : Device ν)
    (h : ∀ p ∈ ps, d'.lastSeq.all (fun last => last < p.seq) = false) :
    (touchAll ps d').status = d'.status := by
  induction ps generalizing d' with
  | nil => rfl
  | cons p ps ih =>
      refine (ih (d'.touch p.received p.seq p.envelope.st) ?_).trans ?_
      · intro p' hp'
        simp [Device.touch, greatest_all_lt, h p' (List.mem_cons_of_mem _ hp')]
      · simp [Device.touch, h p (by simp)]

theorem touchAll_status {ps : List (Submission tokenHash g k d)} {m : Submission tokenHash g k d}
    (d' : Device ν) (hnodup : (ps.map Submission.seq).Nodup) (hm : m ∈ ps)
    (hmax : ∀ p ∈ ps, p.seq ≤ m.seq) :
    (touchAll ps d').status =
      if d'.lastSeq.all (fun last => last < m.seq) then some m.envelope.st else d'.status := by
  induction ps generalizing d' with
  | nil => simp at hm
  | cons p ps ih =>
      rw [List.map_cons, List.nodup_cons] at hnodup
      rcases List.mem_cons.mp hm with rfl | hm
      · -- what comes after the greatest has been passed
        refine (touchAll_status_of_passed ps (d'.touch m.received m.seq m.envelope.st) ?_).trans ?_
        · intro p hp
          have hle := hmax p (List.mem_cons_of_mem _ hp)
          simp [Device.touch, greatest_all_lt, hle]
        · rfl
      · have hlt : p.seq < m.seq := by
          refine lt_of_le_of_ne (hmax p (by simp)) ?_
          intro heq
          exact hnodup.1 (heq ▸ List.mem_map_of_mem hm)
        refine (ih (d'.touch p.received p.seq p.envelope.st) hnodup.2 hm
          fun p' hp' => hmax p' (List.mem_cons_of_mem _ hp')).trans ?_
        simp only [Device.touch, greatest_all_lt, hlt, decide_true, Bool.and_true]
        by_cases hall : d'.lastSeq.all (fun last => last < m.seq) = true
        · rw [if_pos hall, if_pos hall]
        · rw [if_neg hall, if_neg hall, if_neg]
          intro hpast
          refine hall ?_
          rcases hlast : d'.lastSeq with _ | last
          · rfl
          · rw [hlast] at hpast
            simp only [Option.all_some, decide_eq_true_eq] at hpast ⊢
            omega

theorem Presence.raise_capture (p : Option Presence) (t r : ℤ) :
    (some (Presence.raise p t r)).map Presence.lastCaptureAt =
      greatest (p.map Presence.lastCaptureAt) t := by
  cases p with
  | none => rfl
  | some p =>
      simp only [Presence.raise, Option.map_some, greatest, Lib.raise, id]
      split <;> congr 1 <;> omega

theorem Presence.raise_received (p : Option Presence) (t r : ℤ) :
    (some (Presence.raise p t r)).map Presence.lastReceivedAt =
      greatest (p.map Presence.lastReceivedAt) r := by
  cases p with
  | none => rfl
  | some p =>
      simp only [Presence.raise, Option.map_some, greatest, Lib.raise, id]
      split <;> congr 1 <;> omega

theorem commit_capture (p : Submission tokenHash g k d) (s : DeviceTables ν) (capability : Text) :
    ((p.commit s).presence capability).map Presence.lastCaptureAt =
      (captures (g.capabilities k) capability p.rows).foldl greatest
        ((s.presence capability).map Presence.lastCaptureAt) := by
  have hbatch : upsert id ((s.presence capability).map Presence.lastCaptureAt)
      ((captures (g.capabilities k) capability p.rows).foldl greatest none) =
      (captures (g.capabilities k) capability p.rows).foldl greatest
        ((s.presence capability).map Presence.lastCaptureAt) := upsert_foldl _ _ none
  rw [← hbatch, Submission.commit, store_presence]
  split
  · rename_i hnone
    rw [hnone]
    rfl
  · rename_i t ht
    rw [ht]
    exact Presence.raise_capture _ _ _

theorem commit_received (p : Submission tokenHash g k d) (s : DeviceTables ν) (capability : Text) :
    ((p.commit s).presence capability).map Presence.lastReceivedAt =
      if (captures (g.capabilities k) capability p.rows).isEmpty
        then (s.presence capability).map Presence.lastReceivedAt
        else greatest ((s.presence capability).map Presence.lastReceivedAt) p.received := by
  rw [Submission.commit, store_presence]
  split
  · rename_i hnone
    rw [if_pos (by simpa using (foldl_raise_eq_none hnone).2)]
  · rename_i t ht
    rw [if_neg ?_]
    · exact Presence.raise_received _ _ _
    · intro hempty
      rw [List.isEmpty_iff.mp hempty] at ht
      simp at ht

theorem commitAll_capture (ps : List (Submission tokenHash g k d)) (s : DeviceTables ν)
    (capability : Text) : ((commitAll ps s).presence capability).map Presence.lastCaptureAt =
      (ps.flatMap fun p => captures (g.capabilities k) capability p.rows).foldl greatest
        ((s.presence capability).map Presence.lastCaptureAt) := by
  induction ps generalizing s with
  | nil => rfl
  | cons p ps ih =>
      rw [List.flatMap_cons, List.foldl_append, ← commit_capture]
      exact ih (p.commit s)

theorem commitAll_received (ps : List (Submission tokenHash g k d)) (s : DeviceTables ν)
    (capability : Text) : ((commitAll ps s).presence capability).map Presence.lastReceivedAt =
      ((ps.filter fun p => !(captures (g.capabilities k) capability p.rows).isEmpty).map
        Submission.received).foldl greatest ((s.presence capability).map Presence.lastReceivedAt) := by
  induction ps generalizing s with
  | nil => rfl
  | cons p ps ih =>
      refine (ih (p.commit s)).trans ?_
      rw [commit_received]
      by_cases hempty : (captures (g.capabilities k) capability p.rows).isEmpty = true
      · rw [if_pos hempty, List.filter_cons_of_neg (by simpa using hempty)]
      · rw [if_neg hempty, List.filter_cons_of_pos (by simpa using hempty)]
        rfl

theorem commitAll_usage (ps : List (Submission tokenHash g k d)) (s : DeviceTables ν) (month : Text) :
    readingsOf ((commitAll ps s).usage month) = readingsOf (s.usage month) +
      ((ps.filter fun p => period p.received == month).map fun p => p.rows.length).sum ∧
    bytesOf ((commitAll ps s).usage month) = bytesOf (s.usage month) +
      ((ps.filter fun p => period p.received == month).map fun p =>
        byteLength (canonical p.envelope)).sum := by
  induction ps generalizing s with
  | nil => exact ⟨rfl, rfl⟩
  | cons p ps ih =>
      obtain ⟨hreadings, hbytes⟩ := ih (p.commit s)
      have hall : commitAll (p :: ps) s = commitAll ps (p.commit s) := rfl
      rw [hall, hreadings, hbytes, Submission.commit, store_usage]
      by_cases hp : period p.received = month
      · subst hp
        rw [Function.update_self, List.filter_cons_of_pos (by simp), List.map_cons, List.map_cons,
          List.sum_cons, List.sum_cons]
        cases s.usage (period p.received) <;>
          simp only [readingsOf, bytesOf, Usage.add, Option.elim] <;> omega
      · rw [Function.update_of_ne (Ne.symm hp), List.filter_cons_of_neg (by simpa using hp)]
        exact ⟨rfl, rfl⟩

theorem commitAll_settled {ps : List (Submission tokenHash g k d)} {s : DeviceTables ν}
    (hd : s.device = some d) (hnodup : (ps.map Submission.seq).Nodup) :
    Settled s ps (commitAll ps s) := by
  refine ⟨?_, ?_, ?_, commitAll_usage ps s⟩
  · intro channel
    rw [commitAll_latest]
    exact foldl_raise_holds _ _
  · refine ⟨touchAll ps d, commitAll_device ps hd, ?_, ?_, ?_⟩
    · rw [touchAll_lastSeq]
      exact foldl_raise_holds _ _
    · rw [touchAll_lastSeenAt]
      exact foldl_raise_holds _ _
    · intro p hp hmax
      exact touchAll_status d hnodup hp hmax
  · intro capability
    rw [commitAll_capture, commitAll_received]
    exact ⟨foldl_raise_holds _ _, foldl_raise_holds _ _⟩

/--
**Ingest is order-independent.**

Packets of distinct new sequences, each received at a time at which it is acceptable:
served in any order they are all stored, and the tables end the same, settled by the
set of packets alone.
-/
theorem ingest_order_independent {ps ps' : List (Submission tokenHash g k d)} {s : DeviceTables ν}
    (hd : s.device = some d) (hnodup : (ps.map Submission.seq).Nodup)
    (hnew : ∀ p ∈ ps, s.packets p.seq = none) (hperm : ps.Perm ps') :
    serve tokenHash g s (ps'.map Submission.request) =
        ((serve tokenHash g s (ps.map Submission.request)).1, ps'.map fun p => .stored p.ack) ∧
      Settled s ps (serve tokenHash g s (ps.map Submission.request)).1 := by
  have hself : d.Agrees d := ⟨rfl, rfl, rfl, rfl⟩
  have hnodup' : (ps'.map Submission.seq).Nodup := (hperm.map _).nodup_iff.mp hnodup
  have hnew' : ∀ p ∈ ps', s.packets p.seq = none := fun p hp => hnew p (hperm.mem_iff.mpr hp)
  rw [serve_eq hd hself hnodup hnew, serve_eq hd hself hnodup' hnew', commitAll_perm hperm hnodup]
  refine ⟨rfl, ?_⟩
  rw [← commitAll_perm hperm hnodup]
  exact commitAll_settled hd hnodup

namespace Bench

def row : Device ℚ := ⟨id token, false, channels, 300, none, none, none⟩

def submission (seq ts : ℤ) (degrees : ℚ)
    (hparse : Envelope.safeParse (envelope seq ts degrees).toJson = some (envelope seq ts degrees))
    (hadmission : admission channels (envelope seq ts degrees) (ts * 1000) =
      .ok (rowsOf (envelope seq ts degrees) (envelope seq ts degrees).r 0))
    (hrows : ∀ row ∈ rowsOf (envelope seq ts degrees) (envelope seq ts degrees).r 0,
      shared.rawBefore ≤ row.ts) :
    Submission id shared (uuidOf device) row where
  authorization := authorization
  body := (envelope seq ts degrees).toJson
  received := ts * 1000
  envelope := envelope seq ts degrees
  parses := hparse
  device := rfl
  credential := by decide +kernel
  current := rfl
  authorized := rfl
  channels := by decide +kernel
  admitted := hadmission
  retained := hrows
  acknowledged := by
    show (⟨(2 : ℕ), 300⟩ : Ack).accepted = true
    decide

def first : Submission id shared (uuidOf device) row :=
  submission 0 1700000000 21 (by decide +kernel) (by rfl) (by decide +kernel)

def second : Submission id shared (uuidOf device) row :=
  submission 1 1699999000 22 (by decide +kernel) (by rfl) (by decide +kernel)

end Bench

/-- Two packets, the later sequence with the earlier readings, in either order. -/
theorem ingest_order_independent_bench :
    serve id Bench.shared Bench.tables ([Bench.second, Bench.first].map Submission.request) =
        ((serve id Bench.shared Bench.tables ([Bench.first, Bench.second].map Submission.request)).1,
          [.stored ⟨2, 300⟩, .stored ⟨2, 300⟩]) ∧
      Settled Bench.tables [Bench.first, Bench.second]
        (serve id Bench.shared Bench.tables ([Bench.first, Bench.second].map Submission.request)).1 :=
  ingest_order_independent rfl (by decide +kernel) (fun _ _ => rfl) (List.Perm.swap _ _ _)

end Albusforge.Cloudlink
