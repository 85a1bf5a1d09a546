import Albusforge.Provisioning.HandOut

/-!
# Sequence windows

A reissue starts above `last_seq`, and no packet that was stored is above it (`Windows.bound`). With the
next credential the device's row has another hash, so that **no packet of an earlier credential is
accepted any more**, and what is stored from the start of a window on is of its own credential
(`windows_disjoint`).
-/

namespace Albusforge.Provisioning

open Lib Lib.Json Cloudlink

section

variable {ν : Type} {hash : Text → Text}
  {sealCredential : Text → Text → CredentialBinding → Option SealedCredential}
  {openCredential : SealedCredential → CredentialBinding → Option Text}
  {accepts : DeviceConfig ν → Bool} {ingestUrl : Option Text} {s s' : State ν}

def credentialOf (hash : Text → Text) : Request ν → Option Text
  | .malformed _ => none
  | .post authorization _ _ => bearerHash hash authorization

/-- `randomBytes(32)` gives no token twice, nor two with one hash. -/
def NewTokens (es : List (Event ν)) (_ : State ν) (e : Event ν) : Prop :=
  ∀ i, e.issue = some i → ∀ j ∈ issues es, j.tokenHash ≠ i.tokenHash

structure Windows (hash : Text → Text) [JsonNumber ν] (es : List (Event ν)) (s : State ν) : Prop where
  /-- No packet is above `last_seq`. -/
  bound : ∀ id seq, (s.tables id).packets seq ≠ none →
    ∃ d last, (s.tables id).device = some d ∧ d.lastSeq = some last ∧ seq ≤ last
  kept : ∀ id o r, .answered id o ∈ es → o.receipt = some r → (s.tables id).packets r.envelope.seq ≠ none
  tokens : ((issues es).map Issue.tokenHash).Nodup
  own : ∀ id p d o r, s.provisionings.find id = some p → (s.tables id).device = some d →
    .answered id o ∈ es → o.receipt = some r → p.seqStart ≤ r.envelope.seq →
    credentialOf hash o.request = some d.tokenHash
  below : ∀ i ∈ issues es, ∀ j ∈ issues es, i.deviceId = j.deviceId → i.version < j.version →
    ∀ o r, .answered i.deviceId o ∈ es → o.receipt = some r →
      credentialOf hash o.request = some i.tokenHash → r.envelope.seq < j.seqStart

/-- A step that is no packet: packets and `last_seq` are as they were. -/
def SamePackets (s s' : State ν) : Prop :=
  ∀ id, (s'.tables id).packets = (s.tables id).packets ∧
    ∀ d, (s.tables id).device = some d → ∃ d', (s'.tables id).device = some d' ∧ d'.lastSeq = d.lastSeq

theorem samePackets_refl (s : State ν) : SamePackets s s := fun _ => ⟨rfl, fun d hd => ⟨d, hd, rfl⟩⟩

theorem samePackets_set {id : Text} {p' : ProvisioningRow} {d' : Device ν}
    (h : ∀ d, (s.tables id).device = some d → d'.lastSeq = d.lastSeq) :
    SamePackets s ((s.setDevice id d').setRow p') := by
  intro id'
  by_cases hid : id' = id
  · subst hid
    refine ⟨by simp [State.setRow, State.setDevice], ?_⟩
    intro d hd
    exact ⟨d', by simp [State.setRow, State.setDevice], h d hd⟩
  · refine ⟨by simp [State.setRow, State.setDevice, Function.update_of_ne hid], ?_⟩
    intro d hd
    exact ⟨d, by simp [State.setRow, State.setDevice, Function.update_of_ne hid, hd], rfl⟩

theorem start_above {id : Text} {d : Device ν} (hd : (s.tables id).device = some d)
    (hbound : ∀ seq, (s.tables id).packets seq ≠ none →
      ∃ d last, (s.tables id).device = some d ∧ d.lastSeq = some last ∧ seq ≤ last)
    {seq : ℤ} (hseq : nextStart d.lastSeq ≤ seq) : (s.tables id).packets seq = none := by
  by_contra hne
  obtain ⟨d', last, hd', hlast, hle⟩ := hbound seq hne
  obtain rfl := Option.some.inj (hd.symm.trans hd')
  rw [nextStart, hlast, Option.elim_some] at hseq
  omega

theorem touch_lastSeq (received seq : ℤ) (st : WireStatus) (d : Device ν) :
    ∃ last, (d.touch received seq st).lastSeq = some last ∧ seq ≤ last ∧
      ∀ before, d.lastSeq = some before → before ≤ last := raise_above d.lastSeq seq

theorem issues_answered (es : List (Event ν)) (id : Text) (o : Outcome ν) :
    issues (es ++ [.answered id o]) = issues es := by
  simp [issues, Event.issue]

theorem issue_unique {es : List (Event ν)} (htokens : ((issues es).map Issue.tokenHash).Nodup) {i j : Issue}
    (hi : i ∈ issues es) (hj : j ∈ issues es) (h : i.tokenHash = j.tokenHash) : i = j :=
  List.inj_on_of_nodup_map htokens hi hj h

theorem past_credential {es : List (Event ν)} (hbooks : Books es s)
    (htokens : ((issues es).map Issue.tokenHash).Nodup) {i : Issue} (hi : i ∈ issues es) {p : ProvisioningRow}
    {d : Device ν} (hp : s.provisionings.find i.deviceId = some p)
    (hd : (s.tables i.deviceId).device = some d) (hpast : i.version < p.credentialVersion) :
    d.tokenHash ≠ i.tokenHash := by
  intro heq
  obtain ⟨j, hj, hissue⟩ := hbooks.current _ p hp
  obtain ⟨p₁, d₁, hp₁, hd₁, rfl⟩ := State.issue_some hissue
  obtain rfl := Option.some.inj (hp.symm.trans hp₁)
  obtain rfl := Option.some.inj (hd.symm.trans hd₁)
  rw [issue_unique htokens hi hj heq.symm] at hpast
  exact absurd hpast (Nat.lt_irrefl _)

variable [JsonNumber ν]

theorem step_packets {e : Event ν} (h : StoreStep hash sealCredential openCredential accepts ingestUrl s e s')
    (he : ∀ id o, e ≠ .answered id o) : SamePackets s s' := by
  cases h with
  | claim hclaim =>
      cases claim_ok hclaim with
      | found => exact samePackets_refl s
      | made hadmits _ =>
          refine samePackets_set ?_
          intro d hd
          have hnone := (admits_ok hadmits).1
          exact absurd (hnone.symm.trans hd) (by simp)
  | download hdownload =>
      obtain ⟨p, d, hp⟩ := download_ok hdownload
      rw [hp.eq]
      exact fun id => ⟨rfl, fun d hd => ⟨d, hd, rfl⟩⟩
  | reissue hreissue =>
      cases reissue_ok hreissue with
      | retried _ _ _ => exact samePackets_refl s
      | made _ hd _ _ =>
          refine samePackets_set ?_
          intro d' hd'
          rw [Option.some.inj (hd.symm.trans hd')]
  | revoke hrevoke =>
      obtain ⟨p, d, -, hd, rfl⟩ := revoke_ok hrevoke
      refine samePackets_set ?_
      intro d' hd'
      rw [Option.some.inj (hd.symm.trans hd')]
  | ingestRefused _ => exact absurd rfl (he _ _)
  | ingest _ _ => exact absurd rfl (he _ _)
  | _ => exact samePackets_refl s

theorem issued_above {es : List (Event ν)} (hs : Windows hash es s) {e : Event ν} {i : Issue}
    (h : Effect s e s') (hi : e.issue = some i) {seq : ℤ} (hseq : i.seqStart ≤ seq) :
    (s.tables i.deviceId).packets seq = none := by
  have hname : ∀ {id : Text}, s'.issue id = some i → i.deviceId = id := by
    intro id hissue
    obtain ⟨_, _, -, -, rfl⟩ := State.issue_some hissue
    rfl
  cases h with
  | quiet hnone _ _ _ _ => exact absurd (hnone.symm.trans hi) (by simp)
  | make _ hissue _ hnone _ _ _ _ =>
      obtain rfl := Option.some.inj hi
      rw [hname hissue]
      by_contra hne
      obtain ⟨d, last, hd, -⟩ := hs.bound _ seq hne
      exact absurd (hnone.symm.trans hd) (by simp)
  | renew hsets hissue _ hd _ _ hstart _ =>
      obtain rfl := Option.some.inj hi
      obtain rfl := Option.some.inj (hsets.issue.symm.trans hissue)
      exact start_above hd (hs.bound _) (hstart ▸ hseq)
  | take _ _ _ _ _ _ _ => exact absurd hi (by simp [Event.issue])
  | revoke _ _ _ _ _ _ => exact absurd hi (by simp [Event.issue])

theorem ingest_credential {q : Request ν} {tables : DeviceTables ν} {t : DeviceTables ν} {o : Outcome ν}
    {committed : Bool} (hmatch : (ingest hash q).unmatched tables = none)
    (hruns : Runs (ingest hash q).body tables t o committed) :
    ∃ d, tables.device = some d ∧ credentialOf hash o.request = some d.tokenHash := by
  obtain ⟨authorization, body, received, credentialHash, e, rfl, hbearer, -, hdevice, hbody⟩ :=
    ingest_matched hash hmatch
  rw [hbody] at hruns
  rw [(ingestBody_runs hash hruns).request]
  cases hd : tables.device with
  | none => exact absurd hdevice (by simp [matchesDevice, hd])
  | some d =>
      have hmatches : d.tokenHash = credentialHash ∧ d.revoked = false := by
        simpa [matchesDevice, hd] using hdevice
      exact ⟨d, rfl, by rw [credentialOf, hbearer, hmatches.1]⟩

theorem unstored_windows {es : List (Event ν)} (hs : Windows hash es s) {k : Text} {o : Outcome ν}
    (hnone : o.receipt = none) : Windows hash (es ++ [.answered k o]) s := by
  have hold : ∀ id o' r', Event.answered id o' ∈ es ++ [Event.answered k o] → o'.receipt = some r' →
      Event.answered id o' ∈ es := by
    intro id o' r' hmem hr'
    rcases List.mem_append.mp hmem with hold | hlast
    · exact hold
    · obtain ⟨-, rfl⟩ := Event.answered.inj (List.mem_singleton.mp hlast)
      exact absurd (hnone.symm.trans hr') (by simp)
  refine ⟨hs.bound, ?_, issues_answered es k o ▸ hs.tokens, ?_, ?_⟩
  · intro id o' r' hmem hr'
    exact hs.kept id o' r' (hold id o' r' hmem hr') hr'
  · intro id p d o' r' hp hd hmem hr'
    exact hs.own id p d o' r' hp hd (hold id o' r' hmem hr') hr'
  · rw [issues_answered]
    intro i hi j hj hname hversion o' r' hmem hr'
    exact hs.below i hi j hj hname hversion o' r' (hold _ o' r' hmem hr') hr'

/-- **A packet is stored under the current credential, or not at all.** -/
theorem ingest_windows {es : List (Event ν)} (hbooks : Books es s) (hs : Windows hash es s) {q : Request ν} {t : DeviceTables ν}
    {o : Outcome ν} {committed : Bool} (hmatch : (ingest hash q).unmatched (s.tables q.device) = none)
    (hruns : Runs (ingest hash q).body (s.tables q.device) t o committed)
    (hrows : s'.provisionings = s.provisionings) (htables : s'.tables = Function.update s.tables q.device
      (if committed then t else s.tables q.device)) : Windows hash (es ++ [.answered q.device o]) s' := by
  -- what was answered before, or is this packet
  have hbefore : ∀ id o', Event.answered id o' ∈ es ++ [Event.answered q.device o] →
      Event.answered id o' ∈ es ∨ id = q.device ∧ o' = o := by
    intro id o' hmem
    rcases List.mem_append.mp hmem with hold | hlast
    · exact Or.inl hold
    · obtain ⟨rfl, rfl⟩ := Event.answered.inj (List.mem_singleton.mp hlast)
      exact Or.inr ⟨rfl, rfl⟩
  rcases ingest_ok hmatch hruns with ⟨hquiet, hsame⟩ | ⟨r, present, packet, rows, hreceipt, hnone, hstore⟩
  · rw [hsame, Function.update_eq_self] at htables
    obtain rfl : s' = s := by
      cases s'
      cases s
      exact congrArg₂ State.mk htables hrows
    exact unstored_windows hs hquiet
  obtain ⟨d, hd, hcredential⟩ := ingest_credential hmatch hruns
  rw [hstore] at htables
  -- the device of the packet, and the others
  have hpackets : (s'.tables q.device).packets =
      Function.update (s.tables q.device).packets r.envelope.seq (some packet) := by
    rw [htables, Function.update_self, store_packets]
  have hdevice : (s'.tables q.device).device = some (d.touch r.received r.envelope.seq r.envelope.st) := by
    rw [htables, Function.update_self, store_device, hd]
    rfl
  have hothers : ∀ id, id ≠ q.device → s'.tables id = s.tables id := by
    intro id hid
    rw [htables, Function.update_of_ne hid]
  refine ⟨?_, ?_, issues_answered es _ _ ▸ hs.tokens, ?_, ?_⟩
  · intro id seq hseq
    by_cases hid : id = q.device
    · subst hid
      obtain ⟨last, hlast, hnew, hold⟩ := touch_lastSeq r.received r.envelope.seq r.envelope.st d
      refine ⟨_, last, hdevice, hlast, ?_⟩
      by_cases heq : seq = r.envelope.seq
      · exact heq ▸ hnew
      · rw [hpackets, Function.update_of_ne heq] at hseq
        obtain ⟨d₀, before, hd₀, hbefore, hle⟩ := hs.bound _ seq hseq
        obtain rfl := Option.some.inj (hd.symm.trans hd₀)
        exact hle.trans (hold before hbefore)
    · rw [hothers id hid] at hseq ⊢
      exact hs.bound id seq hseq
  · intro id o' r' hmem hr'
    rcases hbefore id o' hmem with hold | ⟨rfl, rfl⟩
    · have hstands := hs.kept id o' r' hold hr'
      by_cases hid : id = q.device
      · subst hid
        rw [hpackets]
        by_cases heq : r'.envelope.seq = r.envelope.seq
        · rw [heq, Function.update_self]
          simp
        · rw [Function.update_of_ne heq]
          exact hstands
      · rw [hothers id hid]
        exact hstands
    · obtain rfl := Option.some.inj (hreceipt.symm.trans hr')
      rw [hpackets, Function.update_self]
      simp
  · intro id p d' o' r' hp hd' hmem hr' hstart
    rw [hrows] at hp
    by_cases hid : id = q.device
    · subst hid
      obtain rfl := Option.some.inj (hdevice.symm.trans hd')
      rcases hbefore _ o' hmem with hold | ⟨-, rfl⟩
      · exact hs.own _ p d o' r' hp hd hold hr' hstart
      · exact hcredential
    · rw [hothers id hid] at hd'
      rcases hbefore id o' hmem with hold | ⟨hname, -⟩
      · exact hs.own id p d' o' r' hp hd' hold hr' hstart
      · exact absurd hname hid
  · rw [issues_answered]
    intro i hi j hj hname hversion o' r' hmem hr' hi'
    rcases hbefore _ o' hmem with hold | ⟨hid, rfl⟩
    · exact hs.below i hi j hj hname hversion o' r' hold hr' hi'
    · -- the packet is of the current credential, and that is no past one
      obtain ⟨p, hp, hle⟩ := hbooks.issued j hj
      rw [← hname] at hp
      have hhash : d.tokenHash = i.tokenHash := Option.some.inj (hcredential.symm.trans hi')
      exact absurd hhash (past_credential hbooks hs.tokens hi hp (hid ▸ hd) (Nat.lt_of_lt_of_le hversion hle))

theorem quiet_windows {es : List (Event ν)} (hbooks : Books es s) (hs : Windows hash es s) {e : Event ν}
    (heffect : Effect s e s') (hsame : SamePackets s s') (he : ∀ id o, e ≠ .answered id o)
    (hnew : NewTokens es s e) : Windows hash (es ++ [e]) s' := by
  have hold : ∀ id o, Event.answered id o ∈ es ++ [e] → Event.answered id o ∈ es := by
    intro id o hmem
    rcases List.mem_append.mp hmem with hold | hlast
    · exact hold
    · exact absurd (List.mem_singleton.mp hlast).symm (he id o)
  refine ⟨?_, ?_, ?_, ?_, ?_⟩
  · intro id seq hseq
    rw [(hsame id).1] at hseq
    obtain ⟨d, last, hd, hlast, hle⟩ := hs.bound id seq hseq
    obtain ⟨d', hd', hlast'⟩ := (hsame id).2 d hd
    exact ⟨d', last, hd', hlast'.trans hlast, hle⟩
  · intro id o r hmem hr
    rw [(hsame id).1]
    exact hs.kept id o r (hold id o hmem) hr
  · cases hi : e.issue with
    | none => simpa [issues, hi] using hs.tokens
    | some i =>
        simp only [issues, List.filterMap_append, List.map_append, List.nodup_append]
        refine ⟨hs.tokens, by simp [hi], ?_⟩
        intro t ht t' ht' heq
        obtain ⟨j, hj, rfl⟩ := List.mem_map.mp ht
        have hlast : t' = i.tokenHash := by simpa [hi] using ht'
        exact hnew i hi j hj (heq.trans hlast)
  · intro id p' d' o r hp' hd' hmem hr hstart
    have hstands := hs.kept id o r (hold id o hmem) hr
    obtain ⟨d, last, hd, -, -⟩ := hs.bound id _ hstands
    rcases heffect.found hp' with ⟨p, hp⟩ | ⟨-, hnodevice, -⟩
    · rcases heffect.current hp hd with hissue | ⟨i, hi, hissue⟩
      · -- the credential of before
        have hbefore : s.issue id = some ⟨id, p.credentialVersion, d.tokenHash, p.seqStart, p.handoffUserId,
            p.handoffSessionRoot, p.handoffExpiresAt⟩ := by simp [State.issue, hp, hd]
        rw [hbefore] at hissue
        obtain ⟨p₁, d₁, hp₁, hd₁, heq⟩ := State.issue_some hissue
        obtain rfl := Option.some.inj (hp'.symm.trans hp₁)
        obtain rfl := Option.some.inj (hd'.symm.trans hd₁)
        simp only [Issue.mk.injEq] at heq
        rw [← heq.2.2.1]
        exact hs.own id p d o r hp hd (hold id o hmem) hr (heq.2.2.2.1 ▸ hstart)
      · -- one that starts above the packet
        obtain ⟨p₁, d₁, hp₁, hd₁, rfl⟩ := State.issue_some hissue
        obtain rfl := Option.some.inj (hp'.symm.trans hp₁)
        exact absurd (issued_above hs heffect hi hstart) hstands
    · -- a new device has no packets yet
      exact absurd (hnodevice.symm.trans hd) (by simp)
  · have hmem : ∀ {i : Issue}, i ∈ issues (es ++ [e]) → i ∈ issues es ∨ e.issue = some i := by
      intro i hi
      obtain ⟨e', he', hi⟩ := List.mem_filterMap.mp hi
      rcases List.mem_append.mp he' with hold' | hlast
      · exact Or.inl (List.mem_filterMap.mpr ⟨e', hold', hi⟩)
      · exact Or.inr (List.mem_singleton.mp hlast ▸ hi)
    intro i hi j hj hname hversion o r hanswered hr hcredential
    have hanswered := hold _ o hanswered
    rcases hmem hj with hj | hj
    · rcases hmem hi with hi | hi
      · exact hs.below i hi j hj hname hversion o r hanswered hr hcredential
      · -- no version is issued after a later one
        obtain ⟨p, hp, hle⟩ := hbooks.issued j hj
        have hless := (heffect.issued hi).2 p (hname ▸ hp)
        omega
    · by_contra hnot
      exact hs.kept _ o r hanswered hr (hname ▸ issued_above hs heffect hj (not_lt.mp hnot))

theorem windows_run {es : List (Event ν)}
    (hrun : (store hash sealCredential openCredential accepts ingestUrl).RunWhere NewTokens es s) :
    Books es s ∧ Windows hash es s := by
  refine hrun.invariant (I := fun es s => Books es s ∧ Windows hash es s) ?_ ?_
  · intro s hinit
    have hbooks : Books [] s := books_run (.init hinit)
    refine ⟨hbooks, fun id seq hseq => absurd ((hinit.2 id).2 seq) hseq, by simp, by simp, by simp, by simp⟩
  · rintro es s e s' ⟨hbooks, hs⟩ hone hnew
    have heffect := step_effect hone
    refine ⟨step_books hbooks heffect, ?_⟩
    by_cases he : ∃ id o, e = .answered id o
    · obtain ⟨id, o, rfl⟩ := he
      cases hone with
      | ingest hmatch hruns => exact ingest_windows hbooks hs hmatch hruns rfl rfl
      | ingestRefused hrefused =>
          obtain ⟨-, err, hanswer⟩ := ingest_unmatched hash hrefused
          exact unstored_windows hs (by simp [Outcome.receipt, hanswer])
    · have he : ∀ id o, e ≠ .answered id o := fun id o h => he ⟨id, o, h⟩
      exact quiet_windows hbooks hs heffect (step_packets hone he) he hnew

structure Disjoint (hash : Text → Text)
    (sealCredential : Text → Text → CredentialBinding → Option SealedCredential)
    (openCredential : SealedCredential → CredentialBinding → Option Text) (accepts : DeviceConfig ν → Bool)
    (ingestUrl : Option Text) (es : List (Event ν)) (s : State ν) : Prop where
  above : ∀ e s' i, StoreStep hash sealCredential openCredential accepts ingestUrl s e s' → e.issue = some i →
    (∀ o r, .answered i.deviceId o ∈ es → o.receipt = some r → r.envelope.seq < i.seqStart) ∧
    ∀ seq, i.seqStart ≤ seq → (s'.tables i.deviceId).packets seq = none
  below : ∀ i ∈ issues es, ∀ j ∈ issues es, i.deviceId = j.deviceId → i.version < j.version →
    ∀ o r, .answered i.deviceId o ∈ es → o.receipt = some r →
      credentialOf hash o.request = some i.tokenHash → r.envelope.seq < j.seqStart
  fenced : ∀ i ∈ issues es, ∀ j ∈ issues es, i.deviceId = j.deviceId → i.version < j.version → ∀ o s',
    StoreStep hash sealCredential openCredential accepts ingestUrl s (.answered i.deviceId o) s' →
    credentialOf hash o.request = some i.tokenHash → (∃ e, o.answer = .rejected e) ∧ s' = s
  own : ∀ id p d o r, s.provisionings.find id = some p → (s.tables id).device = some d →
    .answered id o ∈ es → o.receipt = some r → p.seqStart ≤ r.envelope.seq →
    credentialOf hash o.request = some d.tokenHash
  handed : ∀ x v t config s',
    StoreStep hash sealCredential openCredential accepts ingestUrl s (.downloaded x v t config) s' →
    ∃ i ∈ issues es, i.deviceId = config.deviceId ∧ i.version = v ∧ i.tokenHash = hash config.token ∧
      i.seqStart = config.seqStart

/-- **Sequence windows are disjoint.** -/
theorem windows_disjoint {es : List (Event ν)}
    (hrun : (store hash sealCredential openCredential accepts ingestUrl).RunWhere NewTokens es s) :
    Disjoint hash sealCredential openCredential accepts ingestUrl es s := by
  obtain ⟨hbooks, hs⟩ := windows_run hrun
  refine ⟨?_, hs.below, ?_, hs.own, ?_⟩
  · intro e s' i hone hi
    have heffect := step_effect hone
    refine ⟨?_, ?_⟩
    · intro o r hanswered hr
      by_contra hnot
      exact hs.kept _ o r hanswered hr (issued_above hs heffect hi (not_lt.mp hnot))
    · intro seq hseq
      have he : ∀ id o, e ≠ .answered id o := by
        intro id o heq
        rw [heq] at hi
        exact absurd hi (by simp [Event.issue])
      rw [(step_packets hone he _).1]
      exact issued_above hs heffect hi hseq
  · intro i hi j hj hname hversion o s' hone hcredential
    obtain ⟨p, hp, hle⟩ := hbooks.issued j hj
    rw [← hname] at hp
    generalize hevent : Event.answered i.deviceId o = e at hone
    cases hone with
    | @ingestRefused q o' hrefused =>
        obtain ⟨-, rfl⟩ := Event.answered.inj hevent
        exact ⟨(ingest_unmatched hash hrefused).2, rfl⟩
    | @ingest q t o' committed hmatch hruns =>
        obtain ⟨hid, rfl⟩ := Event.answered.inj hevent
        obtain ⟨d, hd, hcurrent⟩ := ingest_credential hmatch hruns
        have hhash : d.tokenHash = i.tokenHash := Option.some.inj (hcurrent.symm.trans hcredential)
        exact absurd hhash
          (past_credential hbooks hs.tokens hi hp (hid ▸ hd) (Nat.lt_of_lt_of_le hversion hle))
    | _ => exact absurd hevent (by simp)
  · intro x v t config s' hone
    cases hone with
    | download hdownload =>
        obtain ⟨p, d, hp⟩ := download_ok hdownload
        obtain rfl := hp.name
        obtain ⟨i, hi, hissue⟩ := hbooks.current _ p hp.row
        obtain ⟨p₁, d₁, hp₁, hd₁, rfl⟩ := State.issue_some hissue
        obtain rfl := Option.some.inj (hp.row.symm.trans hp₁)
        obtain rfl := Option.some.inj (hp.device.symm.trans hd₁)
        exact ⟨_, hi, rfl, hp.version, hp.token.symm, hp.seqStart.symm⟩

end

/-! ## A run -/

namespace Bench

def nextToken : Text := List.replicate 43 98

def nextRow : ProvisioningRow :=
  reissued (context nextToken 2000) session (js "reissue") row 5 url ⟨js "k1", [], nextToken, []⟩

def packet : Cloudlink.Request ℚ := Cloudlink.Bench.request 4 1700000000 21

def ran : DeviceTables ℚ × Outcome ℚ × Bool :=
  (ingest id packet).body.exec Cloudlink.Bench.shared (s₁.tables Cloudlink.Bench.device)

def s₃ : State ℚ := { s₁ with
  tables := Function.update s₁.tables packet.device (if ran.2.2 then ran.1 else s₁.tables packet.device) }

theorem packet_step : StoreStep id sealing opening (fun _ => true) (some url) s₁
    (.answered packet.device ran.2.1) s₃ := by
  have hmatch : (ingest id packet).unmatched (s₁.tables packet.device) = none := by decide +kernel
  exact .ingest hmatch (Prog.exec_runs Cloudlink.Bench.shared _ _)

def touched : Device ℚ :=
  (newDevice token authority).touch 1700000000000 4 ⟨none, some (-60), 60, [js "OK"]⟩

theorem packet_device : (s₃.tables Cloudlink.Bench.device).device = some touched := by
  rfl

def s₄ : State ℚ := (s₃.setDevice Cloudlink.Bench.device { touched with tokenHash := nextToken }).setRow nextRow

def nextIssue : Issue :=
  ⟨Cloudlink.Bench.device, 2, nextToken, 5, some (js "user"), some (js "session"), 602000⟩

def reissueEvent : Event ℚ :=
  .reissued session Cloudlink.Bench.device (js "reissue") 1 (status nextRow false 2000 session) (some nextIssue)

theorem reissue_step : StoreStep id sealing opening (fun _ => true) (some url) s₃ reissueEvent s₄ := by
  have hrow : s₃.provisionings.find Cloudlink.Bench.device = some row := row_found
  have hreissue : reissue id sealing (some url) (context nextToken 2000) session Cloudlink.Bench.device
      (js "reissue") 1 s₃ = .ok (status nextRow false 2000 session, true, s₄) := by
    rw [reissue, locked, hrow, packet_device]
    rfl
  have hfound : s₄.provisionings.find Cloudlink.Bench.device = some nextRow := Table.find_put_key rfl
  have hissue : s₄.issue Cloudlink.Bench.device = some nextIssue := by
    rw [State.issue, hfound]
    rfl
  have hstep : StoreStep id sealing opening (fun _ => true) (some url) s₃
      (.reissued session Cloudlink.Bench.device (js "reissue") 1 (status nextRow false 2000 session)
        (s₄.issue Cloudlink.Bench.device)) s₄ := .reissue hreissue
  rwa [hissue] at hstep

theorem reissue_run : (store id sealing opening (fun _ => true) (some url)).RunWhere NewTokens
    [claimEvent, .answered packet.device ran.2.1, reissueEvent] s₄ := by
  have hinit : (store id sealing opening (fun _ => true) (some url)).init s₀ :=
    ⟨rfl, fun _ => ⟨rfl, fun _ => rfl⟩⟩
  have hpacket : NewTokens [claimEvent] s₁ (.answered packet.device ran.2.1) := by
    intro i hi
    exact absurd hi (by simp [Event.issue])
  have hreissue : NewTokens [claimEvent, .answered packet.device ran.2.1] s₃ reissueEvent := by
    intro i hi j hj
    obtain rfl := Option.some.inj hi
    obtain rfl : j = issue := by simpa [issues, Event.issue, claimEvent] using hj
    decide
  exact .step (.step (.step (.init hinit) claim_step (by simp [NewTokens])) packet_step hpacket) reissue_step hreissue

end Bench

theorem windows_disjoint_bench : Disjoint id Bench.sealing Bench.opening (fun _ => true) (some Bench.url)
    [Bench.claimEvent, .answered Bench.packet.device Bench.ran.2.1, Bench.reissueEvent] Bench.s₄ :=
  windows_disjoint Bench.reissue_run

end Albusforge.Provisioning
