import Albusforge.Provisioning.System

/-!
# Credentials are handed out once

A credential is issued for a device and a version of it, and no version twice (`Books.versions`). What a
download took is never there again (`Books.consumed`), and what was revoked stays revoked.
-/

namespace Albusforge.Provisioning

open Lib Lib.Json Cloudlink

section

variable {ν : Type} {hash : Text → Text}
  {sealCredential : Text → Text → CredentialBinding → Option SealedCredential}
  {openCredential : SealedCredential → CredentialBinding → Option Text}
  {accepts : DeviceConfig ν → Bool} {ingestUrl : Option Text} {s s' : State ν}

/-! ## The books -/

abbrev issues (es : List (Event ν)) : List Issue := es.filterMap Event.issue

structure Books (es : List (Event ν)) (s : State ν) : Prop where
  plans : ∀ id id' p p', s.provisionings.find id = some p → s.provisionings.find id' = some p' →
    p.buildId = p'.buildId → p.planVersion = p'.planVersion → id = id'
  devices : ∀ id p, s.provisionings.find id = some p → ∃ d, (s.tables id).device = some d
  issued : ∀ i ∈ issues es, ∃ p, s.provisionings.find i.deviceId = some p ∧ i.version ≤ p.credentialVersion
  current : ∀ id p, s.provisionings.find id = some p → ∃ i ∈ issues es, s.issue id = some i
  versions : ((issues es).map fun i => (i.deviceId, i.version)).Nodup
  consumed : ∀ e ∈ es, ∀ id v, e.isDownload id v = true → ∃ p, s.provisionings.find id = some p ∧
    (v < p.credentialVersion ∨ v = p.credentialVersion ∧ p.handoffConsumedAt ≠ none)
  downloads : ∀ id v, (es.filter (Event.isDownload id v)).length ≤ 1
  revoked : ∀ id, .revoked id ∈ es → ∃ p d, s.provisionings.find id = some p ∧
    (s.tables id).device = some d ∧ d.revoked = true
  next : ∀ e ∈ es, ∀ x id r v st i, e = .reissued x id r v st (some i) → i.deviceId = id ∧ i.version = v + 1
  claimed : ∀ e ∈ es, ∀ x q st i, e = .claimed x q st (some i) → ∃ id p, s.provisionings.find id = some p ∧
    p.buildId = q.buildId ∧ p.planVersion = q.planVersion
  claims : ∀ b v r, (es.filterMap (Event.issuedByClaim b v r)).length ≤ 1
  issuer : ∀ e ∈ es, ∀ i, e.issue = some i → ∃ x, e.session = some x ∧ i.userId = some x.userId ∧
    i.rootSessionId = some x.rootSessionId

theorem State.issue_some {id : Text} {i : Issue} (h : s.issue id = some i) : ∃ p d,
    s.provisionings.find id = some p ∧ (s.tables id).device = some d ∧
      i = ⟨id, p.credentialVersion, d.tokenHash, p.seqStart, p.handoffUserId, p.handoffSessionRoot,
        p.handoffExpiresAt⟩ := by
  obtain ⟨p, hp, h⟩ := Option.bind_eq_some_iff.mp h
  obtain ⟨d, hd, rfl⟩ := Option.map_eq_some_iff.mp h
  exact ⟨p, d, hp, hd, rfl⟩

theorem issuedByClaim_some {e : Event ν} {b r : Text} {v : ℕ} {i : Issue}
    (h : e.issuedByClaim b v r = some i) : ∃ x q st, e = .claimed x q st (some i) ∧
      q.buildId = b ∧ q.planVersion = v := by
  cases e with
  | claimed x q st i' =>
      simp only [Event.issuedByClaim] at h
      split at h
      · rename_i hq
        exact ⟨x, q, st, by rw [h], hq.1, hq.2.1⟩
      · exact absurd h (by simp)
  | _ => exact absurd h (by simp [Event.issuedByClaim])

theorem length_append_le {α : Type} {xs ys : List α} (hxs : xs.length ≤ 1) (hys : ys.length ≤ 1)
    (h : ys ≠ [] → xs = []) : (xs ++ ys).length ≤ 1 := by
  cases ys with
  | nil => simpa using hxs
  | cons y ys => rw [h (by simp), List.nil_append]; exact hys

theorem step_books {es : List (Event ν)} {e : Event ν} (hs : Books es s) (h : Effect s e s') :
    Books (es ++ [e]) s' := by
  have hfollows : ∀ id p, s.provisionings.find id = some p → ∃ d p' d', (s.tables id).device = some d ∧
      s'.provisionings.find id = some p' ∧ (s'.tables id).device = some d' ∧ Follows p d p' d' := by
    intro id p hp
    obtain ⟨d, hd⟩ := hs.devices id p hp
    obtain ⟨p', d', hp', hd', hfollows⟩ := h.follows hp hd
    exact ⟨d, p', d', hd, hp', hd', hfollows⟩
  have hissues : issues (es ++ [e]) = issues es ++ e.issue.toList := by
    simp only [issues, List.filterMap_append]
    cases hi : e.issue with
    | none => simp [hi]
    | some i => simp [hi]
  refine ⟨?_, ?_, ?_, ?_, ?_, ?_, ?_, ?_, ?_, ?_, ?_, ?_⟩
  · -- plans
    have hplan : ∀ id p p', s.provisionings.find id = some p → s'.provisionings.find id = some p' →
        p'.buildId = p.buildId ∧ p'.planVersion = p.planVersion := by
      intro id p p' hp hp'
      obtain ⟨_, p₁, _, -, hp₁, -, hfollows⟩ := hfollows id p hp
      obtain rfl := Option.some.inj (hp'.symm.trans hp₁)
      exact hfollows.plan
    -- a new row and an old one are not of one plan
    have hnew : ∀ id id' p p', s'.provisionings.find id = some p → s'.provisionings.find id' = some p' →
        s.provisionings.find id = none → (∃ q, s.provisionings.find id' = some q) →
        p.buildId = p'.buildId → p.planVersion = p'.planVersion → False := by
      intro id id' p p' hp hp' hnone ⟨q, hq⟩ hbuild hversion
      rcases h.found hp with ⟨p₀, hp₀⟩ | ⟨-, -, -, -, hfree⟩
      · exact absurd (hnone.symm.trans hp₀) (by simp)
      · obtain ⟨hb, hv⟩ := hplan id' q p' hq hp'
        exact hfree id' q hq ⟨hb.symm.trans hbuild.symm, hv.symm.trans hversion.symm⟩
    intro id id' p p' hp hp' hbuild hversion
    rcases h.found hp with ⟨q, hq⟩ | ⟨hnone, -, -, hothers, -⟩
    · rcases h.found hp' with ⟨q', hq'⟩ | ⟨hnone', -⟩
      · obtain ⟨hb, hv⟩ := hplan id q p hq hp
        obtain ⟨hb', hv'⟩ := hplan id' q' p' hq' hp'
        exact hs.plans id id' q q' hq hq' (by rw [← hb, ← hb', hbuild]) (by rw [← hv, ← hv', hversion])
      · exact (hnew id' id p' p hp' hp hnone' ⟨q, hq⟩ hbuild.symm hversion.symm).elim
    · by_cases hid : id' = id
      · exact hid.symm
      · exact (hnew id id' p p' hp hp' hnone ⟨p', (hothers id' hid).symm.trans hp'⟩ hbuild hversion).elim
  · -- devices
    intro id p' hp'
    rcases h.found hp' with ⟨p, hp⟩ | ⟨-, -, hdevice, -⟩
    · obtain ⟨_, _, d', -, -, hd', -⟩ := hfollows id p hp
      exact ⟨d', hd'⟩
    · exact hdevice
  · -- issued
    intro i hi
    rw [hissues] at hi
    rcases List.mem_append.mp hi with hold | hnew
    · obtain ⟨p, hp, hversion⟩ := hs.issued i hold
      obtain ⟨_, p', _, -, hp', -, hfollows⟩ := hfollows _ p hp
      exact ⟨p', hp', hversion.trans hfollows.version⟩
    · obtain ⟨hissue, -⟩ := h.issued (by simpa using hnew)
      obtain ⟨p', d', hp', -, heq⟩ := State.issue_some hissue
      exact ⟨p', hp', by rw [heq]⟩
  · -- current
    intro id p' hp'
    rw [hissues]
    rcases h.found hp' with ⟨p, hp⟩ | ⟨hnone, -⟩
    · obtain ⟨d, hd⟩ := hs.devices id p hp
      obtain ⟨i, hi, hissue⟩ := hs.current id p hp
      rcases h.current hp hd with hsame | ⟨i', hi', hissue'⟩
      · exact ⟨i, List.mem_append_left _ hi, hsame.trans hissue⟩
      · exact ⟨i', List.mem_append_right _ (by simp [hi']), hissue'⟩
    · cases h with
      | @make _ _ _ id₀ _ _ i _ hsets hissue _ _ _ _ _ _ =>
          by_cases hid : id = id₀
          · exact ⟨i, List.mem_append_right _ (by simp [Event.issue]), hid ▸ hissue⟩
          · exact absurd ((hsets.rows id hid).symm.trans hp') (by simp [hnone])
      | quiet _ _ _ hrows _ => exact absurd (hrows ▸ hp') (by simp [hnone])
      | @take _ _ config _ _ _ _ hsets hp₀ _ _ _ _ _ =>
          by_cases hid : id = config.deviceId
          · exact absurd hp₀ (by simp [← hid, hnone])
          · exact absurd ((hsets.rows id hid).symm.trans hp') (by simp [hnone])
      | @renew _ id₀ _ _ _ _ _ _ _ _ hsets _ hp₀ _ _ _ _ _ =>
          by_cases hid : id = id₀
          · exact absurd hp₀ (by simp [← hid, hnone])
          · exact absurd ((hsets.rows id hid).symm.trans hp') (by simp [hnone])
      | @revoke id₀ _ _ _ _ _ hsets hp₀ _ _ _ _ =>
          by_cases hid : id = id₀
          · exact absurd hp₀ (by simp [← hid, hnone])
          · exact absurd ((hsets.rows id hid).symm.trans hp') (by simp [hnone])
  · -- versions
    rw [hissues, List.map_append, List.nodup_append]
    refine ⟨hs.versions, ?_, ?_⟩
    · cases e.issue with
      | none => simp
      | some i => simp
    · intro k hk k' hk' heq
      obtain ⟨i, hi, rfl⟩ := List.mem_map.mp hk
      obtain ⟨i', hi', rfl⟩ := List.mem_map.mp hk'
      obtain ⟨hname, hversion⟩ := Prod.mk.inj heq
      obtain ⟨p, hp, hle⟩ := hs.issued i hi
      have hless := (h.issued (by simpa using hi')).2 p (hname ▸ hp)
      omega
  · -- consumed
    intro e' he' id v hdownload
    rcases List.mem_append.mp he' with hold | hnew
    · obtain ⟨p, hp, hcase⟩ := hs.consumed e' hold id v hdownload
      obtain ⟨_, p', _, -, hp', -, hfollows⟩ := hfollows id p hp
      refine ⟨p', hp', ?_⟩
      rcases hcase with hless | ⟨hversion, hconsumed⟩
      · exact Or.inl (Nat.lt_of_lt_of_le hless hfollows.version)
      · rcases Nat.eq_or_lt_of_le hfollows.version with hsame | hlater
        · exact Or.inr ⟨hversion.trans hsame, (hfollows.same hsame.symm).2.2.2.2.2 hconsumed⟩
        · exact Or.inl (hversion ▸ hlater)
    · obtain rfl := List.mem_singleton.mp hnew
      cases h with
      | quiet _ hnone _ _ _ => exact absurd ((hnone id v).symm.trans hdownload) (by simp)
      | take hsets hp hd _ hversion _ hconsumed =>
          simp only [Event.isDownload, Bool.and_eq_true, decide_eq_true_eq] at hdownload
          obtain ⟨rfl, rfl⟩ := hdownload
          exact ⟨_, hsets.row, Or.inr ⟨hversion.symm, hconsumed⟩⟩
      | make _ _ _ _ _ _ _ _ => exact absurd hdownload (by simp [Event.isDownload])
      | renew _ _ _ _ _ _ _ _ => exact absurd hdownload (by simp [Event.isDownload])
      | revoke _ _ _ _ _ _ => exact absurd hdownload (by simp [Event.isDownload])
  · -- downloads
    intro id v
    rw [List.filter_append]
    refine length_append_le (hs.downloads id v) (List.length_filter_le _ _) ?_
    intro hne
    have hdownload : e.isDownload id v = true := by
      by_contra hnot
      exact hne (by simp [hnot])
    rw [List.filter_eq_nil_iff]
    intro e' he' hdownload'
    obtain ⟨p, hp, hcase⟩ := hs.consumed e' he' id v hdownload'
    cases h with
    | quiet _ hnone _ _ _ => exact absurd ((hnone id v).symm.trans hdownload) (by simp)
    | take _ hp₀ _ _ _ hunconsumed _ =>
        simp only [Event.isDownload, Bool.and_eq_true, decide_eq_true_eq] at hdownload
        obtain ⟨rfl, rfl⟩ := hdownload
        obtain rfl := Option.some.inj (hp.symm.trans hp₀)
        rcases hcase with hless | ⟨-, hconsumed⟩
        · omega
        · exact hconsumed hunconsumed
    | make _ _ _ _ _ _ _ _ => exact absurd hdownload (by simp [Event.isDownload])
    | renew _ _ _ _ _ _ _ _ => exact absurd hdownload (by simp [Event.isDownload])
    | revoke _ _ _ _ _ _ => exact absurd hdownload (by simp [Event.isDownload])
  · -- revoked
    intro id hid
    rcases List.mem_append.mp hid with hold | hnew
    · obtain ⟨p, d, hp, hd, hrevoked⟩ := hs.revoked id hold
      obtain ⟨p', d', hp', hd', hfollows⟩ := h.follows hp hd
      exact ⟨p', d', hp', hd', hfollows.revoked hrevoked⟩
    · obtain rfl := List.mem_singleton.mp hnew
      cases h with
      | quiet _ _ hnone _ _ => exact absurd rfl (hnone id)
      | revoke hsets _ _ _ _ hrevoked => exact ⟨_, _, hsets.row, hsets.device, hrevoked⟩
  · -- next
    intro e' he' x id r v st i heq
    rcases List.mem_append.mp he' with hold | hnew
    · exact hs.next e' hold x id r v st i heq
    · obtain rfl := List.mem_singleton.mp hnew
      subst heq
      cases h with
      | quiet hnone _ _ _ _ => exact absurd hnone (by simp [Event.issue])
      | renew hsets hissue _ _ _ hversion _ _ =>
          obtain rfl := Option.some.inj (hsets.issue.symm.trans hissue)
          exact ⟨rfl, hversion⟩
  · -- claimed
    intro e' he' x q st i heq
    rcases List.mem_append.mp he' with hold | hnew
    · obtain ⟨id, p, hp, hb, hv⟩ := hs.claimed e' hold x q st i heq
      obtain ⟨_, p', _, -, hp', -, hfollows⟩ := hfollows id p hp
      exact ⟨id, p', hp', hfollows.plan.1.trans hb, hfollows.plan.2.trans hv⟩
    · obtain rfl := List.mem_singleton.mp hnew
      subst heq
      cases h with
      | quiet hnone _ _ _ _ => exact absurd hnone (by simp [Event.issue])
      | make hsets _ _ _ _ hb hv _ => exact ⟨_, _, hsets.row, hb, hv⟩
  · -- claims
    intro b v r
    rw [List.filterMap_append]
    refine length_append_le (hs.claims b v r) (List.length_filterMap_le _ _) ?_
    intro hne
    obtain ⟨i, hi⟩ : ∃ i, e.issuedByClaim b v r = some i := by
      cases hi : e.issuedByClaim b v r with
      | none => exact absurd (by simp [hi]) hne
      | some i => exact ⟨i, rfl⟩
    rw [List.filterMap_eq_nil_iff]
    intro e' he'
    cases hi' : e'.issuedByClaim b v r with
    | none => rfl
    | some i' =>
        obtain ⟨x, q, st, rfl, hq⟩ := issuedByClaim_some hi'
        obtain ⟨id, p, hp, hb, hv⟩ := hs.claimed _ he' x q st i' rfl
        obtain ⟨x₁, q₁, st₁, rfl, hq₁⟩ := issuedByClaim_some hi
        cases h with
        | quiet hnone _ _ _ _ => exact absurd hnone (by simp [Event.issue])
        | make _ _ _ _ hfree hb₁ hv₁ _ =>
            refine absurd ⟨?_, ?_⟩ (hfree id p hp)
            · rw [hb, hb₁, hq.1, hq₁.1]
            · rw [hv, hv₁, hq.2, hq₁.2]
  · -- issuer
    intro e' he' i hi
    rcases List.mem_append.mp he' with hold | hnew
    · exact hs.issuer e' hold i hi
    · obtain rfl := List.mem_singleton.mp hnew
      cases h with
      | quiet hnone _ _ _ _ => exact absurd (hnone.symm.trans hi) (by simp)
      | make _ _ _ _ _ _ _ hissuer =>
          obtain rfl := Option.some.inj hi
          exact ⟨_, rfl, hissuer⟩
      | renew _ _ _ _ _ _ _ hissuer =>
          obtain rfl := Option.some.inj hi
          exact ⟨_, rfl, hissuer⟩
      | take _ _ _ _ _ _ _ => exact absurd hi (by simp [Event.issue])
      | revoke _ _ _ _ _ _ => exact absurd hi (by simp [Event.issue])

theorem issuedByReissue_some {e : Event ν} {id r : Text} {v : ℕ} {i : Issue}
    (h : e.issuedByReissue id r v = some i) : ∃ x st, e = .reissued x id r v st (some i) := by
  cases e with
  | reissued x id' r' v' st i' =>
      simp only [Event.issuedByReissue] at h
      split at h
      · rename_i hq
        obtain ⟨rfl, rfl, rfl⟩ := hq
        exact ⟨x, st, by rw [h]⟩
      · exact absurd h (by simp)
  | _ => exact absurd h (by simp [Event.issuedByReissue])

theorem issuedByReissue_sublist (es : List (Event ν)) (id r : Text) (v : ℕ) :
    (es.filterMap (Event.issuedByReissue id r v)).Sublist (issues es) := by
  induction es with
  | nil => exact List.Sublist.slnil
  | cons e es ih =>
      cases hi : e.issuedByReissue id r v with
      | none =>
          rw [List.filterMap_cons_none hi]
          cases hi' : e.issue with
          | none =>
              rw [issues, List.filterMap_cons_none hi']
              exact ih
          | some i =>
              rw [issues, List.filterMap_cons_some hi']
              exact ih.cons i
      | some i =>
          obtain ⟨x, st, rfl⟩ := issuedByReissue_some hi
          have hissue : (Event.reissued x id r v st (some i) : Event ν).issue = some i := rfl
          rw [List.filterMap_cons_some hi, issues, List.filterMap_cons_some hissue]
          exact ih.cons_cons i

/-- **One reissue request issues one credential at most**: it makes the version after its own. -/
theorem Books.one_reissue {es : List (Event ν)} (hs : Books es s) (id r : Text) (v : ℕ) :
    (es.filterMap (Event.issuedByReissue id r v)).length ≤ 1 := by
  have hnodup := ((issuedByReissue_sublist es id r v).map fun i => (i.deviceId, i.version)).nodup hs.versions
  have hall : ∀ k ∈ (es.filterMap (Event.issuedByReissue id r v)).map fun i => (i.deviceId, i.version),
      k = (id, v + 1) := by
    intro k hk
    obtain ⟨i, hi, rfl⟩ := List.mem_map.mp hk
    obtain ⟨e, he, hi⟩ := List.mem_filterMap.mp hi
    obtain ⟨x, st, rfl⟩ := issuedByReissue_some hi
    obtain ⟨hname, hversion⟩ := hs.next _ he x id r v st i rfl
    rw [hname, hversion]
  rw [List.eq_replicate_of_mem hall] at hnodup
  simpa using List.nodup_replicate.mp hnodup

variable [JsonNumber ν]

theorem books_run {es : List (Event ν)}
    (hrun : (store hash sealCredential openCredential accepts ingestUrl).Run es s) : Books es s := by
  refine hrun.invariant (I := Books) ?_ ?_
  · intro s ⟨hrows, _⟩
    have hnone : ∀ id p, s.provisionings.find id ≠ some p := by
      intro id p hp
      have hmem := Table.find_mem hp
      rw [hrows] at hmem
      exact absurd hmem (by simp)
    refine ⟨fun id _ p _ hp => absurd hp (hnone id p), fun id p hp => absurd hp (hnone id p), by simp,
      fun id p hp => absurd hp (hnone id p), by simp, by simp, by simp, by simp, by simp, by simp, by simp,
      by simp⟩
  · intro es s e s' hs hone _
    exact step_books hs (step_effect hone)

structure HandedOut (hash : Text → Text)
    (sealCredential : Text → Text → CredentialBinding → Option SealedCredential)
    (openCredential : SealedCredential → CredentialBinding → Option Text) (accepts : DeviceConfig ν → Bool)
    (ingestUrl : Option Text) (es : List (Event ν)) (s : State ν) : Prop where
  one_device : ∀ p ∈ s.provisionings.rows, ∀ q ∈ s.provisionings.rows, p.buildId = q.buildId →
    p.planVersion = q.planVersion → p = q
  one_download : ∀ id v, (es.filter (Event.isDownload id v)).length ≤ 1
  one_issue : ((issues es).map fun i => (i.deviceId, i.version)).Nodup
  owner : ∀ x v t config s',
    StoreStep hash sealCredential openCredential accepts ingestUrl s (.downloaded x v t config) s' →
    (∃ e ∈ es, ∃ i issuer, e.issue = some i ∧ e.session = some issuer ∧ i.deviceId = config.deviceId ∧
      i.version = v ∧ issuer.userId = x.userId ∧ issuer.rootSessionId = x.rootSessionId ∧ t < i.expiresAt) ∧
    .revoked config.deviceId ∉ es ∧
    ∃ d, (s'.tables config.deviceId).device = some d ∧ d.tokenHash = hash config.token
  revoked : ∀ id e s', .revoked id ∈ es →
    StoreStep hash sealCredential openCredential accepts ingestUrl s e s' →
    (∀ v, e.isDownload id v = false) ∧ ∀ x r v st i, e ≠ .reissued x id r v st i
  one_claim : ∀ b v r, (es.filterMap (Event.issuedByClaim b v r)).length ≤ 1
  one_reissue : ∀ id r v, (es.filterMap (Event.issuedByReissue id r v)).length ≤ 1

/-- **Credentials are handed out once**, and only to whom they were issued. -/
theorem handed_out_once {es : List (Event ν)}
    (hrun : (store hash sealCredential openCredential accepts ingestUrl).Run es s) :
    HandedOut hash sealCredential openCredential accepts ingestUrl es s := by
  have hs := books_run hrun
  refine ⟨?_, hs.downloads, hs.versions, ?_, ?_, hs.claims, hs.one_reissue⟩
  · intro p hp q hq hbuild hversion
    have hsame := hs.plans _ _ p q (Table.mem_find hp) (Table.mem_find hq) hbuild hversion
    exact Option.some.inj ((Table.mem_find hp).symm.trans (hsame ▸ Table.mem_find hq))
  · intro x v t config s' hone
    cases hone with
    | @download _ c _ deviceId _ _ hdownload =>
        obtain ⟨p, d, hp⟩ := download_ok hdownload
        obtain rfl := hp.name
        obtain ⟨i, hi, hissue⟩ := hs.current _ p hp.row
        obtain ⟨p', d', hp', hd', rfl⟩ := State.issue_some hissue
        obtain rfl := Option.some.inj (hp.row.symm.trans hp')
        obtain ⟨e, he, hei⟩ := List.mem_filterMap.mp hi
        obtain ⟨issuer, hsession, huser, hroot⟩ := hs.issuer e he _ hei
        refine ⟨⟨e, he, _, issuer, hei, hsession, rfl, hp.version, ?_, ?_, hp.unexpired⟩, ?_, ?_⟩
        · exact Option.some.inj (huser.symm.trans hp.user)
        · exact Option.some.inj (hroot.symm.trans hp.root)
        · intro hrevoked
          obtain ⟨_, d₀, -, hd₀, hgone⟩ := hs.revoked _ hrevoked
          obtain rfl := Option.some.inj (hp.device.symm.trans hd₀)
          exact absurd (hp.live.symm.trans hgone) (by simp)
        · exact ⟨d, by rw [hp.eq]; exact hp.device, hp.token.symm⟩
  · intro id e s' hrevoked hone
    obtain ⟨p₀, d₀, hp₀, hd₀, hgone⟩ := hs.revoked id hrevoked
    have hlive : ∀ d, (s.tables id).device = some d → d.revoked ≠ false := by
      intro d hd hlive
      obtain rfl := Option.some.inj (hd₀.symm.trans hd)
      exact absurd (hgone.symm.trans hlive) (by simp)
    cases hone with
    | @download _ c x deviceId version config hdownload =>
        obtain ⟨p, d, hp⟩ := download_ok hdownload
        refine ⟨?_, by simp⟩
        intro v
        by_contra hnot
        simp only [Bool.not_eq_false, Event.isDownload, Bool.and_eq_true, decide_eq_true_eq] at hnot
        obtain rfl : deviceId = id := hp.name.symm.trans hnot.1
        exact hlive d hp.device hp.live
    | @reissue _ c x deviceId requestId version st issued hreissue =>
        refine ⟨fun _ => rfl, ?_⟩
        intro x' r v st' i heq
        obtain ⟨-, rfl, -⟩ := Event.reissued.inj heq
        cases reissue_ok hreissue with
        | retried _ hd hnot => exact hlive _ hd hnot
        | made _ hd hnot _ => exact hlive _ hd hnot
    | _ => exact ⟨fun _ => rfl, by simp⟩

end

/-! ## A run -/

namespace Bench

def authority : Authority ℚ :=
  ⟨Cloudlink.Bench.channels, [], 300, js "sha256:0", js "esp32s3-bh1750-usb-v1", js "esp-idf-5.3"⟩

def context (token : Text) (time : ℤ) : Context ℚ where
  builds := fun _ _ => true
  authority := .ok authority
  checkedAt := time
  writtenAt := time
  live := fun _ => true
  deviceId := Cloudlink.Bench.device
  token := token
  nonce := []

def session : Session := ⟨js "tenant", js "user", js "session"⟩

def request : ClaimRequest := ⟨js "build", 1, 1, js "claim"⟩

def url : Text := js "https://ingest.example/ingest/v1"

def sealing (nonce token : Text) (_ : CredentialBinding) : Option SealedCredential :=
  some ⟨js "k1", nonce, token, []⟩

def opening (sealed : SealedCredential) (_ : CredentialBinding) : Option Text := some sealed.ciphertext

def s₀ : State ℚ where
  tables := fun _ => { Cloudlink.Bench.tables with device := none }
  provisionings := .empty

def token : Text := Cloudlink.Bench.token

def row : ProvisioningRow := claimed (context token 0) session request authority url ⟨js "k1", [], token, []⟩

def s₁ : State ℚ := (s₀.setDevice Cloudlink.Bench.device (newDevice token authority)).setRow row

def issue : Issue := ⟨Cloudlink.Bench.device, 1, token, 0, some (js "user"), some (js "session"), 600000⟩

def claimEvent : Event ℚ := .claimed session request (status row false 0 session) (some issue)

theorem row_found : s₁.provisionings.find Cloudlink.Bench.device = some row := Table.find_put_key rfl

theorem claim_step : StoreStep id sealing opening (fun _ => true) (some url) s₀ claimEvent s₁ := by
  have hclaim : claim id sealing (some url) (context token 0) session request s₀ =
      .ok (status row false 0 session, true, s₁) := by rfl
  have hissue : s₁.issue Cloudlink.Bench.device = some issue := by
    rw [State.issue, row_found]
    rfl
  have hstep : StoreStep id sealing opening (fun _ => true) (some url) s₀
      (.claimed session request (status row false 0 session) (s₁.issue Cloudlink.Bench.device)) s₁ :=
    .claim hclaim
  rwa [hissue] at hstep

def config : DeviceConfig ℚ := configuration row authority token

def s₂ : State ℚ := s₁.setRow { row with handoffConsumedAt := some 1000, handoff := none }

theorem download_step : StoreStep id sealing opening (fun _ => true) (some url) s₁
    (.downloaded session 1 1000 config) s₂ := by
  have hdownload : download id opening (fun _ => true) (some url) (context token 1000) session
      Cloudlink.Bench.device 1 s₁ = .ok (config, s₂) := by
    rw [download, locked, row_found]
    rfl
  exact .download hdownload

theorem download_run : (store id sealing opening (fun _ => true) (some url)).Run
    [claimEvent, .downloaded session 1 1000 config] s₂ := by
  have hinit : (store id sealing opening (fun _ => true) (some url)).init s₀ :=
    ⟨rfl, fun _ => ⟨rfl, fun _ => rfl⟩⟩
  exact .step (.step (.init hinit) claim_step trivial) download_step trivial

end Bench

theorem handed_out_once_bench : HandedOut id Bench.sealing Bench.opening (fun _ => true) (some Bench.url)
    [Bench.claimEvent, .downloaded Bench.session 1 1000 Bench.config] Bench.s₂ :=
  handed_out_once Bench.download_run

end Albusforge.Provisioning
