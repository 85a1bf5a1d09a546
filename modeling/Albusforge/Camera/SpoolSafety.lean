import Albusforge.Camera.Ownership
import Albusforge.Camera.Uploads

/-!
# What leaves the spool

A step of the two tasks lets a record go in one of the ways of `Leaves` only, and an upload that is
under way holds the record that is on the card (`Holding`). Both rest on scans that are answered
attentively: `spool_safe`. A scan that fails to open a good record takes it for a corrupt one and
removes it: `unreadable_lost`.
-/

namespace Albusforge.Camera

open Lib Lib.Disk Lib.Proc

/-! ## The sections -/

structure Released (id : Bytes) (d d' : Disk) : Prop where
  others : ∀ id', id' ≠ id → d' (obsPath spoolDir id') = d (obsPath spoolDir id')
  gone : d' (obsPath spoolDir id) = d (obsPath spoolDir id) ∨ d' (obsPath spoolDir id) = none

section

variable {esp : Bool} {owner : OwnerIdentity} {d d' : Disk} {id : Bytes} {record : ObsRecord} {now : ℤ}
  {rounds : ℕ}

theorem Released.refl (d : Disk) : Released id d d := ⟨fun _ _ => rfl, Or.inl rfl⟩

theorem released_erase : Released id d (d.erase (obsPath spoolDir id)) :=
  ⟨fun _ hid => erase_of_ne _ fun heq => hid (obsPath_inj heq), Or.inr (erase_self _ _)⟩

theorem spool_ne_quarantine {name : Bytes} : obsPath spoolDir id ≠ Path.child quarantineDir name := by
  intro heq
  have htake := congrArg (List.take 15) heq
  rw [obsPath, Path.child, Path.child, List.take_append_of_le_length (by decide),
    List.take_append_of_le_length (by decide)] at htake
  exact absurd htake (by decide)

theorem remove_released : wp serves (obsSpoolRemove spoolDir id) (fun _ d' => Released id d d')
    (fun _ => True) d := by
  refine wp_mono ?_ (fun _ h => h) obsSpoolRemove_wp
  intro _ d' h
  rcases h with rfl | rfl
  · exact Released.refl _
  · exact released_erase

theorem moved_out (hfile : d.isFile (obsPath spoolDir id)) :
    Released id d (d.moved (obsPath spoolDir id) (obsPath quarantineDir id)) ∧
      d.moved (obsPath spoolDir id) (obsPath quarantineDir id) (obsPath quarantineDir id) =
        d (obsPath spoolDir id) := by
  have hne : ∀ id', obsPath spoolDir id' ≠ obsPath quarantineDir id := fun id' => spool_ne_quarantine
  obtain ⟨n, hn⟩ := isFile_some hfile
  rw [moved_some hn]
  refine ⟨⟨?_, Or.inr ?_⟩, ?_⟩
  · intro id' hid
    rw [set_of_ne _ _ (hne id'), erase_of_ne _ fun heq => hid (obsPath_inj heq)]
  · rw [set_of_ne _ _ (hne id), erase_self]
  · rw [set_self, hn]

theorem obsSpoolQuarantine_wp :
    wp serves (obsSpoolQuarantine rounds spoolDir quarantineDir record now)
      (fun _ d' => Released record.id d d' ∧
        (d' (obsPath spoolDir record.id) = d (obsPath spoolDir record.id) ∨
          d' (obsPath quarantineDir record.id) = d (obsPath spoolDir record.id)))
      (fun _ => True) d := by
  unfold obsSpoolQuarantine
  split
  · rename_i source target hsource htarget
    obtain rfl := recordPath_eq hsource
    obtain rfl := recordPath_eq htarget
    refine wp_bind (wp_mono ?_ (fun _ h => h) scanLimits_frame)
    intro scan d₁ hframe
    have hspool : ∀ id, d₁ (obsPath spoolDir id) = d (obsPath spoolDir id) :=
      fun id => hframe _ fun _ => spool_ne_quarantine
    have hnothing : Released record.id d d₁ := ⟨fun id _ => hspool id, Or.inl (hspool _)⟩
    split
    · exact ⟨⟨hnothing, Or.inl (hspool _)⟩, trivial⟩
    refine wp_bind (wp_stat trivial ?_)
    intro exists' _
    split
    · exact ⟨⟨hnothing, Or.inl (hspool _)⟩, trivial⟩
    refine wp_rename trivial ⟨hnothing, Or.inl (hspool _)⟩ ?_
    intro hfile _
    refine ⟨trivial, fun _ => ?_⟩
    rw [← obsPath] at hfile
    obtain ⟨hreleased, htarget⟩ := moved_out hfile
    refine ⟨⟨?_, ?_⟩, Or.inr (htarget.trans (hspool _))⟩
    · intro id hid
      exact (hreleased.others id hid).trans (hspool id)
    · rw [← hspool]
      exact hreleased.gone
  · exact ⟨⟨Released.refl _, Or.inl rfl⟩, trivial⟩

theorem corruptSection_wp : wp serves (corruptSection esp owner record)
    (fun _ d' => Released record.id d d') (fun _ => True) d := by
  unfold corruptSection
  refine wp_bind (wp_mono ?_ (fun _ h => h) ownerValid_wp)
  intro valid d' h
  subst h
  cases valid with
  | false => exact ⟨Released.refl _, trivial⟩
  | true =>
      refine wp_bind (wp_mono ?_ (fun _ h => h) remove_released)
      intro _ d'' h
      exact ⟨h, trivial⟩

theorem finishSection_wp {action : ObsAction} :
    wp serves (finishSection esp owner rounds now record action)
      (fun _ d' => Released record.id d d' ∧
        (d' (obsPath spoolDir record.id) = d (obsPath spoolDir record.id) ∨ action = .ack ∨
          action = .dropExpired ∨ action = .quarantine ∧
            d' (obsPath quarantineDir record.id) = d (obsPath spoolDir record.id)))
      (fun _ => True) d := by
  unfold finishSection
  refine wp_bind (wp_mono ?_ (fun _ h => h) ownerValid_wp)
  intro valid d' h
  subst h
  cases valid with
  | false => exact ⟨⟨Released.refl _, Or.inl rfl⟩, trivial⟩
  | true =>
      cases action with
      | ack =>
          refine wp_bind (wp_mono ?_ (fun _ h => h) remove_released)
          intro _ d'' h
          exact ⟨⟨h, Or.inr (Or.inl rfl)⟩, trivial⟩
      | dropExpired =>
          refine wp_bind (wp_mono ?_ (fun _ h => h) remove_released)
          intro _ d'' h
          exact ⟨⟨h, Or.inr (Or.inr (Or.inl rfl))⟩, trivial⟩
      | quarantine =>
          refine wp_bind (wp_mono ?_ (fun _ h => h) obsSpoolQuarantine_wp)
          intro _ d'' h
          obtain ⟨hreleased, hsame | hmoved⟩ := h
          · exact ⟨⟨hreleased, Or.inl hsame⟩, trivial⟩
          · exact ⟨⟨hreleased, Or.inr (Or.inr (Or.inr ⟨rfl, hmoved⟩))⟩, trivial⟩
      | retry => exact ⟨⟨Released.refl _, Or.inl rfl⟩, trivial⟩
      | pause => exact ⟨⟨Released.refl _, Or.inl rfl⟩, trivial⟩

def Holding (s : SpoolTasks) : Prop :=
  ∀ record bytes, s.upload = some (record, bytes) → s.claimed = record.id ∧
    recordAt s.disk spoolDir record.id = some record ∧
    ∃ c, s.disk.content (obsPath spoolDir record.id) = some c ∧ bytes = c.drop headerSize

theorem claimRest_wp {claimed : Bytes} {scan : Scan}
    (hscan : scan.ok = true → ∀ c, scan.pass.candidate = some c → recordAt d spoolDir c.id = some c) :
    wp serves (claimRest rounds now claimed scan)
      (fun result d' => (∀ id, d' (obsPath spoolDir id) = d (obsPath spoolDir id)) ∧
        Holding ⟨d', result.1, result.2⟩) (fun _ => True) d := by
  unfold claimRest
  split
  · exact ⟨⟨fun _ => rfl, fun _ _ h => absurd h (by simp)⟩, trivial⟩
  rename_i hok
  refine wp_bind (wp_mono ?_ (fun _ h => h) scanLimits_frame)
  intro quarantine d' hframe
  have hspool : ∀ id, d' (obsPath spoolDir id) = d (obsPath spoolDir id) :=
    fun id => hframe _ fun _ => spool_ne_quarantine
  split
  · exact ⟨⟨hspool, fun _ _ h => absurd h (by simp)⟩, trivial⟩
  split
  · exact ⟨⟨hspool, fun _ _ h => absurd h (by simp)⟩, trivial⟩
  rename_i candidate hcandidate
  have hthere := hscan (by simpa using hok) candidate hcandidate
  rw [← recordAt_congr (hspool candidate.id)] at hthere
  refine wp_bind (wp_mono ?_ (fun _ h => h) obsSpoolRead_wp)
  intro taken d'' h
  obtain ⟨rfl, hread⟩ := h
  refine ⟨⟨hspool, ?_⟩, trivial⟩
  intro record bytes htaken
  obtain ⟨c, hc, hrecord, himage⟩ := hread record bytes htaken
  -- the file is the one whose header the scan has seen
  obtain ⟨c', hc', hrecord', -⟩ := recordAt_some hthere
  obtain rfl : c = c' := Option.some.inj (hc.symm.trans hc')
  obtain rfl : record = candidate := Option.some.inj (hrecord.symm.trans hrecord')
  exact ⟨rfl, hthere, c, hc, himage⟩

/-! ## A put, and the room it was given -/

section

variable {bytes : Bytes} {ok : Bool}

theorem Put.keeps (h : Put record bytes ok d d') (hthere : (d (obsPath spoolDir id)).isSome = true) :
    d' (obsPath spoolDir id) = d (obsPath spoolDir id) := by
  by_cases hid : id = record.id
  · subst hid
    exact h.kept hthere
  · exact h.others _ (fun heq => hid (obsPath_inj heq)) obsPath_ne_part

def spoolLimits (reserveBytes : ℕ) : Limits := ⟨reserveBytes, obsSpoolCount, obsSpoolBytes⟩

theorem Put.bounded {records : List ObsRecord} (h : Put record bytes true d d')
    (hlength : record.bytes = bytes.length) (hstock : Stock d spoolDir records)
    (hfit : (spoolLimits record.bytes).fit records = true) :
    ∃ records', Stock d' spoolDir records' ∧ records'.length ≤ obsSpoolCount ∧
      spoolBytes records' ≤ obsSpoolBytes := by
  obtain ⟨hsome, hnone, c, hc, hsize⟩ := h.stored rfl
  have hroom : records.length + 1 ≤ obsSpoolCount ∧
      spoolBytes records + record.bytes + headerSize ≤ obsSpoolBytes := by
    simpa [Limits.fit, fits, spoolLimits, hsome] using hfit
  have hnew : ∀ r ∈ records, r.id ≠ record.id := by
    intro r hr hid
    have hthere := hstock.there r hr
    rw [hid, recordAt_absent hnone] at hthere
    exact absurd hthere (by simp)
  have hothers : ∀ id, id ≠ record.id → recordAt d' spoolDir id = recordAt d spoolDir id := by
    intro id hid
    exact recordAt_congr (h.others _ (fun heq => hid (obsPath_inj heq)) obsPath_ne_part)
  have hold : ∀ r ∈ records, recordAt d' spoolDir r.id = some r := by
    intro r hr
    exact (hothers r.id (hnew r hr)).trans (hstock.there r hr)
  cases hput : recordAt d' spoolDir record.id with
  | none =>
      refine ⟨records, ⟨hstock.ids, hold, ?_⟩, by omega, by omega⟩
      intro id r hr
      have hid : id ≠ record.id := by
        intro heq
        rw [heq, hput] at hr
        exact absurd hr (by simp)
      exact hstock.all id r ((hothers id hid).symm.trans hr)
  | some r =>
      obtain ⟨c', hc', hrecord, hid⟩ := recordAt_some hput
      obtain rfl : c = c' := Option.some.inj (hc.symm.trans hc')
      have hbytes : c.length = headerSize + r.bytes := by
        simpa using (Option.filter_eq_some_iff.mp hrecord).2
      refine ⟨records ++ [r], ⟨?_, ?_, ?_⟩, ?_, ?_⟩
      · rw [List.map_append, List.nodup_append]
        refine ⟨hstock.ids, by simp, ?_⟩
        intro id hmem id' hmem' heq
        obtain ⟨r', hr', rfl⟩ := List.mem_map.mp hmem
        obtain rfl : id' = r.id := by simpa using hmem'
        exact hnew r' hr' (heq.trans hid)
      · intro r' hr'
        rcases List.mem_append.mp hr' with hmem | hlast
        · exact hold r' hmem
        · obtain rfl := List.mem_singleton.mp hlast
          rwa [hid]
      · intro id r' hr'
        by_cases heq : id = record.id
        · rw [heq, hput] at hr'
          obtain rfl := Option.some.inj hr'
          exact List.mem_append_right _ (List.mem_singleton_self _)
        · exact List.mem_append_left _ (hstock.all id r' ((hothers id heq).symm.trans hr'))
      · rw [List.length_append, List.length_singleton]
        exact hroom.1
      · have hsum : spoolBytes (records ++ [r]) = spoolBytes records + (r.bytes + headerSize) := by
          simp [spoolBytes]
        rw [hsum]
        omega

theorem captureRest_wp {scan : Scan} : wp serves (captureRest record bytes scan)
    (fun stored d' => (d' = d ∧ stored = false) ∨ scan.ok = true ∧ Put record bytes stored d d')
    (fun _ => True) d := by
  unfold captureRest
  split
  · rename_i hok
    refine wp_mono ?_ (fun _ h => h) put_wp
    intro stored d' h
    exact Or.inr ⟨hok, h⟩
  · exact ⟨Or.inl ⟨rfl, rfl⟩, trivial⟩

end

end

/-! ## What leaves -/

def Acknowledges (parse : Bytes → Option (Bytes → Option JsonItem)) (response : Response)
    (r : ObsRecord) : Prop :=
  ∃ ack, parse response.body = some ack ∧ ack (chars "observation_id") = some (.string r.id) ∧
    ack (chars "sha256") = some (.string r.sha256) ∧ ack (chars "bytes") = some (.number r.bytes) ∧
    ack (chars "state") = some (.string (chars "stored"))

def Taken (now : ℤ) (claimed : Option Bytes) (reserveBytes : ℕ) (d : Disk) (r : ObsRecord) : Prop :=
  Aged now claimed r.id r ∨ Evicted spoolDir claimed (spoolLimits reserveBytes) d r

inductive Leaves (digest : Bytes → Bytes) (parse : Bytes → Option (Bytes → Option JsonItem))
    (s s' : SpoolTasks) (r : ObsRecord) : SpoolEvent → Prop
  | acknowledged {outcome : HttpOutcome} : (outcome.status = 200 ∨ outcome.status = 201) →
      Acknowledges parse outcome.response r → Leaves digest parse s s' r (.finish r (some outcome))
  | expired {outcome : HttpOutcome} : outcome.status = 410 →
      Leaves digest parse s s' r (.finish r (some outcome))
  | quarantined {outcome : HttpOutcome} :
      (outcome.status = 400 ∨ outcome.status = 409 ∨ outcome.status = 413 ∨ outcome.status = 415 ∨
        outcome.status = 422) →
      s'.disk (obsPath quarantineDir r.id) = s.disk (obsPath spoolDir r.id) →
      Leaves digest parse s s' r (.finish r (some outcome))
  | corrupt {content : Bytes} : s.disk.content (obsPath spoolDir r.id) = some content →
      digest (content.drop headerSize) ≠ r.sha256 → Leaves digest parse s s' r (.corrupt r)
  | capture {record : ObsRecord} {stored : Bool} :
      Taken record.capturedAt (some s.claimed) record.bytes s.disk r →
      Leaves digest parse s s' r (.capture record stored)
  | claim {now : ℤ} {taken : Option ObsRecord} : Taken now none 0 s.disk r →
      Leaves digest parse s s' r (.claim now taken)

section

variable {esp : Bool} {owner : OwnerIdentity} {digest : Bytes → Bytes}
  {parse : Bytes → Option (Bytes → Option JsonItem)} {s s' : SpoolTasks} {e : SpoolEvent}
  {d d' : Disk} {id : Bytes} {r : ObsRecord}

theorem field_eq {ack : Bytes → Option JsonItem} {key value : Bytes} {maximum : ℕ}
    (h : field ack key maximum = some value) : ack key = some (.string value) := by
  unfold field at h
  split at h
  · rename_i s hs
    split at h
    · rw [hs, Option.some.inj h]
    · exact absurd h (by simp)
  · exact absurd h (by simp)

theorem exactAck_acknowledges {response : Response} (h : exactAck parse response r = true) :
    Acknowledges parse response r := by
  unfold exactAck at h
  split at h
  · exact absurd h (by simp)
  split at h
  · exact absurd h (by simp)
  rename_i ack hack
  simp only [Bool.and_eq_true, decide_eq_true_eq] at h
  obtain ⟨⟨⟨⟨hid, hsha⟩, hstate⟩, -⟩, hbytes⟩ := h
  exact ⟨ack, hack, field_eq hid, field_eq hsha, hbytes, field_eq hstate⟩

theorem obsResponseAction_status {status : ℤ} {exact : Bool} {action : ObsAction}
    (h : obsResponseAction status exact = action) :
    (action = .ack → (status = 200 ∨ status = 201) ∧ exact = true) ∧
    (action = .dropExpired → status = 410) ∧
    (action = .quarantine →
      status = 400 ∨ status = 409 ∨ status = 413 ∨ status = 415 ∨ status = 422) := by
  subst h
  unfold obsResponseAction
  split_ifs <;> simp_all

theorem obsSpoolScan_wp {rounds reserveBytes : ℕ} {now : ℤ} {claimed : Option Bytes} :
    wp (attentive spoolDir) (obsSpoolScan rounds spoolDir now claimed reserveBytes)
      (fun scan d' => Scanned spoolDir now claimed (spoolLimits reserveBytes) d d' ∧ (scan.ok = true →
        ∃ records, Stock d' spoolDir records ∧ (spoolLimits reserveBytes).fit records = true ∧
          IsOldest claimed records scan.pass.candidate)) (fun _ => True) d :=
  scanLimits_wp (l := spoolLimits reserveBytes)

theorem Scanned.file {now : ℤ} {claimed : Option Bytes} {l : Limits}
    (h : Scanned spoolDir now claimed l d d') (hr : recordAt d' spoolDir id = some r) :
    d' (obsPath spoolDir id) = d (obsPath spoolDir id) := by
  rcases h.shrunk (obsPath spoolDir id) with hsame | ⟨hnone, -⟩
  · exact hsame
  · exact absurd hr (by simp [recordAt_absent hnone])

theorem Scanned.claimed {now : ℤ} {l : Limits} (h : Scanned spoolDir now (some id) l d d')
    (hr : recordAt d spoolDir id = some r) : recordAt d' spoolDir id = some r := by
  obtain ⟨_, _, _, hid⟩ := recordAt_some hr
  rcases h.left id r hr with hstill | haged | hevicted
  · exact hstill
  · exact absurd rfl haged.1
  · exact absurd (congrArg some hid.symm) hevicted.free

structure Spared (digest : Bytes → Bytes) (parse : Bytes → Option (Bytes → Option JsonItem))
    (s : SpoolTasks) (e : SpoolEvent) (s' : SpoolTasks) : Prop where
  claimed : ∀ record stored, e = .capture record stored → ∀ r,
    recordAt s.disk spoolDir s.claimed = some r → recordAt s'.disk spoolDir s.claimed = some r ∧
      s'.disk (obsPath spoolDir s.claimed) = s.disk (obsPath spoolDir s.claimed)
  left : ∀ id r, recordAt s.disk spoolDir id = some r →
    recordAt s'.disk spoolDir id = some r ∨ Leaves digest parse s s' r e
  bounded : ∀ record, e = .capture record true → ∃ records, Stock s'.disk spoolDir records ∧
    records.length ≤ obsSpoolCount ∧ spoolBytes records ≤ obsSpoolBytes

theorem spared_of_same (h : ∀ id, s'.disk (obsPath spoolDir id) = s.disk (obsPath spoolDir id))
    (hnot : ∀ record, e ≠ .capture record true) : Spared digest parse s e s' := by
  refine ⟨?_, ?_, fun record he => absurd he (hnot record)⟩
  · intro record stored _ r hr
    exact ⟨(recordAt_congr (h _)).trans hr, h _⟩
  · intro id r hr
    exact Or.inl ((recordAt_congr (h id)).trans hr)

theorem spared_of_released {record : ObsRecord} (h : Released record.id s.disk s'.disk)
    (hrecord : recordAt s.disk spoolDir record.id = some record)
    (hgone : s'.disk (obsPath spoolDir record.id) = s.disk (obsPath spoolDir record.id) ∨
      Leaves digest parse s s' record e)
    (hnot : ∀ record stored, e ≠ .capture record stored) : Spared digest parse s e s' := by
  refine ⟨fun r stored he => absurd he (hnot r stored), ?_, fun r he => absurd he (hnot r true)⟩
  intro id r hr
  by_cases hid : id = record.id
  · subst hid
    obtain rfl := Option.some.inj (hrecord.symm.trans hr)
    rcases hgone with hsame | hleaves
    · exact Or.inl ((recordAt_congr hsame).trans hr)
    · exact Or.inr hleaves
  · exact Or.inl ((recordAt_congr (h.others id hid)).trans hr)

theorem Holding.of_same (hholding : Holding s)
    (h : ∀ record bytes, s.upload = some (record, bytes) →
      d' (obsPath spoolDir record.id) = s.disk (obsPath spoolDir record.id)) :
    Holding { s with disk := d' } := by
  intro record bytes hupload
  obtain ⟨hclaimed, hrecord, c, hc, himage⟩ := hholding record bytes hupload
  have hsame := h record bytes hupload
  refine ⟨hclaimed, (recordAt_congr hsame).trans hrecord, c, ?_, himage⟩
  rw [← hc]
  simp only [Disk.content, hsame]

/-- **One step**: an upload that is under way still holds what is on the card, and records leave in
one of the ways only. -/
theorem spool_step (hholding : Holding s)
    (hstep : SpoolStep esp owner digest parse (attentive spoolDir) s e s') :
    Holding s' ∧ Spared digest parse s e s' := by
  cases hstep with
  | captureDenied hvalid =>
      obtain rfl := hvalid.value ownerValid_wp
      exact ⟨hholding, spared_of_same (fun _ => rfl) (by simp)⟩
  | @capture record bytes rounds d d₁ d₂ scan stored hbytes hdigest hvalid hscan hrest =>
      obtain rfl := hvalid.value ownerValid_wp
      obtain ⟨hscanned, hok⟩ := hscan.value obsSpoolScan_wp
      have hput := hrest.value captureRest_wp
      -- what the scan has left, the put leaves
      have hkeeps : ∀ id r, recordAt d₁ spoolDir id = some r →
          d₂ (obsPath spoolDir id) = d₁ (obsPath spoolDir id) := by
        intro id r hr
        rcases hput with ⟨rfl, -⟩ | ⟨-, hput⟩
        · rfl
        · exact hput.keeps (recordAt_present hr)
      have hclaimed : ∀ r, recordAt s.disk spoolDir s.claimed = some r →
          recordAt d₂ spoolDir s.claimed = some r ∧
            d₂ (obsPath spoolDir s.claimed) = s.disk (obsPath spoolDir s.claimed) := by
        intro r hr
        have hstill := hscanned.claimed hr
        have hsame := hkeeps _ r hstill
        exact ⟨(recordAt_congr hsame).trans hstill, hsame.trans (hscanned.file hstill)⟩
      refine ⟨hholding.of_same ?_, ⟨?_, ?_, ?_⟩⟩
      · intro record' bytes' hupload
        obtain ⟨heq, hrecord, -⟩ := hholding record' bytes' hupload
        rw [← heq] at hrecord ⊢
        exact (hclaimed record' hrecord).2
      · intro _ _ _ r hr
        exact hclaimed r hr
      · intro id r hr
        rcases hscanned.left id r hr with hstill | htaken
        · exact Or.inl ((recordAt_congr (hkeeps id r hstill)).trans hstill)
        · obtain ⟨_, _, _, hid⟩ := recordAt_some hr
          rw [← hid] at htaken
          exact Or.inr (.capture htaken)
      · intro record' he
        obtain ⟨rfl, rfl⟩ : record = record' ∧ stored = true := by simpa using he
        rcases hput with ⟨-, habsurd⟩ | ⟨hfine, hput⟩
        · exact absurd habsurd (by simp)
        · obtain ⟨records, hstock, hfit, -⟩ := hok hfine
          exact hput.bounded hbytes hstock hfit
  | claimDenied hnone hvalid =>
      obtain rfl := hvalid.value ownerValid_wp
      exact ⟨hholding, spared_of_same (fun _ => rfl) (by simp)⟩
  | @claim rounds rounds' now now' d d₁ d₂ scan claimed taken hnone hvalid hscan hrest =>
      obtain rfl := hvalid.value ownerValid_wp
      obtain ⟨hscanned, hok⟩ := hscan.value obsSpoolScan_wp
      have hcandidate : scan.ok = true → ∀ c, scan.pass.candidate = some c →
          recordAt d₁ spoolDir c.id = some c := by
        intro hfine c hc
        obtain ⟨records, hstock, -, holdest⟩ := hok hfine
        rw [hc] at holdest
        exact hstock.there c holdest.1
      obtain ⟨hsame, hnow⟩ := hrest.value (claimRest_wp hcandidate)
      refine ⟨hnow, ⟨by simp, ?_, by simp⟩⟩
      intro id r hr
      rcases hscanned.left id r hr with hstill | htaken
      · exact Or.inl ((recordAt_congr (hsame id)).trans hstill)
      · obtain ⟨_, _, _, hid⟩ := recordAt_some hr
        rw [← hid] at htaken
        exact Or.inr (.claim htaken)
  | @corrupt record bytes d hupload hdigest hsection =>
      obtain ⟨-, hrecord, c, hc, himage⟩ := hholding record bytes hupload
      have hreleased := hsection.value corruptSection_wp
      refine ⟨fun _ _ h => absurd h (by simp), spared_of_released hreleased hrecord ?_ (by simp)⟩
      exact Or.inr (.corrupt hc (himage ▸ hdigest))
  | @finish record bytes outcome rounds now d hupload hdigest hsection =>
      obtain ⟨-, hrecord, -⟩ := hholding record bytes hupload
      obtain ⟨hreleased, hgone⟩ := hsection.value finishSection_wp
      refine ⟨fun _ _ h => absurd h (by simp), spared_of_released hreleased hrecord ?_ (by simp)⟩
      cases outcome with
      | none =>
          rcases hgone with hsame | hack | hexpired | ⟨hquarantine, -⟩
          · exact Or.inl hsame
          · exact absurd hack (by simp [actionOf])
          · exact absurd hexpired (by simp [actionOf])
          · exact absurd hquarantine (by simp [actionOf])
      | some o =>
          obtain ⟨hstatus, hstatus', hstatus''⟩ :=
            @obsResponseAction_status o.status (exactAck parse o.response record) _ rfl
          rcases hgone with hsame | hack | hexpired | ⟨hquarantine, hmoved⟩
          · exact Or.inl hsame
          · exact Or.inr (.acknowledged (hstatus hack).1 (exactAck_acknowledges (hstatus hack).2))
          · exact Or.inr (.expired (hstatus' hexpired))
          · exact Or.inr (.quarantined (hstatus'' hquarantine) hmoved)

theorem holding_run {es : List SpoolEvent}
    (hrun : (spool esp owner digest parse (attentive spoolDir)).Run es s) : Holding s :=
  hrun.invariant (I := fun _ s => Holding s)
    (fun _ (h : _ ∧ _) _ _ hupload => absurd (h.2.symm.trans hupload) (by simp))
    fun _ _ _ _ hholding hstep _ => (spool_step hholding hstep).1

theorem SpoolStep.attended (h : SpoolStep esp owner digest parse (attentive spoolDir) s e s') :
    SpoolStep esp owner digest parse serves s e s' := by
  cases h with
  | captureDenied hvalid => exact .captureDenied hvalid
  | capture hbytes hdigest hvalid hscan hrest =>
      exact .capture hbytes hdigest hvalid (hscan.weaken fun _ _ _ _ hop => hop.1) hrest
  | claimDenied hnone hvalid => exact .claimDenied hnone hvalid
  | claim hnone hvalid hscan hrest =>
      exact .claim hnone hvalid (hscan.weaken fun _ _ _ _ hop => hop.1) hrest
  | corrupt hupload hdigest hsection => exact .corrupt hupload hdigest hsection
  | finish hupload hdigest hsection => exact .finish hupload hdigest hsection

theorem attended_run {es : List SpoolEvent}
    (hrun : (spool esp owner digest parse (attentive spoolDir)).Run es s) :
    (spool esp owner digest parse serves).Run es s := by
  induction hrun with
  | init hinit => exact .init hinit
  | step _ hstep _ ih => exact ih.step (SpoolStep.attended hstep) trivial

end

/-- **In any run whose scans of the spool are answered attentively, whatever else fails: an upload
holds what is on the card; a capture leaves the record that is claimed; a record leaves by an exact
acknowledgement, a 410, the quarantine, a payload that has not its digest, its age, or as the oldest
for room; and after every put that succeeds the spool is within its limits.** -/
theorem spool_safe (esp : Bool) (owner : OwnerIdentity) (digest : Bytes → Bytes)
    (parse : Bytes → Option (Bytes → Option JsonItem)) {es : List SpoolEvent} {s : SpoolTasks}
    (hrun : (spool esp owner digest parse (attentive spoolDir)).Run es s) :
    (spool esp owner digest parse serves).Run es s ∧ Holding s ∧
    ∀ {e : SpoolEvent} {s' : SpoolTasks},
      SpoolStep esp owner digest parse (attentive spoolDir) s e s' → Spared digest parse s e s' :=
  ⟨attended_run hrun, holding_run hrun, fun hstep => (spool_step (holding_run hrun) hstep).2⟩

namespace Bench

def frame : ObsRecord :=
  { id := chars "abcdefab-cdef-4abc-9def-abcdefabcdef"
    sha256 := List.replicate 64 102
    capturedAt := 1700000000
    bytes := 2 }

def image : Bytes := [255, 216]

def frameFile : Bytes := (headerBytes frame).getD [] ++ image

theorem frame_header : headerBytes frame = some ((headerBytes frame).getD []) := by
  have hsome : (headerBytes frame).isSome = true := by decide +kernel
  obtain ⟨raw, hraw⟩ := Option.isSome_iff_exists.mp hsome
  rw [hraw, Option.getD_some]

theorem frame_record : recordOf frameFile = some frame := by decide +kernel

def finalPath : Path := obsPath spoolDir frame.id

def mark : Bytes := (expectedMarker (some owner)).getD []

def bound : Disk := blank.set (markerPath sdcard) (.file mark mark.length)

theorem child_ne_marker {name : Bytes} : Path.child spoolDir name ≠ markerPath sdcard := by
  intro heq
  have htake := congrArg (List.take 27) heq
  rw [Path.child, ← List.singleton_append, ← List.append_assoc,
    List.take_append_of_le_length (by decide)] at htake
  exact absurd htake (by decide)

theorem bound_absent {name : Bytes} : bound (Path.child spoolDir name) = none := by
  rw [bound, set_of_ne _ _ child_ne_marker, blank]

def stocked : Disk := bound.set finalPath (.file frameFile frameFile.length)

theorem mark_expected : expectedMarker (some owner) = some mark := by
  have hsome : (expectedMarker (some owner)).isSome = true := by decide +kernel
  obtain ⟨m, hm⟩ := Option.isSome_iff_exists.mp hsome
  rw [mark, hm, Option.getD_some]

theorem bound_valid {d : Disk} (hfile : d (markerPath sdcard) = some (.file mark mark.length)) :
    Exec serves d (ownerValid true owner) d (some true) :=
  (read_bound mark_expected hfile).andThen .ret

theorem frame_uuid : obsUuidValid frame.id = true := by decide

theorem frame_path : recordPath spoolDir frame.id obsSuffix = some finalPath := by decide

theorem stocked_record : recordAt stocked spoolDir frame.id = some frame := by
  have hcontent : stocked.content (obsPath spoolDir frame.id) = some frameFile := by
    simp [Disk.content, stocked, finalPath]
  rw [recordAt_of_content frame_uuid hcontent, frame_record]
  simp [Option.filter]

theorem scan_unopened : Exec serves stocked (obsSpoolScan 1 spoolDir 1700000000 none 0)
    (stocked.erase finalPath) (some ⟨true, ⟨none, 0, 0, 0, 1⟩⟩) := by
  have hthere : (stocked finalPath).isSome = true := by simp [stocked]
  have hentry : Exec serves stocked
      (scanEntry spoolDir 1700000000 none (frame.id ++ obsSuffix) ⟨none, 0, 0, 0, 0⟩)
      (stocked.erase finalPath) (some (some ⟨none, 0, 0, 0, 1⟩)) := by
    unfold scanEntry
    dsimp only
    rw [take_name frame_uuid, drop_name _ frame_uuid, if_neg (by decide), frame_path]
    dsimp only
    rw [if_neg (by decide), if_neg (by decide)]
    have hunopened : Exec serves stocked (openRecord finalPath frame.id) stocked (some none) := by
      refine (Exec.ask (r := Outcome.failed) ⟨rfl, by simp, by simp⟩).andThen ?_
      exact .ret
    refine hunopened.andThen ?_
    refine (Exec.ask (r := Outcome.done) ⟨fun _ => ⟨hthere, rfl⟩, by simp, by simp⟩).andThen ?_
    exact .ret
  have hentries : Exec serves stocked
      (scanEntries spoolDir 1700000000 none [frame.id ++ obsSuffix] ⟨none, 0, 0, 0, 0⟩)
      (stocked.erase finalPath) (some (some ⟨none, 0, 0, 0, 1⟩)) := by
    rw [scanEntries]
    exact hentry.andThen .ret
  have hlists : stocked.Lists spoolDir (.names [frame.id ++ obsSuffix] false) := by
    refine ⟨by simp, ?_, by simp⟩
    intro n hn _
    obtain rfl := List.mem_singleton.mp hn
    exact ⟨⟨by decide, by decide⟩, hthere⟩
  unfold obsSpoolScan scanLimits
  dsimp only
  rw [if_neg (by decide)]
  refine (Exec.ask (r := Listing.names [frame.id ++ obsSuffix] false) ⟨rfl, hlists⟩).andThen ?_
  refine hentries.andThen ?_
  exact .ret

theorem claim_unopened : SpoolStep true owner (fun _ => frame.sha256) (fun _ => none) serves
    ⟨stocked, [], none⟩ (.claim 1700000000 none) ⟨stocked.erase finalPath, [], none⟩ := by
  have hmarked : stocked (markerPath sdcard) = some (.file mark mark.length) := by
    have hne : markerPath sdcard ≠ finalPath := child_ne_marker.symm
    rw [stocked, set_of_ne _ _ hne, bound, set_self]
  have hrest : Exec serves (stocked.erase finalPath)
      (claimRest 1 1700000000 [] ⟨true, ⟨none, 0, 0, 0, 1⟩⟩) (stocked.erase finalPath)
      (some ([], none)) := by
    have hquarantine : Exec serves (stocked.erase finalPath)
        (obsQuarantineScan 1 quarantineDir 1700000000) (stocked.erase finalPath)
        (some ⟨false, ⟨none, 0, 0, 0, 0⟩⟩) := by
      unfold obsQuarantineScan scanLimits
      dsimp only
      rw [if_neg (by decide)]
      refine (Exec.ask (r := Listing.failed) ⟨rfl, trivial⟩).andThen ?_
      exact .ret
    refine hquarantine.andThen ?_
    exact .ret
  exact SpoolStep.claim (s := ⟨stocked, [], none⟩) rfl (bound_valid hmarked) scan_unopened hrest

theorem stocked_roomy {records : List ObsRecord} {d : Disk} (hshrunk : Shrunk spoolDir stocked d)
    (hstock : Stock d spoolDir records) : (spoolLimits 0).fit records = true := by
  have hone : ∀ r ∈ records, r = frame := by
    intro r hr
    have hthere := hshrunk.record (hstock.there r hr)
    have hpath : obsPath spoolDir r.id = finalPath := by
      by_contra hne
      have hsome := recordAt_present hthere
      rw [stocked, set_of_ne _ _ hne, obsPath, bound_absent] at hsome
      exact absurd hsome (by simp)
    rw [obsPath_inj hpath, stocked_record] at hthere
    exact (Option.some.inj hthere).symm
  have hids := hstock.ids
  obtain _ | ⟨r, _ | ⟨r', rest⟩⟩ := records
  · decide
  · obtain rfl := hone r (by simp)
    decide
  · obtain rfl := hone r (by simp)
    obtain rfl := hone r' (by simp)
    simp at hids

theorem scan_vacant : Exec (attentive spoolDir) bound
    (obsSpoolScan 1 spoolDir frame.capturedAt (some []) frame.bytes) bound
    (some ⟨true, ⟨none, 0, 0, 0, 0⟩⟩) := by
  have hlists : bound.Lists spoolDir (.names [] false) := ⟨by simp, by simp, by simp⟩
  have hattentive : Attentive spoolDir bound (.list spoolDir) (.names [] false) := by
    intro _ names whole _ id hsome
    rw [recordAt_absent bound_absent] at hsome
    exact absurd hsome (by simp)
  unfold obsSpoolScan scanLimits
  dsimp only
  rw [if_neg (by decide)]
  refine (Exec.ask (r := Listing.names [] false) ⟨⟨rfl, hlists⟩, hattentive⟩).andThen ?_
  exact Exec.andThen (f := fun _ => _) .ret .ret

theorem put_frame : Exec serves bound (obsSpoolPut spoolDir frame image) stocked (some true) :=
  put_exec ⟨frame_uuid, by decide, by decide, by decide, by decide⟩ (show 26 + 43 < 256 by omega) frame_header
    bound_absent bound_absent

theorem capture_frame : SpoolStep true owner (fun _ => frame.sha256) (fun _ => none)
    (attentive spoolDir) ⟨bound, [], none⟩ (.capture frame true) ⟨stocked, [], none⟩ := by
  have hmarked : bound (markerPath sdcard) = some (.file mark mark.length) := set_self _ _ _
  have hrest : Exec serves bound (captureRest frame image ⟨true, ⟨none, 0, 0, 0, 0⟩⟩) stocked
      (some true) := by
    rw [captureRest, if_pos rfl]
    exact put_frame
  exact SpoolStep.capture (s := ⟨bound, [], none⟩) (by decide) rfl (bound_valid hmarked) scan_vacant hrest

end Bench

/-- A capture stores its record, and the spool has room. -/
theorem spool_safe_bench : recordAt Bench.stocked spoolDir Bench.frame.id = some Bench.frame ∧
    ∃ records, Stock Bench.stocked spoolDir records ∧ records.length ≤ obsSpoolCount ∧
      spoolBytes records ≤ obsSpoolBytes :=
  ⟨Bench.stocked_record, (spool_safe true Bench.owner (fun _ => Bench.frame.sha256) (fun _ => none)
    (.init ⟨rfl, rfl⟩)).2.2 Bench.capture_frame |>.bounded _ rfl⟩

/-- **A record that a scan fails to open is removed**: it is gone, and for none of the reasons. -/
theorem unreadable_lost :
    (spool true Bench.owner (fun _ => Bench.frame.sha256) (fun _ => none) serves).Run []
      ⟨Bench.stocked, [], none⟩ ∧
    SpoolStep true Bench.owner (fun _ => Bench.frame.sha256) (fun _ => none) serves
      ⟨Bench.stocked, [], none⟩ (.claim 1700000000 none)
      ⟨Bench.stocked.erase Bench.finalPath, [], none⟩ ∧
    recordAt Bench.stocked spoolDir Bench.frame.id = some Bench.frame ∧
    recordAt (Bench.stocked.erase Bench.finalPath) spoolDir Bench.frame.id = none ∧
    ¬ Leaves (fun _ => Bench.frame.sha256) (fun _ => none) ⟨Bench.stocked, [], none⟩
      ⟨Bench.stocked.erase Bench.finalPath, [], none⟩ Bench.frame (.claim 1700000000 none) := by
  refine ⟨.init ⟨rfl, rfl⟩, Bench.claim_unopened, Bench.stocked_record, ?_, ?_⟩
  · exact recordAt_absent (erase_self _ _)
  · intro h
    cases h with
    | claim htaken =>
        rcases htaken with haged | hevicted
        · exact absurd haged.2 (by decide)
        · obtain ⟨d, records, hshrunk, hstock, -, hfull, -⟩ := hevicted.full
          rw [Bench.stocked_roomy hshrunk hstock] at hfull
          exact absurd hfull (by simp)

end Albusforge.Camera
