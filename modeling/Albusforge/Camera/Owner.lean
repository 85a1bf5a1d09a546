import Albusforge.Camera.Marker

/-!
# Who owns a card

`obs_owner_check` and `obs_owner_write_probe` of
`src/firmware/esp32s3-camera/main/observation_owner.c`, call by call, and what each may have done
to a card whenever it ends or is cut off: **a check creates a marker where there was none and
nothing of anybody's, or changes nothing** (`check_wp`), and a probe leaves everything as it was
(`writeProbe_wp`).

`esp` is `ESP_PLATFORM`, where a file's sync takes its directory entry with it.
-/

namespace Albusforge.Camera

open Lib

/-- `obs_owner_status` -/
inductive OwnerStatus
  | ok
  | unbound
  | mismatch
  | corrupt
  | io
  deriving DecidableEq

/-- `OBS_OWNER_MARKER` -/
def ownerMarker : Bytes := chars "albus-observation-owner"

/-- `OBS_OWNER_SPOOL` -/
def ownerSpool : Bytes := chars "albus-observations"

/-- `OBS_OWNER_QUARANTINE` -/
def ownerQuarantine : Bytes := chars "albus-quarantine"

/-- `path`, in a buffer of 512 bytes. -/
def ownerPath (root : CString) (name : Bytes) : Option Path :=
  let out := Path.child root.bytes name
  if out.length < 512 then some out else none

def empty (root : CString) (name : Bytes) : DiskProc OwnerStatus :=
  match ownerPath root name with
  | none => return .io
  | some full => do
      match ← Posix.list full with
      | .absent => return .ok
      | .failed => return .io
      | .names names whole =>
          let result : OwnerStatus :=
            if names.any fun n => !isDot n then .unbound else if !whole then .io else .ok
          if ← Posix.close then return result else return .io

def bothEmpty (root : CString) : DiskProc OwnerStatus := do
  let status ← empty root ownerSpool
  if status = .ok then empty root ownerQuarantine else return status

/-- What `obs_owner_check` does with a marker that it has opened. -/
def readMarker (marker : Path) (expected : Bytes) : DiskProc OwnerStatus := do
  if (← Posix.stat marker) ≠ some ⟨true, ownerSize⟩ then
    let _ ← Posix.close
    return .corrupt
  if !(← Posix.stream) then
    let _ ← Posix.close
    return .io
  let actual ← Posix.read marker 0 ownerSize
  let rest ← Posix.read marker ownerSize 1
  let closed ← Posix.close
  match actual with
  | none => return .io
  | some actual =>
      if actual.length ≠ ownerSize ∨ rest ≠ some [] ∨ closed = false then return .io
      else if !wellFormed actual then return .corrupt
      else return if actual = expected then .ok else .mismatch

def publish (esp : Bool) (root marker : Path) (expected : Bytes) : DiskProc Bool := do
  if !(← Posix.openNew marker) then return false
  if !(← Posix.stream) then
    let _ ← Posix.close
    return false
  let written ← Posix.andThen (Posix.write marker expected) (Posix.sync marker)
  let closed ← Posix.close
  if !(written && closed) then return false
  if esp then return true
  -- a directory is synced where it can be opened
  if (← Posix.openRead root) ≠ .done then return false
  let synced ← Posix.syncDirectory root
  let closed ← Posix.close
  return synced && closed

/-- `obs_owner_check`, up to what it does where there is no marker. -/
def checkWith (root : Option CString) (identity : Option OwnerIdentity)
    (unmarked : CString → Path → Bytes → DiskProc OwnerStatus) : DiskProc OwnerStatus :=
  match root, expectedMarker identity, root.bind fun r => ownerPath r ownerMarker with
  | some root, some expected, some marker => do
      match ← Posix.openRead marker with
      | .done => readMarker marker expected
      | .failed => return .io
      | .absent => unmarked root marker expected
  | _, _, _ => return .io

def obsOwnerCheck (esp : Bool) (root : Option CString) (identity : Option OwnerIdentity)
    (initializing : Bool) : DiskProc OwnerStatus :=
  let readOnly := checkWith root identity fun _ _ _ => return .unbound
  if !initializing then readOnly
  else checkWith root identity fun root marker expected => do
    let status ← bothEmpty root
    if status ≠ .ok then return status
    if ← publish esp root.bytes marker expected then readOnly else return .io

/-- `obs_owner_write_probe`, once the card is known to be the identity's. -/
def writeProbe (root : Option CString) : DiskProc Bool :=
  match root.bind fun r => ownerPath r (ownerSpool ++ chars "/.write-check") with
  | none => return false
  | some probe => do
      if !(← Posix.openNew probe) then return false
      if !(← Posix.stream) then
        let _ ← Posix.close
        return false
      let written ← Posix.andThen (Posix.write probe (chars "1")) (Posix.sync probe)
      let closed ← Posix.close
      let removed ← Posix.unlink probe
      return written && closed && removed = .done

/-- What `obs_owner_write_probe` does when it has the card's status. -/
def probeAfter (root : Option CString) (status : OwnerStatus) : DiskProc Bool :=
  if status ≠ .ok then return false else writeProbe root

def obsOwnerWriteProbe (esp : Bool) (root : Option CString) (identity : Option OwnerIdentity) :
    DiskProc Bool := do
  probeAfter root (← obsOwnerCheck esp root identity false)

/-! ## What the calls do to a card -/

open Disk Proc

section

variable {esp : Bool} {root : CString} {identity : Option OwnerIdentity} {expected : Bytes}
  {marker : Path} {d : Disk}

def markerPath (root : CString) : Path := Path.child root.bytes ownerMarker

theorem ownerPath_eq {name : Bytes} {p : Path} (h : ownerPath root name = some p) :
    p = Path.child root.bytes name := by
  simp only [ownerPath] at h
  split at h
  · exact (Option.some.inj h).symm
  · exact absurd h (by simp)

def Vacant (d : Disk) (p : Path) : Prop :=
  d p = none ∨ ∀ n, IsName n → isDot n = false → d (Path.child p n) = none

def Preserves (d d' : Disk) : Prop := ∀ p n, d p = some n → d' p = some n

def Published (marker : Path) (expected : Bytes) (d d' : Disk) : Prop :=
  d' = d ∨ d marker = none ∧ ∃ c k, c <+: expected ∧ d' = d.set marker (.file c k)

theorem readMarker_wp : wp serves (readMarker marker expected)
    (fun status d' => d' = d ∧ (status = .ok → d.content marker = some expected))
    (fun d' => d' = d) d := by
  unfold readMarker
  refine wp_bind (wp_stat rfl ?_)
  intro st _
  split
  · refine wp_bind (wp_close rfl ?_)
    intro _
    exact ⟨⟨rfl, by simp⟩, rfl⟩
  refine wp_bind (wp_stream rfl ?_)
  intro streamed
  split
  · refine wp_bind (wp_close rfl ?_)
    intro _
    exact ⟨⟨rfl, by simp⟩, rfl⟩
  refine wp_bind (wp_read rfl ?_)
  intro actual hactual
  refine wp_bind (wp_read rfl ?_)
  intro rest hrest
  refine wp_bind (wp_close rfl ?_)
  intro closed
  cases actual with
  | none => exact ⟨⟨rfl, by simp⟩, rfl⟩
  | some actual =>
      dsimp only
      split
      · exact ⟨⟨rfl, by simp⟩, rfl⟩
      · rename_i hread
        split
        · exact ⟨⟨rfl, by simp⟩, rfl⟩
        refine ⟨⟨rfl, ?_⟩, rfl⟩
        intro hok
        have heq : actual = expected := by
          by_contra hne
          rw [if_neg hne] at hok
          exact absurd hok (by simp)
        -- all of the file was read, and nothing came after it
        simp only [not_or, not_not] at hread
        obtain ⟨hlength, hend, -⟩ := hread
        obtain ⟨c, hc, hactual⟩ := hactual actual rfl
        obtain ⟨c', hc', hrest⟩ := hrest [] hend
        obtain rfl : c = c' := Option.some.inj (hc.symm.trans hc')
        have hshort : c.length ≤ ownerSize := by
          have hnil := congrArg List.length hrest
          simp only [List.length_nil, List.length_take, List.length_drop] at hnil
          omega
        rw [hc, ← heq, hactual, List.drop_zero, List.take_of_length_le hshort]

theorem empty_wp {name : Bytes} : wp serves (empty root name)
    (fun status d' => d' = d ∧ (status = .ok → Vacant d (Path.child root.bytes name)))
    (fun d' => d' = d) d := by
  unfold empty
  split
  · exact ⟨⟨rfl, by simp⟩, rfl⟩
  rename_i full hfull
  obtain rfl := ownerPath_eq hfull
  refine wp_bind (wp_list rfl ?_)
  intro listing hlists
  cases listing with
  | absent => exact ⟨⟨rfl, fun _ => Or.inl hlists⟩, rfl⟩
  | failed => exact ⟨⟨rfl, by simp⟩, rfl⟩
  | names names whole =>
      obtain ⟨-, -, hall⟩ := hlists
      refine wp_bind (wp_close rfl ?_)
      intro closed
      split
      · refine ⟨⟨rfl, ?_⟩, rfl⟩
        intro hok
        split at hok
        · exact absurd hok (by simp)
        · rename_i hdots
          split at hok
          · exact absurd hok (by simp)
          · rename_i hwhole
            refine Or.inr ?_
            intro n hname hdot
            by_contra hsome
            refine hdots (List.any_eq_true.mpr ⟨n, ?_, by simp [hdot]⟩)
            exact hall (by simpa using hwhole) n hname (Option.isSome_iff_ne_none.mpr hsome)
      · exact ⟨⟨rfl, by simp⟩, rfl⟩

theorem bothEmpty_wp : wp serves (bothEmpty root)
    (fun status d' => d' = d ∧ (status = .ok → Vacant d (Path.child root.bytes ownerSpool) ∧
      Vacant d (Path.child root.bytes ownerQuarantine))) (fun d' => d' = d) d := by
  refine wp_bind (wp_mono ?_ (fun _ h => h) empty_wp)
  intro status d' h
  obtain ⟨rfl, hspool⟩ := h
  split
  · rename_i hok
    refine wp_mono ?_ (fun _ h => h) empty_wp
    intro status d'' h
    exact ⟨h.1, fun hs => ⟨hspool hok, h.2 hs⟩⟩
  · rename_i hno
    exact ⟨⟨rfl, fun hs => absurd hs hno⟩, rfl⟩

theorem publish_wp {rootPath : Path} : wp serves (publish esp rootPath marker expected)
    (fun _ d' => Published marker expected d d') (Published marker expected d) d := by
  have hsame : Published marker expected d d := Or.inl rfl
  unfold publish
  refine wp_bind (wp_openNew hsame ?_ ?_)
  · exact ⟨hsame, hsame⟩
  intro hnone
  have hmade : ∀ c k, c <+: expected → Published marker expected d (d.set marker (.file c k)) :=
    fun c k hc => Or.inr ⟨hnone, c, k, hc, rfl⟩
  have hempty := hmade [] 0 List.nil_prefix
  refine ⟨?_, hempty⟩
  intro created
  split
  · exact ⟨hempty, hempty⟩
  refine wp_bind (wp_stream hempty ?_)
  intro streamed
  split
  · refine wp_bind (wp_close hempty ?_)
    intro _
    exact ⟨hempty, hempty⟩
  refine wp_bind (wp_mono ?_ (fun _ h => h) (wp_written hmade))
  intro written d' hwritten
  obtain ⟨⟨c, k, hc, rfl⟩, -⟩ := hwritten
  have hnow := hmade c k hc
  refine wp_bind (wp_close hnow ?_)
  intro closed
  split
  · exact ⟨hnow, hnow⟩
  split
  · exact ⟨hnow, hnow⟩
  refine wp_bind (wp_openRead hnow ?_)
  intro opened _ _
  split
  · exact ⟨hnow, hnow⟩
  refine wp_bind (wp_syncDirectory hnow ?_)
  intro synced
  refine wp_bind (wp_close hnow ?_)
  intro _
  exact ⟨hnow, hnow⟩

def Bound (root : CString) (identity : Option OwnerIdentity) (d : Disk) : Prop :=
  ∃ m, expectedMarker identity = some m ∧ d.content (markerPath root) = some m

theorem checkWith_wp {unmarked : CString → Path → Bytes → DiskProc OwnerStatus}
    {Q : OwnerStatus → Disk → Prop} {C : Disk → Prop} (hstart : C d)
    (hC : ∀ d', d' = d → C d') (hsame : ∀ status, (status = .ok → Bound root identity d) → Q status d)
    (hunmarked : ∀ m, expectedMarker identity = some m → ownerPath root ownerMarker = some (markerPath root) →
      d (markerPath root) = none → wp serves (unmarked root (markerPath root) m) Q C d) :
    wp serves (checkWith (some root) identity unmarked) Q C d := by
  unfold checkWith
  split
  · rename_i _ _ _ root' m marker hroot hm hmarker
    obtain rfl := Option.some.inj hroot
    have hpath : marker = markerPath root := ownerPath_eq hmarker
    subst hpath
    refine wp_bind (wp_openRead hstart ?_)
    intro opened _ habsent
    cases opened with
    | done =>
        refine wp_mono ?_ hC readMarker_wp
        intro status d' hread
        obtain ⟨rfl, hok⟩ := hread
        exact hsame status fun h => ⟨m, hm, hok h⟩
    | failed => exact ⟨hsame _ (by simp), hstart⟩
    | absent => exact hunmarked m hm hmarker (habsent rfl)
  · exact ⟨hsame _ (by simp), hstart⟩

theorem check_reads : wp serves (obsOwnerCheck esp (some root) identity false)
    (fun status d' => d' = d ∧ (status = .ok → Bound root identity d)) (fun d' => d' = d) d := by
  refine checkWith_wp rfl (fun _ h => h) (fun _ h => ⟨rfl, h⟩) ?_
  intro m _ _ _
  exact ⟨⟨rfl, by simp⟩, rfl⟩

def Checked (root : CString) (identity : Option OwnerIdentity) (d d' : Disk) : Prop :=
  d' = d ∨ ∃ m, expectedMarker identity = some m ∧ d (markerPath root) = none ∧
    Vacant d (Path.child root.bytes ownerSpool) ∧ Vacant d (Path.child root.bytes ownerQuarantine) ∧
    ∃ c k, c <+: m ∧ d' = d.set (markerPath root) (.file c k)

/-- **A check binds a card that has no marker and no entries, or leaves it as it is.** -/
theorem check_wp {initializing : Bool} : wp serves (obsOwnerCheck esp (some root) identity initializing)
    (fun status d' => Checked root identity d d' ∧ (status = .ok → Bound root identity d'))
    (Checked root identity d) d := by
  have hsame : Checked root identity d d := Or.inl rfl
  cases initializing with
  | false =>
      refine wp_mono ?_ ?_ check_reads
      · intro status d' h
        obtain ⟨rfl, hok⟩ := h
        exact ⟨hsame, hok⟩
      · intro d' h
        exact Or.inl h
  | true =>
      refine checkWith_wp hsame (fun _ h => Or.inl h) (fun _ h => ⟨hsame, h⟩) ?_
      intro m hm hpath hnone
      have hleft : ∀ d', d' = d → Checked root identity d d' := fun _ h => Or.inl h
      refine wp_bind (wp_mono ?_ hleft bothEmpty_wp)
      intro status d'' hstatus
      obtain ⟨rfl, hvacant⟩ := hstatus
      split
      · rename_i hno
        exact ⟨⟨hsame, fun h => absurd h hno⟩, hsame⟩
      rename_i hok
      obtain ⟨hs, hq⟩ := hvacant (not_not.mp hok)
      have hchecked : ∀ d', Published (markerPath root) m d'' d' → Checked root identity d'' d' := by
        intro d' hd
        rcases hd with rfl | ⟨_, c, k, hc, rfl⟩
        · exact hsame
        · exact Or.inr ⟨m, hm, hnone, hs, hq, c, k, hc, rfl⟩
      refine wp_bind (wp_mono ?_ hchecked publish_wp)
      intro published d' hd
      split
      · refine wp_mono ?_ ?_ (@check_reads esp root identity d')
        · intro status d₁ h
          obtain ⟨rfl, hbound⟩ := h
          exact ⟨hchecked _ hd, hbound⟩
        · intro d₁ h
          subst h
          exact hchecked _ hd
      · exact ⟨⟨hchecked _ hd, by simp⟩, hchecked _ hd⟩

theorem Checked.preserves {d' : Disk} (h : Checked root identity d d') : Preserves d d' := by
  intro p n hp
  rcases h with rfl | ⟨_, _, hnone, _, _, _, _, _, rfl⟩
  · exact hp
  · rw [set_of_ne]
    · exact hp
    · intro heq
      subst heq
      exact absurd (hnone.symm.trans hp) (by simp)

theorem writeProbe_wp {root : Option CString} :
    wp serves (writeProbe root) (fun _ d' => Preserves d d') (Preserves d) d := by
  have hsame : Preserves d d := fun _ _ h => h
  unfold writeProbe
  split
  · exact ⟨hsame, hsame⟩
  rename_i probe _
  refine wp_bind (wp_openNew hsame ⟨hsame, hsame⟩ ?_)
  intro hnone
  have hmade : ∀ c k, Preserves d (d.set probe (.file c k)) := by
    intro c k p n hp
    rw [set_of_ne]
    · exact hp
    · intro heq
      subst heq
      exact absurd (hnone.symm.trans hp) (by simp)
  have hgone : ∀ c k, Preserves d ((d.set probe (.file c k)).erase probe) := by
    intro c k p n hp
    rw [erase_of_ne]
    · exact hmade c k p n hp
    · intro heq
      subst heq
      exact absurd (hnone.symm.trans hp) (by simp)
  refine ⟨?_, hmade _ _⟩
  intro created
  split
  · exact ⟨hmade _ _, hmade _ _⟩
  refine wp_bind (wp_stream (hmade _ _) ?_)
  intro streamed
  split
  · refine wp_bind (wp_close (hmade _ _) ?_)
    intro _
    exact ⟨hmade _ _, hmade _ _⟩
  refine wp_bind (wp_mono ?_ (fun _ h => h) (wp_written fun c k _ => hmade c k))
  intro written d' hwritten
  obtain ⟨⟨c, k, _, rfl⟩, -⟩ := hwritten
  refine wp_bind (wp_close (hmade c k) ?_)
  intro closed
  refine wp_bind (wp_unlink (hmade c k) ⟨hgone c k, ?_⟩ ?_)
  · intro r _
    exact ⟨hgone c k, hgone c k⟩
  · intro r _ _
    exact ⟨hmade c k, hmade c k⟩

theorem probeAfter_wp {status : OwnerStatus} : wp serves (probeAfter (some root) status)
    (fun _ d' => Preserves d d' ∧ (status ≠ .ok → d' = d))
    (fun d' => Preserves d d' ∧ (status ≠ .ok → d' = d)) d := by
  unfold probeAfter
  split
  · exact ⟨⟨fun _ _ h => h, fun _ => rfl⟩, fun _ _ h => h, fun _ => rfl⟩
  · rename_i hok
    have hleft : ∀ d', Preserves d d' → Preserves d d' ∧ (status ≠ .ok → d' = d) :=
      fun d' h => ⟨h, fun hno => absurd hno hok⟩
    exact wp_mono (fun _ d' h => hleft d' h) hleft writeProbe_wp

end

end Albusforge.Camera
