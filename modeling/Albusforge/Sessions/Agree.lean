import Albusforge.Sessions.Gates

/-!
# Which gates agree

A session stands while it and all of its ancestors do (`FamilyLive`). The three gates of a request's
identity let exactly those sessions through (`withSession_ok`, `withAuthorizedRead_ok`,
`withAuthorizedWrite_ok`). `sessionTenantIn` looks at the session alone, and it and `switchTenant` get the
first of several cookies: **all gates agree unless one of these two is let decide** (`gates_agree_iff`).
-/

namespace Albusforge.Sessions

open Lib Relation

/-! ## What a session's standing is -/

section

variable (hash : Text → Text) (db : Accounts) (cookie : Option Text) (host : Text) (now : ℤ)

def SessionRow.Live (s : SessionRow) : Prop := s.revokedAt = none ∧ now < s.expiresAt

def Ancestor : SessionRow → SessionRow → Prop := ReflTransGen (Recursive.Leads (parents db))

def FamilyLive (s : SessionRow) : Prop := ∀ a, Ancestor db s a → a.Live now ∧ a.userId = s.userId

def IsSession (token : Text) (s : SessionRow) : Prop := s ∈ db.sessions.rows ∧ s.tokenHash = hash token

def IsTenant (s : SessionRow) (t : Tenant) : Prop :=
  t ∈ db.tenants.rows ∧
    ((tenantSlug host = .ok none ∧ t.id = s.activeTenantId) ∨
      ∃ slug, tenantSlug host = .ok (some slug) ∧ t.slug = some slug)

def Granted (i : Identity) : Prop :=
  ∃ token s t, sessionToken cookie = some token ∧ IsSession hash db token s ∧ FamilyLive db now s ∧
    IsTenant db host s t ∧ (roleOf db t.id s.userId).isSome = true ∧ i = ⟨t.id, s.userId⟩

def SameTree (s r : SessionRow) : Prop :=
  ∃ root, root.parentSessionId = none ∧ Ancestor db s root ∧ Ancestor db r root

end

/-! ## Looking sessions up -/

theorem filter_unique {α : Type} {l : List α} {p : α → Bool} {a : α} (hnodup : l.Nodup) (ha : a ∈ l)
    (hp : p a = true) (hone : ∀ b ∈ l, p b = true → b = a) : l.filter p = [a] := by
  have hmem : ∀ b ∈ l.filter p, b = a := by
    intro b hb
    exact hone b (List.mem_filter.mp hb).1 (List.mem_filter.mp hb).2
  have hall := List.eq_replicate_of_mem hmem
  have hlength : (l.filter p).length ≤ 1 := by
    have hrep := hnodup.filter p
    rw [hall] at hrep
    exact List.nodup_replicate.mp hrep
  have hpos := List.length_pos_of_mem (List.mem_filter.mpr ⟨ha, hp⟩)
  rw [hall, Nat.le_antisymm hlength hpos]
  rfl

theorem rows_nodup (db : Accounts) : db.sessions.rows.Nodup := db.sessions.nodup.of_map _

theorem row_unique {db : Accounts} {s r : SessionRow} (hs : s ∈ db.sessions.rows) (hr : r ∈ db.sessions.rows)
    (h : r.id = s.id) : r = s := List.inj_on_of_nodup_map db.sessions.nodup hr hs h

theorem byId {db : Accounts} {s : SessionRow} (hs : s ∈ db.sessions.rows) :
    (db.sessions.rows.filter fun r => r.id = s.id) = [s] :=
  filter_unique (rows_nodup db) hs (by simp) fun _ hr h => row_unique hs hr (by simpa using h)

theorem byToken_cases (db : Directory) (h : Text) :
    (byToken db.toAccounts h = [] ∧ ∀ s ∈ db.sessions.rows, s.tokenHash ≠ h) ∨
      ∃ s ∈ db.sessions.rows, s.tokenHash = h ∧ byToken db.toAccounts h = [s] := by
  by_cases hs : ∃ s ∈ db.sessions.rows, s.tokenHash = h
  · obtain ⟨s, hs, hhash⟩ := hs
    refine Or.inr ⟨s, hs, hhash, filter_unique (rows_nodup db.toAccounts) hs (by simpa using hhash) ?_⟩
    intro r hr hrhash
    exact db.tokens r hr s hs ((by simpa using hrhash : r.tokenHash = h).trans hhash.symm)
  · have hnone : ∀ s ∈ db.sessions.rows, s.tokenHash ≠ h := fun s hs' heq => hs ⟨s, hs', heq⟩
    refine Or.inl ⟨?_, hnone⟩
    rw [byToken, List.filter_eq_nil_iff]
    intro s hs'
    simpa using hnone s hs'

theorem mem_parents {db : Accounts} {f s : SessionRow} :
    s ∈ parents db f ↔ s ∈ db.sessions.rows ∧ f.parentSessionId = some s.id := by
  simp [parents]

theorem mem_family {db : Accounts} {s : SessionRow} (hs : s ∈ db.sessions.rows) (a : SessionRow) :
    a ∈ family db [s] ↔ Ancestor db s a := by
  rw [family, Recursive.mem_union db.sessions.rows]
  · simp [Ancestor]
  · intro r _ q hq
    exact (mem_parents.mp hq).1
  · intro r hr
    rw [List.mem_singleton.mp hr]
    exact hs

theorem ancestor_row {db : Accounts} {s a : SessionRow} (hs : s ∈ db.sessions.rows) (h : Ancestor db s a) :
    a ∈ db.sessions.rows := by
  induction h with
  | refl => exact hs
  | tail _ hstep _ => exact (mem_parents.mp hstep).1

theorem familyLive_iff {db : Accounts} {now : ℤ} {s : SessionRow} (hs : s ∈ db.sessions.rows) :
    FamilyLive db now s ↔ ∀ a ∈ family db [s], a.revokedAt = none ∧ now < a.expiresAt ∧ a.userId = s.userId := by
  refine ⟨?_, ?_⟩
  · intro h a ha
    obtain ⟨⟨hrevoked, hexpires⟩, huser⟩ := h a ((mem_family hs a).mp ha)
    exact ⟨hrevoked, hexpires, huser⟩
  · intro h a ha
    obtain ⟨hrevoked, hexpires, huser⟩ := h a ((mem_family hs a).mpr ha)
    exact ⟨⟨hrevoked, hexpires⟩, huser⟩

/-! ## The tenant -/

section

variable {hash : Text → Text} {db : Directory} {cookie : Option Text} {host : Text} {now : ℤ}

theorem tenantOf_ok {slug : Option Text} {active : Text} {t : Tenant} :
    tenantOf db.toAccounts slug active = some t ↔ t ∈ db.tenants.rows ∧
      ((slug = none ∧ t.id = active) ∨ (slug ≠ none ∧ t.slug = slug)) := by
  refine ⟨?_, ?_⟩
  · intro h
    exact ⟨List.mem_of_find?_eq_some h, by simpa using List.find?_some h⟩
  · intro ⟨ht, hcase⟩
    have hsome : (tenantOf db.toAccounts slug active).isSome = true := by
      rw [tenantOf, List.find?_isSome]
      exact ⟨t, ht, by simpa using hcase⟩
    obtain ⟨r, hr⟩ := Option.isSome_iff_exists.mp hsome
    have hrrow := List.mem_of_find?_eq_some hr
    have hrcase : (slug = none ∧ r.id = active) ∨ (slug ≠ none ∧ r.slug = slug) := by
      simpa using List.find?_some hr
    rw [hr, Option.some.injEq]
    rcases hcase with ⟨hnone, hid⟩ | ⟨hsome, hslug⟩
    · rcases hrcase with ⟨-, hrid⟩ | ⟨hrsome, -⟩
      · exact List.inj_on_of_nodup_map db.tenants.nodup hrrow ht (hrid.trans hid.symm)
      · exact absurd hnone hrsome
    · rcases hrcase with ⟨hrnone, -⟩ | ⟨-, hrslug⟩
      · exact absurd hrnone hsome
      · exact db.slugs r hrrow t ht (hrslug ▸ hsome) (hrslug.trans hslug.symm)

theorem tenantOf_host {s : SessionRow} {slug : Option Text} (hslug : tenantSlug host = .ok slug) {t : Tenant} :
    tenantOf db.toAccounts slug s.activeTenantId = some t ↔ IsTenant db.toAccounts host s t := by
  rw [tenantOf_ok, IsTenant, hslug]
  cases slug with
  | none => simp
  | some slug => simp

/-! ## The three gates of a request's identity -/

theorem sessionTokenHash_ok {h : Text} :
    sessionTokenHash hash cookie = .ok h ↔ ∃ token, sessionToken cookie = some token ∧ hash token = h := by
  simp [sessionTokenHash, present_ok]

theorem granted_iff {i : Identity} : Granted hash db.toAccounts cookie host now i ↔
    ∃ token s slug t, sessionToken cookie = some token ∧ tenantSlug host = .ok slug ∧
      IsSession hash db.toAccounts token s ∧ FamilyLive db.toAccounts now s ∧
      tenantOf db.toAccounts slug s.activeTenantId = some t ∧
      (roleOf db.toAccounts t.id s.userId).isSome = true ∧ i = ⟨t.id, s.userId⟩ := by
  refine ⟨?_, ?_⟩
  · intro ⟨token, s, t, htoken, hs, hlive, ht, hrole, hi⟩
    have hslug : ∃ slug, tenantSlug host = .ok slug := by
      rcases ht.2 with ⟨hnone, -⟩ | ⟨slug, hsome, -⟩
      · exact ⟨none, hnone⟩
      · exact ⟨some slug, hsome⟩
    obtain ⟨slug, hslug⟩ := hslug
    exact ⟨token, s, slug, t, htoken, hslug, hs, hlive, (tenantOf_host hslug).mpr ht, hrole, hi⟩
  · intro ⟨token, s, slug, t, htoken, hslug, hs, hlive, ht, hrole, hi⟩
    exact ⟨token, s, t, htoken, hs, hlive, (tenantOf_host hslug).mp ht, hrole, hi⟩

theorem find_byToken (hash : Text → Text) (db : Directory) (check : List SessionRow → List SessionRow → Bool)
    (hcheck : ∀ s ∈ db.sessions.rows,
      check [s] (family db.toAccounts [s]) = true ↔ FamilyLive db.toAccounts now s)
    (token : Text) (s : SessionRow) :
    ((byToken db.toAccounts (hash token)).find? fun _ =>
      check (byToken db.toAccounts (hash token)) (family db.toAccounts (byToken db.toAccounts (hash token)))) =
        some s ↔ IsSession hash db.toAccounts token s ∧ FamilyLive db.toAccounts now s := by
  rcases byToken_cases db (hash token) with ⟨hnil, hnone⟩ | ⟨r, hr, hhash, hone⟩
  · rw [hnil]
    refine ⟨fun h => absurd h (by simp), fun h => absurd h.1.2 (hnone s h.1.1)⟩
  · rw [hone]
    refine ⟨?_, ?_⟩
    · intro h
      obtain rfl : s = r := by simpa using List.mem_of_find?_eq_some h
      exact ⟨⟨hr, hhash⟩, (hcheck s hr).mp (by simpa using List.find?_some h)⟩
    · intro ⟨hs, hlive⟩
      obtain rfl := db.tokens s hs.1 r hr (hs.2.trans hhash.symm)
      simp [(hcheck s hr).mpr hlive]

theorem sessionCheck_iff {s : SessionRow} (hs : s ∈ db.sessions.rows) :
    sessionCheck now [s] (family db.toAccounts [s]) = true ↔ FamilyLive db.toAccounts now s := by
  rw [familyLive_iff hs, sessionCheck]
  simp only [Bool.and_eq_true, Bool.not_eq_true', List.any_eq_false, Bool.or_eq_true, List.any_cons,
    List.any_nil, Bool.or_false, decide_eq_true_eq, not_or, Option.isSome_iff_ne_none, not_le, not_not]
  refine ⟨fun h a ha => ⟨(h.1 a ha).1, (h.1 a ha).2, h.2 a ha⟩, fun h => ⟨fun a ha => ?_, fun a ha => ?_⟩⟩
  · exact ⟨(h a ha).1, (h a ha).2.1⟩
  · exact (h a ha).2.2

theorem readCheck_iff {s : SessionRow} (hs : s ∈ db.sessions.rows) :
    readCheck now [s] (family db.toAccounts [s]) = true ↔ FamilyLive db.toAccounts now s := by
  have hparents : ∀ a ∈ family db.toAccounts [s], ∀ p, a.parentSessionId = some p →
      ∃ r ∈ family db.toAccounts [s], r.id = p := by
    intro a ha p hp
    have hancestor := (mem_family hs a).mp ha
    obtain ⟨r, hr, rfl⟩ := db.session_parent a (ancestor_row hs hancestor) p hp
    exact ⟨r, (mem_family hs r).mpr (hancestor.tail (mem_parents.mpr ⟨hr, hp⟩)), rfl⟩
  rw [familyLive_iff hs, readCheck]
  simp only [Bool.not_eq_true', List.any_eq_false, Bool.or_eq_true, List.any_cons, List.any_nil, Bool.or_false,
    decide_eq_true_eq, not_or, Option.isSome_iff_ne_none, not_le, not_not]
  refine ⟨fun h a ha => ⟨(h a ha).1.1.1, (h a ha).1.1.2, (h a ha).1.2⟩, ?_⟩
  intro h a ha
  refine ⟨⟨⟨(h a ha).1, (h a ha).2.1⟩, (h a ha).2.2⟩, ?_⟩
  cases hp : a.parentSessionId with
  | none => simp
  | some p =>
      obtain ⟨r, hr, hid⟩ := hparents a ha p hp
      simp only [Option.any_some, Bool.not_eq_true', List.any_eq_false, decide_eq_true_eq]
      exact fun hnone => hnone r hr hid

theorem withSession_ok {i : Identity} :
    withSession hash db.toAccounts cookie host now = .ok i ↔ Granted hash db.toAccounts cookie host now i := by
  have hfind := find_byToken hash db (sessionCheck now) fun s hs => sessionCheck_iff hs
  rw [granted_iff]
  simp only [withSession, bind_ok, present_ok, require_ok, pure_ok, sessionTokenHash_ok]
  refine ⟨?_, ?_⟩
  · intro ⟨_, ⟨token, htoken, rfl⟩, slug, hslug, s, hs, t, ht, _, hrole, hi⟩
    obtain ⟨hsession, hlive⟩ := (hfind token s).mp hs
    exact ⟨token, s, slug, t, htoken, hslug, hsession, hlive, ht, hrole, hi.symm⟩
  · intro ⟨token, s, slug, t, htoken, hslug, hsession, hlive, ht, hrole, hi⟩
    exact ⟨_, ⟨token, htoken, rfl⟩, slug, hslug, s, (hfind token s).mpr ⟨hsession, hlive⟩, t, ht, (), hrole,
      hi.symm⟩

theorem withAuthorizedRead_ok {i : Identity} : (∃ role, withAuthorizedRead hash db.toAccounts cookie host now =
    .ok (i, role)) ↔ Granted hash db.toAccounts cookie host now i := by
  have hfind := find_byToken hash db (readCheck now) fun s hs => readCheck_iff hs
  rw [granted_iff]
  simp only [withAuthorizedRead, bind_ok, present_ok, pure_ok, sessionTokenHash_ok, Prod.mk.injEq]
  refine ⟨?_, ?_⟩
  · intro ⟨_, _, ⟨token, htoken, rfl⟩, slug, hslug, s, hs, t, ht, role, hrole, hi, _⟩
    obtain ⟨hsession, hlive⟩ := (hfind token s).mp hs
    exact ⟨token, s, slug, t, htoken, hslug, hsession, hlive, ht, by simp [hrole], hi.symm⟩
  · intro ⟨token, s, slug, t, htoken, hslug, hsession, hlive, ht, hrole, hi⟩
    obtain ⟨role, hrole⟩ := Option.isSome_iff_exists.mp hrole
    exact ⟨role, _, ⟨token, htoken, rfl⟩, slug, hslug, s, (hfind token s).mpr ⟨hsession, hlive⟩, t, ht, role,
      hrole, hi.symm, rfl⟩

theorem byToken_session {token : Text} {s : SessionRow} (hs : IsSession hash db.toAccounts token s) :
    byToken db.toAccounts (hash token) = [s] := by
  rcases byToken_cases db (hash token) with ⟨-, hnone⟩ | ⟨r, hr, hhash, hone⟩
  · exact absurd hs.2 (hnone s hs.1)
  · rw [hone, db.tokens s hs.1 r hr (hs.2.trans hhash.symm)]

theorem mem_lockedFamily {s a : SessionRow} (hs : s ∈ db.sessions.rows) :
    a ∈ lockedFamily db.toAccounts [s] ↔ Ancestor db.toAccounts s a := by
  simp only [lockedFamily, List.mem_filter, List.any_eq_true, decide_eq_true_eq, mem_family hs]
  refine ⟨?_, ?_⟩
  · intro ⟨ha, f, hf, hid⟩
    exact row_unique ha (ancestor_row hs hf) hid ▸ hf
  · intro ha
    exact ⟨ancestor_row hs ha, a, ha, rfl⟩

theorem locked_own {token : Text} {s : SessionRow} :
    (lockedFamily db.toAccounts (byToken db.toAccounts (hash token))).find?
        (fun r => r.tokenHash = hash token) = some s ↔ IsSession hash db.toAccounts token s := by
  refine ⟨?_, ?_⟩
  · intro hfind
    exact ⟨(List.mem_filter.mp (List.mem_of_find?_eq_some hfind)).1, by simpa using List.find?_some hfind⟩
  · intro hs
    have hown : s ∈ lockedFamily db.toAccounts (byToken db.toAccounts (hash token)) := by
      rw [byToken_session hs]
      exact (mem_lockedFamily hs.1).mpr ReflTransGen.refl
    have hsome : ((lockedFamily db.toAccounts (byToken db.toAccounts (hash token))).find?
        fun r => r.tokenHash = hash token).isSome = true := by
      rw [List.find?_isSome]
      exact ⟨s, hown, decide_eq_true hs.2⟩
    obtain ⟨r, hr⟩ := Option.isSome_iff_exists.mp hsome
    have hrtoken : r.tokenHash = hash token := by simpa using List.find?_some hr
    have hrrow := (List.mem_filter.mp (List.mem_of_find?_eq_some hr)).1
    rw [hr, db.tokens r hrrow s hs.1 (hrtoken.trans hs.2.symm)]

theorem brokenFamily_iff {s : SessionRow} (hs : s ∈ db.sessions.rows) :
    brokenFamily s (lockedFamily db.toAccounts [s]) = false ↔
      ∀ a, Ancestor db.toAccounts s a → a.revokedAt = none ∧ a.userId = s.userId := by
  have hparent : ∀ a, Ancestor db.toAccounts s a → ∀ p, a.parentSessionId = some p →
      ((lockedFamily db.toAccounts [s]).any fun r => r.id = p) = true := by
    intro a ha p hp
    obtain ⟨r, hr, rfl⟩ := db.session_parent a (ancestor_row hs ha) p hp
    rw [List.any_eq_true]
    exact ⟨r, (mem_lockedFamily hs).mpr (ha.tail (mem_parents.mpr ⟨hr, hp⟩)), decide_eq_true rfl⟩
  rw [brokenFamily, List.any_eq_false]
  simp only [mem_lockedFamily hs, Bool.or_eq_true, decide_eq_true_eq, not_or, Option.isSome_iff_ne_none, not_not]
  refine ⟨fun h a ha => (h a ha).1, ?_⟩
  intro h a ha
  refine ⟨h a ha, ?_⟩
  cases hp : a.parentSessionId with
  | none => simp
  | some p => simp [hparent a ha p hp]

theorem expiredFamily_iff {s : SessionRow} (hs : s ∈ db.sessions.rows) :
    expiredFamily db.toAccounts now (lockedFamily db.toAccounts [s]) = false ↔
      ∀ a, Ancestor db.toAccounts s a → now < a.expiresAt := by
  rw [expiredFamily, List.any_eq_false]
  simp only [Bool.and_eq_true, List.any_eq_true, decide_eq_true_eq, mem_lockedFamily hs, not_and, not_le]
  refine ⟨?_, ?_⟩
  · intro h a ha
    exact h a (ancestor_row hs ha) ⟨a, ha, rfl⟩
  · intro h a hrow ⟨r, hr, hid⟩
    exact row_unique hrow (ancestor_row hs hr) hid ▸ h r hr

theorem locked_live {s : SessionRow} (hs : s ∈ db.sessions.rows) : FamilyLive db.toAccounts now s ↔
    brokenFamily s (lockedFamily db.toAccounts [s]) = false ∧
      expiredFamily db.toAccounts now (lockedFamily db.toAccounts [s]) = false := by
  rw [brokenFamily_iff hs, expiredFamily_iff hs]
  refine ⟨?_, ?_⟩
  · intro h
    exact ⟨fun a ha => ⟨(h a ha).1.1, (h a ha).2⟩, fun a ha => (h a ha).1.2⟩
  · intro h a ha
    exact ⟨⟨(h.1 a ha).1, h.2 a ha⟩, (h.1 a ha).2⟩

theorem withAuthorizedWrite_ok {expected : Option Text} {i : Identity} :
    withAuthorizedWrite hash db.toAccounts cookie host now expected = .ok i ↔
      Granted hash db.toAccounts cookie host now i ∧ (∀ t, expected = some t → i.tenantId = t) ∧
        (roleOf db.toAccounts i.tenantId i.userId = some .admin ∨
          roleOf db.toAccounts i.tenantId i.userId = some .operator) := by
  rw [granted_iff]
  simp only [withAuthorizedWrite, bind_ok, present_ok, require_ok, pure_ok, sessionTokenHash_ok]
  refine ⟨?_, ?_⟩
  · intro ⟨_, ⟨token, htoken, rfl⟩, slug, hslug, s, hfind, _, hwhole, _, hlasts, t, ht, _, hexpected, _, hrole,
      hi⟩
    subst hi
    have hsession := locked_own.mp hfind
    rw [byToken_session hsession] at hwhole hlasts
    have hlive := (locked_live hsession.1).mpr ⟨hwhole, hlasts⟩
    refine ⟨⟨token, s, slug, t, htoken, hslug, hsession, hlive, ht, ?_, rfl⟩, ?_, hrole⟩
    · rcases hrole with hrole | hrole
      · simp [hrole]
      · simp [hrole]
    · intro t' ht'
      simpa [ht'] using hexpected
  · intro ⟨⟨token, s, slug, t, htoken, hslug, hsession, hlive, ht, hmember, hi⟩, hexpected, hrole⟩
    subst hi
    obtain ⟨hwhole, hlasts⟩ := (locked_live hsession.1).mp hlive
    rw [← byToken_session hsession] at hwhole hlasts
    refine ⟨_, ⟨token, htoken, rfl⟩, slug, hslug, s, locked_own.mpr hsession, (), hwhole, (), hlasts, t, ht, (),
      ?_, (), hrole, rfl⟩
    cases expected with
    | none => rfl
    | some t' => simpa using hexpected t' rfl

/-! ## The two gates of a token -/

theorem switching_some {token : Text} {s : SessionRow} :
    switching hash db.toAccounts now token = some s ↔
      IsSession hash db.toAccounts token s ∧ FamilyLive db.toAccounts now s := by
  have hhead : ∀ r, (byToken db.toAccounts (hash token)).head? = some r ↔
      IsSession hash db.toAccounts token r := by
    intro r
    refine ⟨?_, fun hr => by rw [byToken_session hr]; rfl⟩
    intro hr
    have hmem := List.mem_filter.mp (List.mem_of_head? hr)
    exact ⟨hmem.1, by simpa using hmem.2⟩
  rw [switching, Option.filter_eq_some_iff, hhead]
  refine and_congr_right ?_
  intro hs
  rw [byId hs.1, familyLive_iff hs.1]
  simp only [Bool.not_eq_true', List.any_eq_false, Bool.or_eq_true, decide_eq_true_eq, not_or,
    Option.isSome_iff_ne_none, not_le, not_not, and_assoc]

theorem sessionTenantIn_some {token tenantId : Text} :
    sessionTenantIn hash db.toAccounts now token = some tenantId ↔
      ∃ s, IsSession hash db.toAccounts token s ∧ s.Live now ∧
        (roleOf db.toAccounts s.activeTenantId s.userId).isSome = true ∧ tenantId = s.activeTenantId := by
  rw [sessionTenantIn, Option.map_eq_some_iff]
  refine ⟨?_, ?_⟩
  · intro ⟨s, hs, htenant⟩
    have hfound := List.find?_some hs
    simp only [Bool.and_eq_true, decide_eq_true_eq, Option.isNone_iff_eq_none] at hfound
    obtain ⟨⟨⟨hhash, hrevoked⟩, hexpires⟩, hmember⟩ := hfound
    exact ⟨s, ⟨List.mem_of_find?_eq_some hs, hhash⟩, ⟨hrevoked, hexpires⟩, by simpa [roleOf] using hmember,
      htenant.symm⟩
  · intro ⟨s, hs, hlive, hmember, htenant⟩
    have hmember : (db.members.find (s.activeTenantId, s.userId)).isSome = true := by
      simpa [roleOf] using hmember
    have hsome : (db.sessions.rows.find? fun s => s.tokenHash = hash token && s.revokedAt.isNone &&
        now < s.expiresAt && (db.members.find (s.activeTenantId, s.userId)).isSome).isSome = true := by
      rw [List.find?_isSome]
      exact ⟨s, hs.1, by simp [hs.2, hlive.1, hlive.2, hmember]⟩
    obtain ⟨r, hr⟩ := Option.isSome_iff_exists.mp hsome
    have hfound := List.find?_some hr
    simp only [Bool.and_eq_true, decide_eq_true_eq] at hfound
    have hsame := db.tokens r (List.mem_of_find?_eq_some hr) s hs.1 (hfound.1.1.1.trans hs.2.symm)
    exact ⟨r, hr, hsame ▸ htenant.symm⟩

end

/-! ## Signing out -/

section

variable {hash : Text → Text} {now : ℤ}

structure NoneLet (hash : Text → Text) (db : Accounts) (h : Text) : Prop where
  session : ∀ cookie host now i, sessionTokenHash hash cookie = .ok h →
    withSession hash db cookie host now ≠ .ok i
  read : ∀ cookie host now i, sessionTokenHash hash cookie = .ok h →
    withAuthorizedRead hash db cookie host now ≠ .ok i
  write : ∀ cookie host now expected i, sessionTokenHash hash cookie = .ok h →
    withAuthorizedWrite hash db cookie host now expected ≠ .ok i
  switch : ∀ token tenantId now, hash token = h →
    (switchTenant hash db now token tenantId).1 = .unauthenticated
  tenant : ∀ token now, hash token = h → sessionTenantIn hash db now token = none

theorem own_family {db : Accounts} {own : List SessionRow} {s : SessionRow}
    (hown : ∀ r ∈ own, r ∈ db.sessions.rows) (hs : s ∈ own) : s ∈ family db own := by
  rw [family, Recursive.mem_union db.sessions.rows]
  · exact ⟨s, hs, .refl⟩
  · intro r _ q hq
    exact (mem_parents.mp hq).1
  · exact hown

theorem byToken_rows {db : Accounts} {h : Text} {s : SessionRow} (hs : s ∈ byToken db h) :
    s ∈ db.sessions.rows ∧ s.tokenHash = h := by
  simpa [byToken] using hs

/-- **A revoked session is let through nowhere.** -/
theorem revoked_gates {db : Accounts} {h : Text}
    (hrevoked : ∀ s ∈ db.sessions.rows, s.tokenHash = h → s.revokedAt.isSome = true) : NoneLet hash db h := by
  have hfamily : ∀ s, s ∈ byToken db h → s ∈ family db (byToken db h) := by
    intro s hs
    exact own_family (fun r hr => (byToken_rows hr).1) hs
  have hown : ∀ s, s ∈ byToken db h → s.revokedAt.isSome = true := by
    intro s hs
    exact hrevoked s (byToken_rows hs).1 (byToken_rows hs).2
  refine ⟨?_, ?_, ?_, ?_, ?_⟩
  · intro cookie host now i hcookie hlet
    simp only [withSession, bind_ok, present_ok, hcookie, Except.ok.injEq] at hlet
    obtain ⟨_, rfl, _, -, s, hfind, -⟩ := hlet
    have hs := List.mem_of_find?_eq_some hfind
    have hcheck := List.find?_some hfind
    simp only [sessionCheck, Bool.and_eq_true, Bool.not_eq_true', List.any_eq_false] at hcheck
    exact hcheck.1 s (hfamily s hs) (by simp [hown s hs])
  · intro cookie host now i hcookie hlet
    simp only [withAuthorizedRead, bind_ok, present_ok, hcookie, Except.ok.injEq] at hlet
    obtain ⟨_, rfl, _, -, s, hfind, -⟩ := hlet
    have hs := List.mem_of_find?_eq_some hfind
    have hcheck := List.find?_some hfind
    simp only [readCheck, Bool.not_eq_true', List.any_eq_false] at hcheck
    exact hcheck s (hfamily s hs) (by simp [hown s hs])
  · intro cookie host now expected i hcookie hlet
    simp only [withAuthorizedWrite, bind_ok, present_ok, require_ok, hcookie, Except.ok.injEq] at hlet
    obtain ⟨_, rfl, _, -, s, hfind, _, hwhole, -⟩ := hlet
    have hlocked := List.mem_of_find?_eq_some hfind
    have htoken : s.tokenHash = h := by simpa using List.find?_some hfind
    rw [brokenFamily, List.any_eq_false] at hwhole
    exact hwhole s hlocked (by simp [hrevoked s (List.mem_filter.mp hlocked).1 htoken])
  · intro token tenantId now htoken
    have hnone : switching hash db now token = none := by
      rw [switching, Option.filter_eq_none_iff]
      intro s hs
      have hmem := List.mem_of_head? hs
      rw [htoken] at hmem
      have hself : s ∈ db.sessions.rows.filter fun r => r.id = s.id := by
        simpa using (byToken_rows hmem).1
      have hfound := own_family (fun r hr => (List.mem_filter.mp hr).1) hself
      simp only [Bool.not_eq_true, Bool.not_eq_false', List.any_eq_true]
      exact ⟨s, hfound, by simp [hown s hmem]⟩
    rw [switchTenant, hnone]
  · intro token now htoken
    rw [sessionTenantIn, Option.map_eq_none_iff, List.find?_eq_none]
    intro s hs hpasses
    simp only [Bool.and_eq_true, decide_eq_true_eq, Option.isNone_iff_eq_none] at hpasses
    have hgone := hrevoked s hs (hpasses.1.1.1.trans htoken)
    rw [hpasses.1.1.2] at hgone
    exact absurd hgone (by simp)

theorem ancestor_children {db : Accounts} {r a : SessionRow} (hr : r ∈ db.sessions.rows)
    (h : Ancestor db r a) : ReflTransGen (Recursive.Leads (children db)) a r := by
  induction h with
  | refl => exact .refl
  | tail hprefix hstep ih =>
      refine .head ?_ ih
      have hrow := ancestor_row hr hprefix
      have hparent := (mem_parents.mp hstep).2
      simpa [Recursive.Leads, children] using ⟨hrow, hparent⟩

theorem mem_tree (db : Directory) {s r : SessionRow} (hs : s ∈ db.sessions.rows) (hr : r ∈ db.sessions.rows)
    (h : SameTree db.toAccounts s r) : r ∈ tree db.toAccounts s := by
  obtain ⟨root, hroot, hup, hdown⟩ := h
  obtain ⟨depth, hdepth⟩ := db.forest
  have hfound : root ∈ Recursive.unionAll (parents db.toAccounts) db.sessions.rows.length
      (db.sessions.rows.filter fun r => r.id = s.id) := by
    rw [byId hs, Recursive.mem_unionAll db.sessions.rows
      fun r => OrderDual.toDual (depth r.id)]
    · exact ⟨s, by simp, hup⟩
    · intro r _ q hq
      exact (mem_parents.mp hq).1
    · intro r hr q hq
      exact OrderDual.toDual_lt_toDual.mpr (hdepth r hr q.id (mem_parents.mp hq).2)
    · simpa using hs
  have hrootrow := ancestor_row hs hup
  rw [tree, Recursive.mem_unionAll db.sessions.rows fun r => depth r.id]
  · exact ⟨root, by simpa [hroot] using hfound, ancestor_children hr hdown⟩
  · intro q _ r hr
    exact (List.mem_filter.mp hr).1
  · intro q _ r hr
    have hchild := List.mem_filter.mp hr
    exact hdepth r hchild.1 q.id (by simpa using hchild.2)
  · intro q hq
    have hmem := (List.mem_filter.mp hq).1
    rw [byId hs, Recursive.mem_unionAll_chain] at hmem
    obtain ⟨a, ha, _, -, hchain⟩ := hmem
    rw [List.mem_singleton.mp ha] at hchain
    exact ancestor_row hs hchain.reaches

theorem liveSession_row {db : Accounts} {token : Text} {s : SessionRow}
    (h : liveSession hash db now token = some s) : s ∈ db.sessions.rows := List.mem_of_find?_eq_some h

theorem signed_out (db : Directory) {token : Text} {s r : SessionRow}
    (hlive : liveSession hash db.toAccounts now token = some s) (hr : r ∈ db.sessions.rows)
    (h : SameTree db.toAccounts s r) :
    NoneLet hash (revokeSessionFamily hash db.toAccounts now token) r.tokenHash := by
  have hrows : (revokeSessionFamily hash db.toAccounts now token).sessions.rows =
      db.sessions.rows.map (revokeIn now (tree db.toAccounts s)) := by
    rw [revokeSessionFamily, hlive]
  refine revoked_gates ?_
  intro q hq htoken
  rw [hrows] at hq
  obtain ⟨q, hqrow, rfl⟩ := List.mem_map.mp hq
  have hsame : (revokeIn now (tree db.toAccounts s) q).tokenHash = q.tokenHash := by
    unfold revokeIn
    split
    · rfl
    · rfl
  obtain rfl := db.tokens q hqrow r hr (hsame.symm.trans htoken)
  have hin : (tree db.toAccounts s).any (fun f => f.id = q.id) = true := by
    rw [List.any_eq_true]
    exact ⟨q, mem_tree db (liveSession_row hlive) hqrow h, decide_eq_true rfl⟩
  unfold revokeIn
  rw [hin]
  cases hrevoked : q.revokedAt with
  | none => simp
  | some t => simp [hrevoked]

end

/-! ## All gates -/

section

variable (hash : Text → Text) (db : Directory) (cookie : Option Text) (host : Text) (now : ℤ)

/-- Every gate accepts what is granted and nothing else. The last two get their token from the other reading
of the cookie; `sessionTenantIn` is the gate on hosts without a tenant of their own. -/
structure GatesAgree : Prop where
  session : ∀ i, withSession hash db.toAccounts cookie host now = .ok i ↔
    Granted hash db.toAccounts cookie host now i
  read : ∀ i, (∃ role, withAuthorizedRead hash db.toAccounts cookie host now = .ok (i, role)) ↔
    Granted hash db.toAccounts cookie host now i
  write : ∀ expected i, withAuthorizedWrite hash db.toAccounts cookie host now expected = .ok i ↔
    Granted hash db.toAccounts cookie host now i ∧ (∀ t, expected = some t → i.tenantId = t) ∧
      (roleOf db.toAccounts i.tenantId i.userId = some .admin ∨
        roleOf db.toAccounts i.tenantId i.userId = some .operator)
  switch : ∀ s, (sessionTokenFromCookieHeader cookie).bind (switching hash db.toAccounts now) = some s ↔
    ∃ token, sessionToken cookie = some token ∧ IsSession hash db.toAccounts token s ∧
      FamilyLive db.toAccounts now s
  tenant : tenantSlug host = .ok none → ∀ t,
    (sessionTokenFromCookieHeader cookie).bind (sessionTenantIn hash db.toAccounts now) = some t ↔
      ∃ i, Granted hash db.toAccounts cookie host now i ∧ i.tenantId = t

def SignsOut : Prop := ∀ token now s, liveSession hash db.toAccounts now token = some s →
  ∀ r ∈ db.sessions.rows, SameTree db.toAccounts s r →
    NoneLet hash (revokeSessionFamily hash db.toAccounts now token) r.tokenHash

/-- What the gates of a token overlook: an ancestor that does not stand, where the host has no tenant and the
session itself stands; or a cookie that is not one proper token, before a session that stands. -/
def Overlooked : Prop :=
  ∃ token s, sessionTokenFromCookieHeader cookie = some token ∧ IsSession hash db.toAccounts token s ∧
    ((sessionToken cookie = none ∧ FamilyLive db.toAccounts now s) ∨
      (tenantSlug host = .ok none ∧ s.Live now ∧
        (roleOf db.toAccounts s.activeTenantId s.userId).isSome = true ∧ ¬ FamilyLive db.toAccounts now s))

theorem granted_session {token : Text} {i : Identity} (htoken : sessionToken cookie = some token)
    (hhost : tenantSlug host = .ok none) : Granted hash db.toAccounts cookie host now i ↔
      ∃ s, IsSession hash db.toAccounts token s ∧ FamilyLive db.toAccounts now s ∧
        (roleOf db.toAccounts s.activeTenantId s.userId).isSome = true ∧ i = ⟨s.activeTenantId, s.userId⟩ := by
  refine ⟨?_, ?_⟩
  · intro ⟨token', s, t, htoken', hs, hlive, ht, hrole, hi⟩
    obtain rfl := Option.some.inj (htoken.symm.trans htoken')
    rcases ht.2 with ⟨-, hid⟩ | ⟨slug, hslug, -⟩
    · rw [hid] at hrole hi
      exact ⟨s, hs, hlive, hrole, hi⟩
    · exact absurd (Except.ok.inj (hhost.symm.trans hslug)) (by simp)
  · intro ⟨s, hs, hlive, hrole, hi⟩
    -- a membership is in a tenant
    obtain ⟨m, hm, -⟩ := Option.map_eq_some_iff.mp (Option.isSome_iff_exists.mp hrole).choose_spec
    obtain ⟨t, ht, hid⟩ := db.member_tenant m (Table.find_mem hm)
    have hkey : m.key = (s.activeTenantId, s.userId) := Table.find_key hm
    have hactive : t.id = s.activeTenantId := hid.trans (Prod.mk.inj hkey).1
    refine ⟨token, s, t, htoken, hs, hlive, ⟨ht, Or.inl ⟨hhost, hactive⟩⟩, ?_, ?_⟩
    · rw [hactive]
      exact hrole
    · rw [hactive]
      exact hi

theorem switch_agrees : (∀ s, (sessionTokenFromCookieHeader cookie).bind (switching hash db.toAccounts now) =
      some s ↔ ∃ token, sessionToken cookie = some token ∧ IsSession hash db.toAccounts token s ∧
        FamilyLive db.toAccounts now s) ↔
    ¬ ∃ token s, sessionTokenFromCookieHeader cookie = some token ∧ IsSession hash db.toAccounts token s ∧
      sessionToken cookie = none ∧ FamilyLive db.toAccounts now s := by
  refine ⟨?_, ?_⟩
  · intro h ⟨token, s, htoken, hs, hnone, hlive⟩
    obtain ⟨token', htoken', -⟩ := (h s).mp (by rw [htoken]; exact switching_some.mpr ⟨hs, hlive⟩)
    exact absurd (hnone.symm.trans htoken') (by simp)
  · intro h s
    refine ⟨?_, ?_⟩
    · intro hbind
      obtain ⟨token, htoken, hswitching⟩ := Option.bind_eq_some_iff.mp hbind
      obtain ⟨hs, hlive⟩ := switching_some.mp hswitching
      cases hstrict : sessionToken cookie with
      | none => exact absurd ⟨token, s, htoken, hs, hstrict, hlive⟩ h
      | some token' =>
          have hsame := sessionTokenFromCookieHeader_of_sessionToken hstrict
          obtain rfl := Option.some.inj (htoken.symm.trans hsame)
          exact ⟨token, rfl, hs, hlive⟩
    · intro ⟨token, htoken, hs, hlive⟩
      rw [sessionTokenFromCookieHeader_of_sessionToken htoken]
      exact switching_some.mpr ⟨hs, hlive⟩

/-- **The gates agree, unless a gate of a token overlooks something.** -/
theorem gates_agree_iff :
    GatesAgree hash db cookie host now ∧ SignsOut hash db ↔ ¬ Overlooked hash db cookie host now := by
  refine ⟨?_, ?_⟩
  · intro ⟨h, _⟩ ⟨token, s, htoken, hs, hcase⟩
    rcases hcase with ⟨hnone, hlive⟩ | ⟨hhost, hlive, hrole, hdead⟩
    · exact (switch_agrees hash db cookie now).mp h.switch ⟨token, s, htoken, hs, hnone, hlive⟩
    · have hlet : (sessionTokenFromCookieHeader cookie).bind (sessionTenantIn hash db.toAccounts now) =
          some s.activeTenantId := by
        rw [htoken]
        exact sessionTenantIn_some.mpr ⟨s, hs, hlive, hrole, rfl⟩
      obtain ⟨i, ⟨token', s', t, htoken', hs', hlive', -⟩, -⟩ := (h.tenant hhost _).mp hlet
      have hsame := sessionTokenFromCookieHeader_of_sessionToken htoken'
      obtain rfl := Option.some.inj (htoken.symm.trans hsame)
      exact hdead (db.tokens s' hs'.1 s hs.1 (hs'.2.trans hs.2.symm) ▸ hlive')
  · intro h
    have hswitch := (switch_agrees hash db cookie now).mpr fun ⟨token, s, htoken, hs, hnone, hlive⟩ =>
      h ⟨token, s, htoken, hs, Or.inl ⟨hnone, hlive⟩⟩
    refine ⟨⟨fun _ => withSession_ok, fun _ => withAuthorizedRead_ok, fun _ _ => withAuthorizedWrite_ok, hswitch,
      ?_⟩, fun token now s hlive r hr htree => signed_out db hlive hr htree⟩
    intro hhost t
    refine ⟨?_, ?_⟩
    · intro hbind
      obtain ⟨token, htoken, htenant⟩ := Option.bind_eq_some_iff.mp hbind
      obtain ⟨s, hs, hlive, hrole, rfl⟩ := sessionTenantIn_some.mp htenant
      have hfamily : FamilyLive db.toAccounts now s := by
        by_contra hdead
        exact h ⟨token, s, htoken, hs, Or.inr ⟨hhost, hlive, hrole, hdead⟩⟩
      cases hstrict : sessionToken cookie with
      | none => exact absurd ⟨token, s, htoken, hs, Or.inl ⟨hstrict, hfamily⟩⟩ h
      | some token' =>
          have hsame := sessionTokenFromCookieHeader_of_sessionToken hstrict
          obtain rfl := Option.some.inj (htoken.symm.trans hsame)
          exact ⟨⟨s.activeTenantId, s.userId⟩,
            (granted_session hash db cookie host now hstrict hhost).mpr ⟨s, hs, hfamily, hrole, rfl⟩, rfl⟩
    · intro ⟨i, hgranted, hi⟩
      have ⟨token, _, _, htoken, _⟩ := hgranted
      obtain ⟨s, hs, hlive, hrole, rfl⟩ := (granted_session hash db cookie host now htoken hhost).mp hgranted
      rw [sessionTokenFromCookieHeader_of_sessionToken htoken]
      exact sessionTenantIn_some.mpr ⟨s, hs, (hlive s .refl).1, hrole, hi.symm⟩

end

/-! ## A child that outlives its parent -/

namespace Bench

def token : Text := List.replicate 43 65

def parent : SessionRow := ⟨js "parent", js "parent-token", js "user", js "tenant", none, 10, none⟩

def child : SessionRow := ⟨js "child", token, js "user", js "tenant", some (js "parent"), 1000, none⟩

def directory : Directory where
  users := ⟨[⟨js "user", js "ada@example.org"⟩], by decide⟩
  tenants := ⟨[⟨js "tenant", js "Personal", none⟩], by decide⟩
  members := ⟨[⟨js "tenant", js "user", .admin, 0⟩], by decide⟩
  sessions := ⟨[parent, child], by decide⟩
  tokens := by decide +kernel
  slugs := by decide +kernel
  member_tenant := by decide +kernel
  session_user := by decide +kernel
  session_parent := by
    intro s hs p hp
    rcases List.mem_pair.mp hs with rfl | rfl
    · exact absurd hp (by simp [parent])
    · exact ⟨parent, by simp, Option.some.inj hp⟩
  forest := by
    refine ⟨fun id => if id = js "child" then 1 else 0, ?_⟩
    intro s hs p hp
    rcases List.mem_pair.mp hs with rfl | rfl
    · exact absurd hp (by simp [parent])
    · obtain rfl := Option.some.inj hp
      decide

def cookie : Option Text := some (SESSION_COOKIE ++ equalsSign :: token)

def host : Text := js "localhost:8080"

end Bench

/-- `sessionTenantIn` lets a session through whose parent has expired. -/
theorem child_let_through : ¬ (GatesAgree id Bench.directory Bench.cookie Bench.host 20 ∧
    SignsOut id Bench.directory) := by
  intro ⟨h, _⟩
  have hhost : tenantSlug Bench.host = .ok none := by decide +kernel
  have hlet : (sessionTokenFromCookieHeader Bench.cookie).bind
      (sessionTenantIn id Bench.directory.toAccounts 20) = some (js "tenant") := by decide +kernel
  obtain ⟨i, hgranted, -⟩ := (h.tenant hhost (js "tenant")).mp hlet
  have hrefused : withSession id Bench.directory.toAccounts Bench.cookie Bench.host 20 =
      .error signInRequired := by decide +kernel
  exact absurd (hrefused.symm.trans ((h.session i).mpr hgranted)) (by simp)

end Albusforge.Sessions
