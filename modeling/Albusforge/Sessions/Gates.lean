import Albusforge.Lib.Recursive
import Albusforge.Lib.Rows
import Albusforge.Sessions.Request

/-!
# The gates of a session

Every place that decides whether a session may go on, over `users.users`, `users.tenants`,
`users.tenant_members` and `users.sessions`: `withSession` (`session.ts`), `withAuthorizedRead`
(`authorized-read.ts`), `withAuthorizedWrite` (`authorized-write.ts`), `sessionTenantIn`, `switchTenant` and
`revokeSessionFamily` (`auth-store.ts`). A session that a tenant's own host was signed in to has the session
that it was handed from as its parent.
-/

namespace Albusforge.Sessions

open Lib

/-! ## Tables -/

inductive TenantRole
  | admin
  | operator
  | viewer
  deriving DecidableEq

structure User where
  id : Text
  email : Text
  deriving DecidableEq

structure Tenant where
  id : Text
  name : Text
  slug : Option Text
  deriving DecidableEq

structure Member where
  tenantId : Text
  userId : Text
  role : TenantRole
  createdAt : ℤ
  deriving DecidableEq

def Member.key (m : Member) : Text × Text := (m.tenantId, m.userId)

structure SessionRow where
  id : Text
  tokenHash : Text
  userId : Text
  activeTenantId : Text
  parentSessionId : Option Text
  expiresAt : ℤ
  revokedAt : Option ℤ
  deriving DecidableEq

structure Accounts where
  users : Table User.id
  tenants : Table Tenant.id
  members : Table Member.key
  sessions : Table SessionRow.id

/-- Tables that keep their constraints, with parents that are there and no session among its own
ancestors. -/
structure Directory extends Accounts where
  tokens : ∀ s ∈ sessions.rows, ∀ r ∈ sessions.rows, s.tokenHash = r.tokenHash → s = r
  slugs : ∀ t ∈ tenants.rows, ∀ r ∈ tenants.rows, t.slug ≠ none → t.slug = r.slug → t = r
  member_tenant : ∀ m ∈ members.rows, ∃ t ∈ tenants.rows, t.id = m.tenantId
  session_user : ∀ s ∈ sessions.rows, ∃ u ∈ users.rows, u.id = s.userId
  session_parent : ∀ s ∈ sessions.rows, ∀ p, s.parentSessionId = some p → ∃ r ∈ sessions.rows, r.id = p
  forest : ∃ depth : Text → ℕ, ∀ s ∈ sessions.rows, ∀ p, s.parentSessionId = some p → depth p < depth s.id

structure Identity where
  tenantId : Text
  userId : Text
  deriving DecidableEq

/-! ## Queries -/

section

variable (db : Accounts)

/-- `WHERE token_hash=$1` -/
def byToken (hash : Text) : List SessionRow := db.sessions.rows.filter fun s => s.tokenHash = hash

/-- `users.sessions s JOIN family f ON s.id=f.parent_session_id` -/
def parents (f : SessionRow) : List SessionRow := db.sessions.rows.filter fun s => f.parentSessionId = some s.id

/-- `WITH RECURSIVE family`: these sessions and all of their ancestors. -/
def family (start : List SessionRow) : List SessionRow :=
  Recursive.union (parents db) db.sessions.rows.length start

/-- `SELECT id FROM users.tenants WHERE ($1::text IS NULL AND id=$2) OR slug=$1` -/
def tenantOf (slug : Option Text) (activeTenantId : Text) : Option Tenant :=
  db.tenants.rows.find? fun t => (slug = none ∧ t.id = activeTenantId) ∨ (slug ≠ none ∧ t.slug = slug)

/-- `SELECT role FROM users.tenant_members WHERE tenant_id=$1 AND user_id=$2` -/
def roleOf (tenantId userId : Text) : Option TenantRole :=
  (db.members.find (tenantId, userId)).map Member.role

end

def unknownTenant : HttpError := ⟨404, js "NOT_FOUND", js "Unknown tenant"⟩
def membershipRequired : HttpError := ⟨403, js "FORBIDDEN", js "Tenant membership required"⟩
def roleRequired : HttpError := ⟨403, js "FORBIDDEN", js "An operator or admin role is required"⟩
def workspaceChanged : HttpError :=
  ⟨409, js "WORKSPACE_CHANGED", js "Workspace changed; refresh before trying again"⟩

/-! ## The gates -/

section

variable (hash : Text → Text) (db : Accounts) (cookie : Option Text) (host : Text) (now : ℤ)

/-- What `withSession` asks of the family of its own row. -/
def sessionCheck (own family : List SessionRow) : Bool :=
  !family.any (fun f => f.revokedAt.isSome || f.expiresAt ≤ now) &&
    !family.any fun f => own.any fun s => f.userId ≠ s.userId

/-- What `withAuthorizedRead` asks of it. -/
def readCheck (own family : List SessionRow) : Bool :=
  !family.any fun f => f.revokedAt.isSome || f.expiresAt ≤ now || own.any (fun s => f.userId ≠ s.userId) ||
    f.parentSessionId.any fun p => !family.any fun r => r.id = p

/-- `withSession`: whom the read is run for. -/
def withSession : Except HttpError Identity := do
  let hash ← sessionTokenHash hash cookie
  let slug ← tenantSlug host
  let own := byToken db hash
  let session ← present (own.find? fun _ => sessionCheck now own (family db own)) signInRequired
  let tenant ← present (tenantOf db slug session.activeTenantId) unknownTenant
  require ((roleOf db tenant.id session.userId).isSome = true) membershipRequired
  pure ⟨tenant.id, session.userId⟩

def withAuthorizedRead : Except HttpError (Identity × TenantRole) := do
  let hash ← sessionTokenHash hash cookie
  let slug ← tenantSlug host
  let own := byToken db hash
  let session ← present (own.find? fun _ => readCheck now own (family db own)) signInRequired
  let tenant ← present (tenantOf db slug session.activeTenantId) unknownTenant
  let role ← present (roleOf db tenant.id session.userId) membershipRequired
  pure (⟨tenant.id, session.userId⟩, role)

def lockedFamily (own : List SessionRow) : List SessionRow :=
  db.sessions.rows.filter fun s => (family db own).any fun f => f.id = s.id

/-- `sessions.some(...)` -/
def brokenFamily (session : SessionRow) (sessions : List SessionRow) : Bool :=
  sessions.any fun s => s.revokedAt.isSome || s.userId ≠ session.userId ||
    s.parentSessionId.any fun p => !sessions.any fun parent => parent.id = p

/-- `checkExpiry` -/
def expiredFamily (sessions : List SessionRow) : Bool :=
  db.sessions.rows.any fun s => sessions.any (fun r => r.id = s.id) && s.expiresAt ≤ now

/-- `withAuthorizedWrite`, up to the caller's own writes. -/
def withAuthorizedWrite (expectedTenant : Option Text) : Except HttpError Identity := do
  let hash ← sessionTokenHash hash cookie
  let slug ← tenantSlug host
  let sessions := lockedFamily db (byToken db hash)
  let session ← present (sessions.find? fun s => s.tokenHash = hash) signInRequired
  require (brokenFamily session sessions = false) signInRequired
  require (expiredFamily db now sessions = false) signInRequired
  let tenant ← present (tenantOf db slug session.activeTenantId) unknownTenant
  require (expectedTenant.all (fun t => tenant.id = t) = true) workspaceChanged
  let role := roleOf db tenant.id session.userId
  require (role = some .admin ∨ role = some .operator) roleRequired
  pure ⟨tenant.id, session.userId⟩

/-- `sessionTenantIn`: the session with its membership. -/
def sessionTenantIn (token : Text) : Option Text :=
  (db.sessions.rows.find? fun s => s.tokenHash = hash token && s.revokedAt.isNone && now < s.expiresAt &&
    (db.members.find (s.activeTenantId, s.userId)).isSome).map SessionRow.activeTenantId

/-- The session of `switchTenant` and whether its family is `valid`. -/
def switching (token : Text) : Option SessionRow :=
  ((byToken db (hash token)).head?).filter fun session =>
    !(family db (db.sessions.rows.filter fun s => s.id = session.id)).any fun f =>
      f.revokedAt.isSome || f.expiresAt ≤ now || f.userId ≠ session.userId

inductive Switched
  | switched
  | unauthenticated
  | forbidden
  deriving DecidableEq

def switchTenant (token tenantId : Text) : Switched × Accounts :=
  match switching hash db now token with
  | none => (.unauthenticated, db)
  | some session =>
      if (db.members.find (tenantId, session.userId)).isNone then (.forbidden, db)
      else if session.revokedAt = none ∧ now < session.expiresAt then
        (.switched, { db with sessions := db.sessions.put { session with activeTenantId := tenantId } })
      else (.unauthenticated, db)

def liveSession (token : Text) : Option SessionRow :=
  db.sessions.rows.find? fun s => s.tokenHash = hash token && s.revokedAt.isNone && now < s.expiresAt &&
    (db.users.find s.userId).isSome

/-- `users.sessions s JOIN family ON s.parent_session_id = family.id` -/
def children (f : SessionRow) : List SessionRow := db.sessions.rows.filter fun s => s.parentSessionId = some f.id

def tree (session : SessionRow) : List SessionRow :=
  let up := Recursive.unionAll (parents db) db.sessions.rows.length
    (db.sessions.rows.filter fun s => s.id = session.id)
  Recursive.unionAll (children db) db.sessions.rows.length (up.filter fun s => s.parentSessionId = none)

/-- `UPDATE users.sessions SET revoked_at = now() WHERE id IN family AND revoked_at IS NULL` -/
def revokeIn (family : List SessionRow) (s : SessionRow) : SessionRow :=
  if family.any (fun f => f.id = s.id) && s.revokedAt.isNone then { s with revokedAt := some now } else s

theorem revokeIn_id (family : List SessionRow) (s : SessionRow) : (revokeIn now family s).id = s.id := by
  unfold revokeIn
  split
  · rfl
  · rfl

def revokeSessionFamily (token : Text) : Accounts :=
  match liveSession hash db now token with
  | none => db
  | some session =>
      { db with sessions :=
          ⟨db.sessions.rows.map (revokeIn now (tree db session)), by
            rw [List.map_map]
            have hids : SessionRow.id ∘ revokeIn now (tree db session) = SessionRow.id :=
              funext fun s => revokeIn_id now (tree db session) s
            rw [hids]
            exact db.sessions.nodup⟩ }

end

end Albusforge.Sessions
