import Albusforge.Lib.ReadCommitted
import Albusforge.Sessions.Gates

/-!
# Sign-in by email code

What `issueCode` and `verifyCode` of `apps/gateway/src/auth-store.ts` read and write: the codes of an
address, the user, tenant and session of a sign-in, and the builds and model calls that an anonymous owner
leaves to the tenant. SHA-256 is not part of the repository's own code.
-/

namespace Albusforge.SignIn

open Lib Lib.ReadCommitted Sessions

def CODE_TTL_MS : ℤ := 10 * 60000
def CODE_MAX_ATTEMPTS : ℕ := 5
def PERSONAL_TENANT_NAME : Text := js "Personal"

/-- `normalizeEmail`. An address that a request is let in with is ASCII. -/
def normalizeEmail (email : Text) : Text := lowerLatin1 (trim email)

/-! ## Codes -/

/-- A row of `users.email_codes`. -/
structure EmailCode where
  id : Text
  email : Text
  codeHash : Text
  expiresAt : ℤ
  attempts : ℕ
  consumedAt : Option ℤ
  createdAt : ℤ
  deriving DecidableEq

/-- A call of `issueCode`, with what it draws. -/
structure IssueRequest where
  rawEmail : Text
  now : ℤ
  /-- `randomCode()` -/
  code : Text
  /-- `randomUUID()` -/
  id : Text
  /-- `now()` of the database. -/
  createdAt : ℤ

def IssueRequest.email (q : IssueRequest) : Text := normalizeEmail q.rawEmail

/-- A call of `verifyCode`. -/
structure VerifyRequest where
  rawEmail : Text
  code : Text
  anonOwnerHash : Option Text
  currentSessionToken : Option Text
  sessionMaxAgeS : ℤ
  now : ℤ

def VerifyRequest.email (q : VerifyRequest) : Text := normalizeEmail q.rawEmail

section

variable (hash : Text → Text)

def hashCode (codeId code : Text) : Text := hash (codeId ++ colon :: code)

/-- `UPDATE ... SET consumed_at = now WHERE email = $1 AND consumed_at IS NULL` -/
def consumeAll (email : Text) (now : ℤ) (codes : List EmailCode) : List EmailCode :=
  codes.map fun c => if c.email = email ∧ c.consumedAt = none then { c with consumedAt := some now } else c

def IssueRequest.row (q : IssueRequest) : EmailCode where
  id := q.id
  email := q.email
  codeHash := hashCode hash q.id q.code
  expiresAt := q.now + CODE_TTL_MS
  attempts := 0
  consumedAt := none
  createdAt := q.createdAt

def issueCode (q : IssueRequest) (codes : List EmailCode) : List EmailCode :=
  consumeAll q.email q.now codes ++ [q.row hash]

/-- `ORDER BY created_at DESC LIMIT 1` -/
def newest : List EmailCode → Option EmailCode
  | [] => none
  | c :: rest =>
      match newest rest with
      | none => some c
      | some best => if c.createdAt < best.createdAt then some best else some c

def liveCode (codes : List EmailCode) (email : Text) (now : ℤ) : Option EmailCode :=
  newest (codes.filter fun c => c.email = email && c.consumedAt.isNone && now < c.expiresAt)

inductive Checked
  | rejected
  | missed (id : Text) (attempts : ℕ)
  | hit (id : Text)
  deriving DecidableEq

/-- `verifyCode` up to its first write. -/
def check (codes : List EmailCode) (q : VerifyRequest) : Checked :=
  match liveCode codes q.email q.now with
  | none => .rejected
  | some live =>
      if hashCode hash live.id q.code ≠ live.codeHash then .missed live.id (live.attempts + 1) else .hit live.id

def countMiss (id : Text) (attempts : ℕ) (now : ℤ) (codes : List EmailCode) : List EmailCode :=
  codes.map fun c =>
    if c.id = id then
      { c with
        attempts := attempts
        consumedAt := if CODE_MAX_ATTEMPTS ≤ attempts then some now else c.consumedAt }
    else c

/-- `UPDATE ... SET consumed_at = now WHERE id = $1` -/
def consume (id : Text) (now : ℤ) (codes : List EmailCode) : List EmailCode :=
  codes.map fun c => if c.id = id then { c with consumedAt := some now } else c

/-! ## User, tenant and session -/

/-- What a sign-in draws, and `now()` of the database. -/
structure Fresh where
  userId : Text
  tenantId : Text
  sessionId : Text
  sessionToken : Text
  createdAt : ℤ

structure SignedIn where
  newUser : Option User
  newTenant : Option (Tenant × Member)
  session : SessionRow
  deriving DecidableEq

def SignedIn.tenantId (x : SignedIn) : Text := x.session.activeTenantId

/-- `membershipsOf`: the user's tenants, in the order in which they were joined. -/
def membershipsOf (db : Accounts) (userId : Text) : List Tenant :=
  let joined := (db.members.rows.filter fun m => m.userId = userId).filterMap fun m =>
    (db.tenants.find m.tenantId).map fun t => (m, t)
  (joined.mergeSort fun a b => a.1.createdAt < b.1.createdAt ||
    (a.1.createdAt = b.1.createdAt && compareText a.2.id b.2.id ≠ .gt)).map Prod.snd

/-- The user, the tenant and the session of a sign-in; `none` where it throws. -/
def signIn (db : Accounts) (q : VerifyRequest) (f : Fresh) : Option SignedIn := do
  let found := db.users.rows.find? fun u => lowerLatin1 u.email = q.email
  let made : User := ⟨f.userId, q.email⟩
  let user ← found <|> if lowerLatin1 made.email = q.email then some made else none
  let memberships := membershipsOf db user.id
  let personal : Tenant := ⟨f.tenantId, PERSONAL_TENANT_NAME, none⟩
  let all := if memberships = [] then [personal] else memberships
  let current := q.currentSessionToken.bind (liveSession hash db f.createdAt)
  let first ← all.head?
  let active := (current.filter fun s => s.userId = user.id && all.any fun t => t.id = s.activeTenantId).elim
    first.id SessionRow.activeTenantId
  pure
    { newUser := if found.isSome then none else some made
      newTenant := if memberships = [] then some (personal, ⟨f.tenantId, user.id, .admin, f.createdAt⟩) else none
      session := ⟨f.sessionId, hash f.sessionToken, user.id, active, none, q.now + q.sessionMaxAgeS * 1000, none⟩ }

def SignedIn.apply (x : SignedIn) (db : Accounts) : Accounts where
  users := x.newUser.elim db.users db.users.put
  tenants := x.newTenant.elim db.tenants fun n => db.tenants.put n.1
  members := x.newTenant.elim db.members fun n => db.members.put n.2
  sessions := db.sessions.put x.session

end

/-! ## Builds and model calls -/

/-- What a row of `builds.builds` has of its owner. -/
structure Build where
  tenantId : Option Text
  anonOwnerHash : Option Text
  deriving DecidableEq

/-- What a row of `builds.llm_calls` has of its owner. -/
structure Call where
  buildId : Option Text
  tenantId : Option Text
  anonOwnerHash : Option Text
  deriving DecidableEq

def Call.owner (c : Call) : Build := ⟨c.tenantId, c.anonOwnerHash⟩

def Build.unclaimed (h : Text) (b : Build) : Bool := b.anonOwnerHash = some h && b.tenantId.isNone

/-- `UPDATE builds.builds SET tenant_id = $1, anon_owner_hash = NULL WHERE ...` -/
def claimBuilds (h tenantId : Text) : Update Build where
  matching := Build.unclaimed h
  change := fun _ => ⟨some tenantId, none⟩

/-- The same of `builds.llm_calls`. -/
def claimCalls (h tenantId : Text) : Update Call where
  matching := fun c => c.owner.unclaimed h
  change := fun c => ⟨c.buildId, some tenantId, none⟩

/-- `CreateBuildRequest`'s owner: the tenant, or else the anonymous owner. -/
inductive Owner
  | tenant (id : Text)
  | anonymous (hash : Text)

/-- `ownership` -/
def Owner.build : Owner → Build
  | .tenant id => ⟨some id, none⟩
  | .anonymous h => ⟨none, some h⟩

/-- What an `LlmCallRecord` has of its attribution. -/
structure LlmCallRecord where
  buildId : Option Text
  tenantId : Option Text
  anonOwnerHash : Option Text

end Albusforge.SignIn
