import Albusforge.Lib.Proc
import Mathlib.Logic.Function.Basic
import Mathlib.Data.List.Basic

/-!
# A disk, as a C program meets it

Files, directories and other things under their paths. A file is its bytes and how many of them
have reached the medium: the rest are lost, from any point on, when the power is (`Disk.PowerLoss`).
A call may fail where the program can not see why, and what it was to do may be done all the same;
a write may stop after any byte. What a program may rely on is in `Disk.serves`, one clause for
each call.
-/

namespace Albusforge.Lib

abbrev Bytes := List UInt8
abbrev Path := Bytes

inductive Node
  | file (content : Bytes) (durable : ℕ)
  | directory
  | special
  deriving DecidableEq

abbrev Disk := Path → Option Node

/-- What `stat` says. -/
structure Stat where
  regular : Bool
  size : ℕ
  deriving DecidableEq

/-- How opening or removing something ends: `absent` is `ENOENT`. -/
inductive Outcome
  | done
  | absent
  | failed
  deriving DecidableEq

inductive Listing
  | absent
  | failed
  | names (names : List Bytes) (whole : Bool)

inductive DiskOp
  | openRead (path : Path)
  /-- `O_CREAT | O_EXCL` -/
  | openNew (path : Path)
  /-- `fopen` to write: what was there is gone. -/
  | openTruncated (path : Path)
  /-- `fdopen` -/
  | stream
  | close
  | stat (path : Path)
  | read (path : Path) (offset length : ℕ)
  | seekEnd (path : Path)
  | write (path : Path) (bytes : Bytes)
  | sync (path : Path)
  | syncDirectory (path : Path)
  | list (path : Path)
  | unlink (path : Path)
  | rename (source target : Path)

@[reducible] def DiskOp.Ret : DiskOp → Type
  | openRead _ => Outcome
  | openNew _ => Bool
  | openTruncated _ => Bool
  | stream => Bool
  | close => Bool
  | stat _ => Option Stat
  | read _ _ _ => Option Bytes
  | seekEnd _ => Option ℕ
  | write _ _ => Bool
  | sync _ => Bool
  | syncDirectory _ => Bool
  | list _ => Listing
  | unlink _ => Outcome
  | rename _ _ => Bool

def DiskOp.touches : DiskOp → List Path
  | .openNew p => [p]
  | .openTruncated p => [p]
  | .write p _ => [p]
  | .sync p => [p]
  | .unlink p => [p]
  | .rename p q => [p, q]
  | _ => []

abbrev DiskProc := Proc DiskOp.Ret

def Path.child (directory : Path) (name : Bytes) : Path := directory ++ 47 :: name

def IsName (name : Bytes) : Prop := name ≠ [] ∧ (47 : UInt8) ∉ name

/-- `.` and `..` -/
def isDot (name : Bytes) : Bool := name == [46] || name == [46, 46]

def Node.stat : Node → Stat
  | file content _ => ⟨true, content.length⟩
  | directory => ⟨false, 0⟩
  | special => ⟨false, 0⟩

namespace Disk

def set (d : Disk) (p : Path) (n : Node) : Disk := Function.update d p (some n)

def erase (d : Disk) (p : Path) : Disk := Function.update d p none

@[simp] theorem set_self (d : Disk) (p : Path) (n : Node) : d.set p n p = some n :=
  Function.update_self p _ d

@[simp] theorem erase_self (d : Disk) (p : Path) : d.erase p p = none := Function.update_self p _ d

theorem set_of_ne {p q : Path} (d : Disk) (n : Node) (h : q ≠ p) : d.set p n q = d q :=
  Function.update_of_ne h _ d

theorem erase_of_ne {p q : Path} (d : Disk) (h : q ≠ p) : d.erase p q = d q :=
  Function.update_of_ne h _ d

def synced (d : Disk) (p : Path) : Disk :=
  match d p with
  | some (.file content _) => d.set p (.file content content.length)
  | _ => d

def content (d : Disk) (p : Path) : Option Bytes :=
  match d p with
  | some (.file content _) => some content
  | _ => none

def appended (d : Disk) (p : Path) (bytes : Bytes) : Disk :=
  match d p with
  | some (.file content durable) => d.set p (.file (content ++ bytes) durable)
  | _ => d

def isFile (d : Disk) (p : Path) : Prop := (d.content p).isSome = true

def moved (d : Disk) (source target : Path) : Disk :=
  match d source with
  | some n => (d.erase source).set target n
  | none => d

def Lists (d : Disk) (p : Path) : Listing → Prop
  | .absent => d p = none
  | .failed => True
  | .names names whole => names.Nodup ∧
      (∀ n ∈ names, isDot n = false → IsName n ∧ (d (p.child n)).isSome = true) ∧
      (whole = true → ∀ n, IsName n → (d (p.child n)).isSome = true → n ∈ names)

def serves (d : Disk) : (op : DiskOp) → op.Ret → Disk → Prop
  | .openRead p, r, d' => d' = d ∧ (r = .done → (d p).isSome = true) ∧ (r = .absent → d p = none)
  | .openNew p, r, d' =>
      (r = true → d p = none ∧ d' = d.set p (.file [] 0)) ∧
      (r = false → d' = d ∨ d p = none ∧ d' = d.set p (.file [] 0))
  | .openTruncated p, r, d' =>
      (r = true → d' = d.set p (.file [] 0)) ∧ (r = false → d' = d ∨ d' = d.set p (.file [] 0)) ∧
      (d p = none ∨ d.isFile p ∨ d' = d)
  | .stream, _, d' => d' = d
  | .close, _, d' => d' = d
  | .stat p, r, d' => d' = d ∧ ∀ st, r = some st → ∃ n, d p = some n ∧ n.stat = st
  | .read p offset length, r, d' => d' = d ∧
      ∀ b, r = some b → ∃ c, d.content p = some c ∧ b = (c.drop offset).take length
  | .seekEnd p, r, d' => d' = d ∧ ∀ n, r = some n → ∃ c, d.content p = some c ∧ n = c.length
  | .write p bytes, r, d' => ∃ n, d' = d.appended p (bytes.take n) ∧
      (r = true → d.isFile p ∧ bytes.length ≤ n)
  | .sync p, r, d' => (d' = d ∨ d' = d.synced p) ∧ (r = true → d' = d.synced p)
  -- entries are on the medium as soon as they are made
  | .syncDirectory _, _, d' => d' = d
  | .list p, r, d' => d' = d ∧ d.Lists p r
  | .unlink p, r, d' =>
      (r = .done → (d p).isSome = true ∧ d' = d.erase p) ∧ (r = .absent → d p = none ∧ d' = d) ∧
      (r = .failed → d' = d ∨ d' = d.erase p)
  | .rename p q, r, d' =>
      -- a file there is not replaced
      (r = true → d.isFile p ∧ d q = none ∧ d' = d.moved p q) ∧
      (r = false → d' = d ∨ d.isFile p ∧ d q = none ∧ d' = d.moved p q)

def PowerLoss (d d' : Disk) : Prop :=
  ∀ p, match d p with
    | some (.file content durable) =>
        ∃ n, durable ≤ n ∧ d' p = some (.file (content.take n) (content.take n).length)
    | other => d' p = other

def PowerCut (d d' : Disk) : Prop :=
  ∀ p, match d p with
    | some (.file content durable) => ∃ rest, (content.take durable ++ rest).length ≤ content.length ∧
        d' p = some (.file (content.take durable ++ rest) (content.take durable ++ rest).length)
    | other => d' p = other

def OnMedium (d : Disk) (p : Path) : Prop :=
  ∀ content durable, d p = some (.file content durable) → durable = content.length

theorem OnMedium.congr {d d' : Disk} {p : Path} (h : d.OnMedium p) (hsame : d' p = d p) : d'.OnMedium p :=
  fun content durable hfile => h content durable (hsame.symm.trans hfile)

theorem OnMedium.of_none {d : Disk} {p : Path} (h : d p = none) : d.OnMedium p :=
  fun _ _ hfile => absurd (h.symm.trans hfile) (by simp)

theorem PowerCut.same {d d' : Disk} {p : Path} (h : PowerCut d d') (hmedium : d.OnMedium p) : d' p = d p := by
  have hp := h p
  split at hp
  · rename_i content durable hfile
    obtain rfl := hmedium content durable hfile
    obtain ⟨rest, hlength, hd'⟩ := hp
    rw [List.take_length] at hlength hd'
    obtain rfl : rest = [] := by
      rw [List.length_append] at hlength
      exact List.eq_nil_of_length_eq_zero (by omega)
    rw [hd', hfile, List.append_nil]
  · exact hp

theorem appended_eq (d : Disk) (p : Path) (bytes : Bytes) :
    d.appended p bytes = d ∨ ∃ n, d.appended p bytes = d.set p n := by
  unfold appended
  split
  · exact Or.inr ⟨_, rfl⟩
  · exact Or.inl rfl

theorem synced_eq (d : Disk) (p : Path) : d.synced p = d ∨ ∃ n, d.synced p = d.set p n := by
  unfold synced
  split
  · exact Or.inr ⟨_, rfl⟩
  · exact Or.inl rfl

theorem moved_eq (d : Disk) (p q : Path) :
    d.moved p q = d ∨ ∃ n, d p = some n ∧ d.moved p q = (d.erase p).set q n := by
  unfold moved
  split
  · rename_i n hn
    exact Or.inr ⟨n, hn, rfl⟩
  · exact Or.inl rfl

theorem moved_some {d : Disk} {p q : Path} {n : Node} (h : d p = some n) :
    d.moved p q = (d.erase p).set q n := by
  rw [moved, h]

theorem isFile_some {d : Disk} {p : Path} (h : d.isFile p) : ∃ n, d p = some n := by
  unfold isFile content at h
  split at h
  · rename_i hfile
    exact ⟨_, hfile⟩
  · exact absurd h (by simp)

theorem appended_of_ne {p q : Path} (d : Disk) (bytes : Bytes) (h : q ≠ p) :
    d.appended p bytes q = d q := by
  rcases appended_eq d p bytes with hd | ⟨n, hd⟩
  · rw [hd]
  · rw [hd, set_of_ne d n h]

theorem synced_of_ne {p q : Path} (d : Disk) (h : q ≠ p) : d.synced p q = d q := by
  rcases synced_eq d p with hd | ⟨n, hd⟩
  · rw [hd]
  · rw [hd, set_of_ne d n h]

theorem moved_of_ne {p q q' : Path} (d : Disk) (h : q' ≠ p) (h' : q' ≠ q) : d.moved p q q' = d q' := by
  rcases moved_eq d p q with hd | ⟨n, -, hd⟩
  · rw [hd]
  · rw [hd, set_of_ne _ n h', erase_of_ne d h]

/-- **A call changes nothing under other paths.** -/
theorem serves_frame {d d' : Disk} {op : DiskOp} {r : op.Ret} {p : Path} (h : d.serves op r d')
    (hp : p ∉ op.touches) : d' p = d p := by
  cases op with
  | openRead _ => rw [h.1]
  | openNew q =>
      have hne : p ≠ q := by simpa [DiskOp.touches] using hp
      cases r with
      | true => rw [(h.1 rfl).2, set_of_ne _ _ hne]
      | false =>
          rcases h.2 rfl with hd | ⟨-, hd⟩
          · rw [hd]
          · rw [hd, set_of_ne _ _ hne]
  | openTruncated q =>
      have hne : p ≠ q := by simpa [DiskOp.touches] using hp
      cases r with
      | true => rw [h.1 rfl, set_of_ne _ _ hne]
      | false =>
          rcases h.2.1 rfl with hd | hd
          · rw [hd]
          · rw [hd, set_of_ne _ _ hne]
  | stream => rw [show d' = d from h]
  | close => rw [show d' = d from h]
  | stat _ => rw [h.1]
  | read _ _ _ => rw [h.1]
  | seekEnd _ => rw [h.1]
  | write q bytes =>
      have hne : p ≠ q := by simpa [DiskOp.touches] using hp
      obtain ⟨n, hd, -⟩ := h
      rw [hd, appended_of_ne _ _ hne]
  | sync q =>
      have hne : p ≠ q := by simpa [DiskOp.touches] using hp
      rcases h.1 with hd | hd
      · rw [hd]
      · rw [hd, synced_of_ne _ hne]
  | syncDirectory _ => rw [show d' = d from h]
  | list _ => rw [h.1]
  | unlink q =>
      have hne : p ≠ q := by simpa [DiskOp.touches] using hp
      cases r with
      | done => rw [(h.1 rfl).2, erase_of_ne _ hne]
      | absent => rw [(h.2.1 rfl).2]
      | failed =>
          rcases h.2.2 rfl with hd | hd
          · rw [hd]
          · rw [hd, erase_of_ne _ hne]
  | rename q q' =>
      obtain ⟨hne, hne'⟩ : p ≠ q ∧ p ≠ q' := by simpa [DiskOp.touches] using hp
      cases r with
      | true => rw [(h.1 rfl).2.2, moved_of_ne _ hne hne']
      | false =>
          rcases h.2 rfl with hd | ⟨-, -, hd⟩
          · rw [hd]
          · rw [hd, moved_of_ne _ hne hne']

end Disk

/-! ## The calls -/

namespace Posix

def openRead (p : Path) : DiskProc Outcome := Proc.ask (DiskOp.openRead p)
def openNew (p : Path) : DiskProc Bool := Proc.ask (DiskOp.openNew p)
def openTruncated (p : Path) : DiskProc Bool := Proc.ask (DiskOp.openTruncated p)
def stream : DiskProc Bool := Proc.ask DiskOp.stream
def close : DiskProc Bool := Proc.ask DiskOp.close
def stat (p : Path) : DiskProc (Option Stat) := Proc.ask (DiskOp.stat p)
def read (p : Path) (offset length : ℕ) : DiskProc (Option Bytes) := Proc.ask (DiskOp.read p offset length)
def seekEnd (p : Path) : DiskProc (Option ℕ) := Proc.ask (DiskOp.seekEnd p)
def write (p : Path) (bytes : Bytes) : DiskProc Bool := Proc.ask (DiskOp.write p bytes)
def sync (p : Path) : DiskProc Bool := Proc.ask (DiskOp.sync p)
def syncDirectory (p : Path) : DiskProc Bool := Proc.ask (DiskOp.syncDirectory p)
def list (p : Path) : DiskProc Listing := Proc.ask (DiskOp.list p)
def unlink (p : Path) : DiskProc Outcome := Proc.ask (DiskOp.unlink p)
def rename (source target : Path) : DiskProc Bool := Proc.ask (DiskOp.rename source target)

def andThen (first second : DiskProc Bool) : DiskProc Bool := do
  if ← first then second else return false

end Posix

namespace Disk

open Proc

variable {d : Disk} {C : Disk → Prop} {p q : Path}

theorem wp_openRead {Q : Outcome → Disk → Prop} (hC : C d)
    (h : ∀ r, (r = .done → (d p).isSome = true) → (r = .absent → d p = none) → Q r d) :
    wp serves (Posix.openRead p) Q C d := by
  refine ⟨hC, ?_⟩
  intro r d' ⟨hd, hdone, habsent⟩
  subst hd
  exact ⟨h r hdone habsent, hC⟩

theorem wp_openNew {Q : Bool → Disk → Prop} (hC : C d) (hno : Q false d)
    (hnew : d p = none → (∀ r, Q r (d.set p (.file [] 0))) ∧ C (d.set p (.file [] 0))) :
    wp serves (Posix.openNew p) Q C d := by
  refine ⟨hC, ?_⟩
  intro r d' ⟨hyes, hfail⟩
  cases r with
  | true =>
      obtain ⟨habsent, hd⟩ := hyes rfl
      subst hd
      exact ⟨(hnew habsent).1 true, (hnew habsent).2⟩
  | false =>
      rcases hfail rfl with hd | ⟨habsent, hd⟩
      · subst hd
        exact ⟨hno, hC⟩
      · subst hd
        exact ⟨(hnew habsent).1 false, (hnew habsent).2⟩

theorem wp_stream {Q : Bool → Disk → Prop} (hC : C d) (h : ∀ r, Q r d) :
    wp serves Posix.stream Q C d := by
  refine ⟨hC, ?_⟩
  intro r d' hd
  obtain rfl : d' = d := hd
  exact ⟨h r, hC⟩

theorem wp_close {Q : Bool → Disk → Prop} (hC : C d) (h : ∀ r, Q r d) :
    wp serves Posix.close Q C d := by
  refine ⟨hC, ?_⟩
  intro r d' hd
  obtain rfl : d' = d := hd
  exact ⟨h r, hC⟩

theorem wp_syncDirectory {Q : Bool → Disk → Prop} (hC : C d) (h : ∀ r, Q r d) :
    wp serves (Posix.syncDirectory p) Q C d := by
  refine ⟨hC, ?_⟩
  intro r d' hd
  obtain rfl : d' = d := hd
  exact ⟨h r, hC⟩

theorem wp_stat {Q : Option Stat → Disk → Prop} (hC : C d)
    (h : ∀ r, (∀ st, r = some st → ∃ n, d p = some n ∧ n.stat = st) → Q r d) :
    wp serves (Posix.stat p) Q C d := by
  refine ⟨hC, ?_⟩
  intro r d' ⟨hd, hstat⟩
  subst hd
  exact ⟨h r hstat, hC⟩

theorem wp_read {Q : Option Bytes → Disk → Prop} {offset length : ℕ} (hC : C d)
    (h : ∀ r, (∀ b, r = some b → ∃ c, d.content p = some c ∧ b = (c.drop offset).take length) → Q r d) :
    wp serves (Posix.read p offset length) Q C d := by
  refine ⟨hC, ?_⟩
  intro r d' ⟨hd, hread⟩
  subst hd
  exact ⟨h r hread, hC⟩

theorem wp_seekEnd {Q : Option ℕ → Disk → Prop} (hC : C d)
    (h : ∀ r, (∀ n, r = some n → ∃ c, d.content p = some c ∧ n = c.length) → Q r d) :
    wp serves (Posix.seekEnd p) Q C d := by
  refine ⟨hC, ?_⟩
  intro r d' ⟨hd, hsize⟩
  subst hd
  exact ⟨h r hsize, hC⟩

theorem wp_list {Q : Listing → Disk → Prop} (hC : C d) (h : ∀ r, d.Lists p r → Q r d) :
    wp serves (Posix.list p) Q C d := by
  refine ⟨hC, ?_⟩
  intro r d' ⟨hd, hlists⟩
  subst hd
  exact ⟨h r hlists, hC⟩

theorem wp_write {Q : Bool → Disk → Prop} {bytes : Bytes} (hC : ∀ n, C (d.appended p (bytes.take n)))
    (hstart : C d)
    (h : ∀ n r, (r = true → d.isFile p ∧ bytes.length ≤ n) → Q r (d.appended p (bytes.take n))) :
    wp serves (Posix.write p bytes) Q C d := by
  refine ⟨hstart, ?_⟩
  intro r d' ⟨n, hd, hall⟩
  subst hd
  exact ⟨h n r hall, hC n⟩

theorem wp_sync {Q : Bool → Disk → Prop} (hC : C d) (hdone : C (d.synced p) ∧ ∀ r, Q r (d.synced p))
    (h : Q false d) : wp serves (Posix.sync p) Q C d := by
  refine ⟨hC, ?_⟩
  intro r d' ⟨hd, hyes⟩
  rcases hd with hd | hd
  · cases r with
    | true =>
        obtain rfl := hyes rfl
        exact ⟨hdone.2 true, hdone.1⟩
    | false =>
        subst hd
        exact ⟨h, hC⟩
  · subst hd
    exact ⟨hdone.2 r, hdone.1⟩

theorem wp_unlink {Q : Outcome → Disk → Prop} (hC : C d)
    (hgone : C (d.erase p) ∧ ∀ r, r ≠ .absent → Q r (d.erase p))
    (hsame : ∀ r, r ≠ .done → (r = .absent → d p = none) → Q r d) :
    wp serves (Posix.unlink p) Q C d := by
  refine ⟨hC, ?_⟩
  intro r d' ⟨hdone, habsent, hfailed⟩
  cases r with
  | done =>
      obtain ⟨-, hd⟩ := hdone rfl
      subst hd
      exact ⟨hgone.2 _ (by simp), hgone.1⟩
  | absent =>
      obtain ⟨hnone, hd⟩ := habsent rfl
      subst hd
      exact ⟨hsame _ (by simp) fun _ => hnone, hC⟩
  | failed =>
      rcases hfailed rfl with hd | hd
      · subst hd
        exact ⟨hsame _ (by simp) (by simp), hC⟩
      · subst hd
        exact ⟨hgone.2 _ (by simp), hgone.1⟩

theorem wp_openTruncated {Q : Bool → Disk → Prop} (hC : C d) (hno : Q false d)
    (h : C (d.set p (.file [] 0)) ∧ ∀ r, Q r (d.set p (.file [] 0))) :
    wp serves (Posix.openTruncated p) Q C d := by
  refine ⟨hC, ?_⟩
  intro r d' ⟨hyes, hfail, _⟩
  cases r with
  | true =>
      obtain rfl := hyes rfl
      exact ⟨h.2 true, h.1⟩
  | false =>
      rcases hfail rfl with hd | hd
      · subst hd
        exact ⟨hno, hC⟩
      · subst hd
        exact ⟨h.2 false, h.1⟩

theorem wp_rename {Q : Bool → Disk → Prop} (hC : C d) (hno : Q false d)
    (h : d.isFile p → d q = none → C (d.moved p q) ∧ ∀ r, Q r (d.moved p q)) :
    wp serves (Posix.rename p q) Q C d := by
  refine ⟨hC, ?_⟩
  intro r d' ⟨hyes, hfail⟩
  cases r with
  | true =>
      obtain ⟨hfile, hnone, rfl⟩ := hyes rfl
      exact ⟨(h hfile hnone).2 true, (h hfile hnone).1⟩
  | false =>
      rcases hfail rfl with hd | ⟨hfile, hnone, hd⟩
      · subst hd
        exact ⟨hno, hC⟩
      · subst hd
        exact ⟨(h hfile hnone).2 false, (h hfile hnone).1⟩

theorem wp_written {bytes : Bytes}
    (hC : ∀ c k, c <+: bytes → C (d.set p (.file c k))) :
    wp serves (Posix.andThen (Posix.write p bytes) (Posix.sync p))
      (fun r d' => (∃ c k, c <+: bytes ∧ d' = d.set p (.file c k)) ∧
        (r = true → d' = d.set p (.file bytes bytes.length))) C (d.set p (.file [] 0)) := by
  have happended : ∀ n, (d.set p (.file [] 0)).appended p (bytes.take n) =
      d.set p (.file (bytes.take n) 0) := by
    intro n
    simp [appended, Disk.set]
  unfold Posix.andThen
  refine wp_bind (wp_write ?_ (hC [] 0 List.nil_prefix) ?_)
  · intro n
    rw [happended]
    exact hC _ 0 (List.take_prefix n bytes)
  · intro n r hr
    rw [happended]
    split
    · rename_i htrue
      obtain ⟨-, hlength⟩ := hr htrue
      rw [List.take_of_length_le hlength]
      have hsynced : (d.set p (.file bytes 0)).synced p = d.set p (.file bytes bytes.length) := by
        simp [synced, Disk.set]
      refine wp_sync (hC _ 0 (List.prefix_refl bytes)) ?_ ?_
      · rw [hsynced]
        refine ⟨hC _ _ (List.prefix_refl bytes), ?_⟩
        intro r
        exact ⟨⟨bytes, _, List.prefix_refl bytes, rfl⟩, fun _ => rfl⟩
      · exact ⟨⟨bytes, 0, List.prefix_refl bytes, rfl⟩, by simp⟩
    · exact ⟨⟨⟨_, 0, List.take_prefix n bytes, rfl⟩, by simp⟩, hC _ 0 (List.take_prefix n bytes)⟩

end Disk

end Albusforge.Lib
