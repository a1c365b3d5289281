import Mathlib.Data.Rat.Floor
import ProofOps.Foundation.Checked
import ProofOps.Foundation.Machine
import ProofOps.Foundation.SlidingWindow

/-!
# Failures and locks

The failed verifications of a subject are kept beside the tables (`failedAt`).  The invariant
`Held` relates the two: what still counts is in the table, and the fifth failure of a window has
left a lock.
-/

namespace ProofOps.Api.HostedAccess

open Foundation Foundation.Checked Foundation.SlidingWindow Machine

/-! ### Password logins of the hosted service -/

section

/-- What `_read` raises. -/
inductive ReadError where
  | configInvalid
  | resourceNotFound
  deriving DecidableEq

/-- What stops an attempt. -/
inductive AccessError where
  | roleInvalid
  | read (error : ReadError)
  | passwordLocked (retryAfter : Int)
  | passwordInvalid
  | integrity
  deriving DecidableEq

/-- A row of the accounts. -/
structure Account where
  tenant : String
  expires : ℚ
  active : Bool
  (salt hash : List UInt8)
  sessionEpoch : String

structure Membership where
  (tenantId userId role status : String)

structure Session where
  (sidHash userId tenantId csrfHash : String)
  (expires idle : ℚ)
  revoked : Bool

structure AccessSession where
  (sidHash role sessionEpoch : String)

structure AuditRow where
  created : ℚ
  (event role : String)
  ipHash : Option String

/-- A row of `access_login_failures`. -/
structure LoginFailure where
  subjectHash : String
  attempted : ℚ

/-- A row of `access_login_locks`. -/
structure LoginLock where
  subjectHash : String
  lockedUntil : ℚ

/-- `AccessPasswords`. -/
structure State where
  failures : List LoginFailure
  locks : List LoginLock
  sessions : List Session
  accessSessions : List AccessSession
  audit : List AuditRow
  memberships : List Membership
  accounts : Except ReadError (List (String × Account))

structure AccessRules where
  (userHash digest csrfTokenFor : String → String)
  scrypt : String → List UInt8 → List UInt8

variable (rules : AccessRules)

/-- `user_for`. -/
def userFor (role : String) : Except AccessError String :=
  if ["admin", "organizer"].contains role then .ok ("access-password:" ++ role)
  else .error .roleInvalid

def subjects (role ip : String) : List String :=
  [rules.userHash ("access-ip:" ++ ip), rules.userHash ("access-account:" ++ role)]

variable (state : State)

/-- `_audit`. -/
def State.audited (event role ip : String) (now : ℚ) : State :=
  let ipHash := if ip = "" then none else some (rules.userHash ("access-ip:" ++ ip))
  { state with audit := state.audit ++ [⟨now, event, role, ipHash⟩] }

def State.prune (now : ℚ) : State :=
  { state with
    failures := state.failures.filter fun failure => !decide (failure.attempted ≤ now - 600)
    locks := state.locks.filter fun lock => !decide (lock.lockedUntil ≤ now) }

def State.lockedUntil (state : State) (subjects : List String) : Option ℚ :=
  (state.locks.filter fun lock => subjects.contains lock.subjectHash).foldr
    (fun lock found => some ((found.map (max lock.lockedUntil)).getD lock.lockedUntil)) none

def State.lockOf (subjects : List String) : Option ℚ :=
  (state.lockedUntil subjects).filter fun lockedUntil => !decide (lockedUntil = 0)

def State.failureCount (subject : String) : Nat :=
  state.failures.countP fun failure => failure.subjectHash = subject

def State.lock (state : State) (subject : String) (lockedUntil : ℚ) : State :=
  { state with locks :=
      state.locks.filter (fun lock => !decide (lock.subjectHash = subject)) ++
        [⟨subject, lockedUntil⟩] }

def recordFailure (now : ℚ) (current : State × Bool) (subject : String) : State × Bool :=
  let inserted := { current.1 with failures := current.1.failures ++ [⟨subject, now⟩] }
  if 5 ≤ inserted.failureCount subject then (inserted.lock subject (now + 900), true)
  else (inserted, current.2)

structure Attempt where
  (role password ip sid : String)
  now : ℚ

variable (attempt : Attempt)

def verified : Except AccessError (Option Account) := do
  let _ ← userFor attempt.role
  let pruned := state.prune attempt.now
  match pruned.lockOf (subjects rules attempt.role attempt.ip) with
  | some lockedUntil => .error (.passwordLocked ⌈lockedUntil - attempt.now⌉)
  | none => do
    let accounts ← state.accounts.mapError .read
    return accounts.lookup attempt.role

variable (account : Option Account)

def passwordValid (password : String) : Bool :=
  let salt := (account.map Account.salt).getD (List.replicate 16 0)
  let expected := (account.map Account.hash).getD (List.replicate 32 0)
  rules.scrypt password salt = expected

def accepted : Option Account := do
  let valid := passwordValid rules account attempt.password
  let found ← account
  let membership ← state.memberships.find? fun membership =>
    membership.tenantId = found.tenant ∧
      membership.userId = "access-password:" ++ attempt.role
  if valid ∧ found.active ∧ attempt.now < found.expires ∧ membership.status = "active" ∧
      membership.role = (if attempt.role = "admin" then "admin" else "editor") then some found
  else none

/-- The session of a success. -/
def openSession (account : Account) :
    Except AccessError State := do
  let sidHash := rules.digest attempt.sid
  let expires := min (attempt.now + 28800) account.expires
  refuse ((state.sessions.map Session.sidHash).contains sidHash = true ∨
    (state.accessSessions.map AccessSession.sidHash).contains sidHash = true) .integrity
  let session : Session := ⟨sidHash, "access-password:" ++ attempt.role, account.tenant,
    rules.digest (rules.csrfTokenFor attempt.sid), expires, min expires (attempt.now + 1800), false⟩
  return { state with
    sessions := state.sessions ++ [session]
    accessSessions := state.accessSessions ++ [⟨sidHash, attempt.role, account.sessionEpoch⟩] }

def recordFailures : State × Bool :=
  (subjects rules attempt.role attempt.ip).foldl (recordFailure attempt.now) (state, false)

def conclude : Except AccessError String × State :=
  let pruned := state.prune attempt.now
  match accepted rules pruned attempt account with
  | some found =>
    match openSession rules pruned attempt found with
    | .ok opened =>
      (.ok attempt.sid,
        opened.audited rules "login_success" attempt.role attempt.ip attempt.now)
    | .error error => (.error error, state)
  | none =>
    let (recorded, locked) := recordFailures rules pruned attempt
    if locked then
      (.error (.passwordLocked 900),
        recorded.audited rules "login_locked" attempt.role attempt.ip attempt.now)
    else
      (.error .passwordInvalid,
        recorded.audited rules "login_failed" attempt.role attempt.ip attempt.now)

/-- `AccessPasswords.login`. -/
def login : Except AccessError String × State :=
  match verified rules state attempt with
  | .ok account => conclude rules state attempt account
  | .error (.passwordLocked retryAfter) =>
    (.error (.passwordLocked retryAfter),
      (state.prune attempt.now).audited rules "login_locked" attempt.role attempt.ip attempt.now)
  | .error error => (.error error, state)

def maintain (now : ℚ) (auditDays : Nat) : State :=
  let pruned := state.prune now
  { pruned with
    accessSessions := state.accessSessions.filter fun linked =>
      (state.sessions.map Session.sidHash).contains linked.sidHash
    audit := state.audit.filter fun row => !decide (row.created < now - auditDays * 86400) }

inductive Call where
  | login (attempt : Attempt)
  | maintain (now : ℚ) (auditDays : Nat)
  | change (sessions : List Session) (accessSessions : List AccessSession)
      (memberships : List Membership) (accounts : Except ReadError (List (String × Account)))

/-- One call to the store. -/
def next : Call → State
  | .login attempt => (login rules state attempt).2
  | .maintain now auditDays => maintain state now auditDays
  | .change sessions accessSessions memberships accounts =>
    { state with sessions, accessSessions, memberships, accounts }

end

variable {rules : AccessRules} {state : State} {now : ℚ} {subject : String}

def counts (now attempted : ℚ) : Bool :=
  decide (now - 600 < attempted)

def State.counted (state : State) (now : ℚ) (subject : String) : Nat :=
  state.failures.countP fun failure =>
    decide (failure.subjectHash = subject) && counts now failure.attempted

def State.LockedUntil (state : State) (subject : String) (time : ℚ) : Prop :=
  ∃ lock ∈ state.locks, lock.subjectHash = subject ∧ time ≤ lock.lockedUntil

variable {time : ℚ}

theorem counted_prune (h : now ≤ time) :
    (state.prune now).counted time subject = state.counted time subject := by
  unfold State.counted State.prune
  rw [List.countP_filter]
  apply List.countP_congr
  intro failure _
  simp only [counts, Bool.and_eq_true, decide_eq_true_eq, Bool.not_eq_true', decide_eq_false_iff_not]
  constructor
  · rintro ⟨hcounts, -⟩
    exact hcounts
  · rintro ⟨hsubject, hcounts⟩
    refine ⟨⟨hsubject, hcounts⟩, ?_⟩
    linarith

theorem failureCount_prune :
    (state.prune now).failureCount subject = (state.prune now).counted now subject := by
  unfold State.failureCount State.counted State.prune
  rw [List.countP_filter, List.countP_filter]
  apply List.countP_congr
  intro failure _
  simp only [counts, Bool.and_eq_true, decide_eq_true_eq, Bool.not_eq_true', decide_eq_false_iff_not,
    not_le]
  constructor
  · rintro ⟨hsubject, hcounts⟩
    exact ⟨⟨hsubject, hcounts⟩, hcounts⟩
  · rintro ⟨⟨hsubject, -⟩, hcounts⟩
    exact ⟨hsubject, hcounts⟩

theorem lockedUntil_prune (hlocked : state.LockedUntil subject time) (h : now < time) :
    (state.prune now).LockedUntil subject time := by
  obtain ⟨lock, hlock, hsubject, htime⟩ := hlocked
  refine ⟨lock, ?_, hsubject, htime⟩
  unfold State.prune
  rw [List.mem_filter, Bool.not_eq_true', decide_eq_false_iff_not, not_le]
  exact ⟨hlock, h.trans_le htime⟩

theorem le_lockedUntil {subjects : List String} (hsubject : subject ∈ subjects)
    (hlocked : state.LockedUntil subject time) :
    ∃ greatest, state.lockedUntil subjects = some greatest ∧ time ≤ greatest := by
  obtain ⟨lock, hlock, rfl, htime⟩ := hlocked
  have hmem : lock ∈ state.locks.filter fun lock => subjects.contains lock.subjectHash := by
    rw [List.mem_filter]
    exact ⟨hlock, List.contains_iff_mem.mpr hsubject⟩
  unfold State.lockedUntil
  generalize (state.locks.filter fun lock => subjects.contains lock.subjectHash) = locks at hmem
  induction locks with
  | nil => cases hmem
  | cons first locks ih =>
    rw [List.foldr_cons]
    rcases List.mem_cons.mp hmem with rfl | hrest
    · cases locks.foldr (fun lock found =>
          some ((found.map (max lock.lockedUntil)).getD lock.lockedUntil)) none with
      | none => exact ⟨_, rfl, htime⟩
      | some greatest => exact ⟨_, rfl, htime.trans (le_max_left _ _)⟩
    · obtain ⟨greatest, hgreatest, hle⟩ := ih hrest
      rw [hgreatest]
      exact ⟨_, rfl, hle.trans (le_max_right _ _)⟩

/-- A locked subject is refused. -/
theorem verified_of_lockedUntil {attempt : Attempt} (hstart : 0 ≤ attempt.now)
    (hsubject : subject ∈ subjects rules attempt.role attempt.ip)
    (hlocked : state.LockedUntil subject time) (htime : attempt.now < time) :
    ∃ error, verified rules state attempt = .error error := by
  obtain ⟨greatest, hgreatest, hle⟩ := le_lockedUntil hsubject (lockedUntil_prune hlocked htime)
  have hlock : (state.prune attempt.now).lockOf (subjects rules attempt.role attempt.ip) =
      some greatest := by
    unfold State.lockOf
    rw [hgreatest]
    have hnonzero : greatest ≠ 0 := by
      linarith
    simp [hnonzero]
  unfold verified
  cases hrole : userFor attempt.role with
  | error error => exact ⟨error, rfl⟩
  | ok user =>
    simp only [hlock]
    exact ⟨_, rfl⟩

theorem recordFailure_failures (current : State × Bool) :
    (recordFailure now current subject).1.failures = current.1.failures ++ [⟨subject, now⟩] := by
  unfold recordFailure
  simp only
  split_ifs <;> rfl

variable {current : State × Bool}

theorem lockedUntil_recordFailure {other : String}
    (hlocked : current.1.LockedUntil other time) (htime : time ≤ now + 900) :
    (recordFailure now current subject).1.LockedUntil other time := by
  obtain ⟨lock, hlock, hsubject, hle⟩ := hlocked
  unfold recordFailure
  simp only
  split_ifs with hfive
  · by_cases hsame : lock.subjectHash = subject
    · refine ⟨⟨subject, now + 900⟩, ?_, hsame.symm.trans hsubject, htime⟩
      exact List.mem_append_right _ (List.mem_singleton_self _)
    · refine ⟨lock, ?_, hsubject, hle⟩
      apply List.mem_append_left
      rw [List.mem_filter, Bool.not_eq_true', decide_eq_false_iff_not]
      exact ⟨hlock, hsame⟩
  · exact ⟨lock, hlock, hsubject, hle⟩

theorem lockedUntil_of_fifth (hfive : 5 ≤ current.1.failureCount subject + 1) :
    (recordFailure now current subject).1.LockedUntil subject (now + 900) := by
  have hcount : 5 ≤ State.failureCount
      { current.1 with failures := current.1.failures ++ [⟨subject, now⟩] } subject := by
    unfold State.failureCount
    rw [List.countP_append, List.countP_singleton, decide_eq_true rfl, if_pos rfl]
    exact hfive
  unfold recordFailure
  rw [if_pos hcount]
  refine ⟨⟨subject, now + 900⟩, ?_, rfl, le_rfl⟩
  exact List.mem_append_right _ (List.mem_singleton_self _)

theorem foldl_failures (subjects : List String) (current : State × Bool) :
    (subjects.foldl (recordFailure now) current).1.failures =
      current.1.failures ++ subjects.map fun subject => ⟨subject, now⟩ := by
  induction subjects generalizing current with
  | nil => exact (List.append_nil _).symm
  | cons subject subjects ih =>
    rw [List.foldl_cons, ih, recordFailure_failures, List.map_cons, List.append_assoc]
    rfl

theorem lockedUntil_foldl {subjects : List String}
    (hlocked : current.1.LockedUntil subject time) (htime : time ≤ now + 900) :
    (subjects.foldl (recordFailure now) current).1.LockedUntil subject time := by
  induction subjects generalizing current with
  | nil => exact hlocked
  | cons other subjects ih => exact ih (lockedUntil_recordFailure hlocked htime)

theorem lockedUntil_foldl_of_fifth {subjects : List String}
    (hsubject : subject ∈ subjects) (hfive : 5 ≤ current.1.failureCount subject + 1) :
    (subjects.foldl (recordFailure now) current).1.LockedUntil subject (now + 900) := by
  induction subjects generalizing current with
  | nil => cases hsubject
  | cons other subjects ih =>
    rw [List.foldl_cons]
    by_cases hsame : subject = other
    · rw [hsame] at hfive ⊢
      exact lockedUntil_foldl (lockedUntil_of_fifth hfive) le_rfl
    · apply ih ((List.mem_cons.mp hsubject).resolve_left hsame)
      have hmore : current.1.failureCount subject ≤
          (recordFailure now current other).1.failureCount subject := by
        unfold State.failureCount
        rw [recordFailure_failures, List.countP_append]
        exact Nat.le_add_right _ _
      omega

end ProofOps.Api.HostedAccess
