import ProofOps.Api.HostedAccess.Lockout

/-!
# Attempts against a subject

Over every run of logins, maintenance and other changes with a clock that does not run backwards, a
subject sees at most five failed verifications in any 600 seconds and none for 900 seconds after
the fifth (`login_lockout`).
-/

namespace ProofOps.Api.HostedAccess

open Foundation Foundation.Checked Foundation.SlidingWindow Machine

variable {rules : AccessRules} {state : State} {now : ℚ} {subject : String}

/-- The clock that a call reads. -/
def Call.time : Call → Option ℚ
  | .login attempt => some attempt.now
  | .maintain now _ => some now
  | .change _ _ _ _ => none

def Chronological (calls : List Call) : Prop :=
  (∀ time ∈ calls.filterMap Call.time, 0 ≤ time) ∧ (calls.filterMap Call.time).Pairwise (· ≤ ·)

def verifies (rules : AccessRules) (state : State) (attempt : Attempt) : Bool :=
  (verified rules state attempt).toOption.isSome

def fails (rules : AccessRules) (state : State) (attempt : Attempt) : Bool :=
  match verified rules state attempt with
  | .ok account => (accepted rules (state.prune attempt.now) attempt account).isNone
  | .error _ => false

def failedBy (rules : AccessRules) (subject : String) (state : State) : Call → List ℚ
  | .login attempt =>
    if fails rules state attempt ∧ (subjects rules attempt.role attempt.ip).contains subject then
      [attempt.now]
    else []
  | _ => []

def failedAt (rules : AccessRules) (subject : String) : State → List Call → List ℚ
  | _, [] => []
  | state, call :: calls =>
    failedBy rules subject state call ++ failedAt rules subject (next rules state call) calls

theorem failedAt_append (front back : List Call) :
    failedAt rules subject state (front ++ back) =
      failedAt rules subject state front ++
        failedAt rules subject (after (next rules) state front) back := by
  induction front generalizing state with
  | nil => rfl
  | cons call front ih =>
    rw [List.cons_append, failedAt, failedAt, ih, List.append_assoc]
    rfl

structure Held (log : String → List ℚ) (state : State) (now : ℚ) : Prop where
  past : ∀ subject, ∀ time ∈ log subject, time ≤ now
  ordered : ∀ subject, (log subject).Pairwise (· ≤ ·)
  counted : ∀ subject time, now ≤ time →
    (log subject).countP (counts time) ≤ state.counted time subject
  locked : ∀ subject front fifth back, log subject = front ++ fifth :: back →
    5 ≤ (front ++ [fifth]).countP (counts fifth) → now < fifth + 900 →
      state.LockedUntil subject (fifth + 900)
  bounded : ∀ subject, Bounded counts 5 (log subject)

variable {log : String → List ℚ}

theorem held_empty : Held (fun _ => []) state now := by
  constructor
  case past => rintro subject time ⟨⟩
  case ordered => exact fun _ => List.Pairwise.nil
  case counted => exact fun _ _ _ => Nat.zero_le _
  case locked =>
    intro subject front fifth back h
    exact absurd h.symm (List.append_ne_nil_of_right_ne_nil front (List.cons_ne_nil fifth back))
  case bounded => exact fun _ => bounded_nil

variable {time : ℚ}

theorem Held.later (h : Held log state now) (htime : now ≤ time) :
    Held log state time := by
  constructor
  case past => exact fun subject past hpast => (h.past subject past hpast).trans htime
  case ordered => exact h.ordered
  case counted => exact fun subject later hlater => h.counted subject later (htime.trans hlater)
  case locked =>
    intro subject front fifth back hsplit hfive hbefore
    exact h.locked subject front fifth back hsplit hfive (htime.trans_lt hbefore)
  case bounded => exact h.bounded

theorem Held.of_tables (h : Held log state now) {other : State}
    (hfailures : other.failures = state.failures) (hlocks : other.locks = state.locks) :
    Held log other now := by
  constructor
  case past => exact h.past
  case ordered => exact h.ordered
  case counted =>
    intro subject time htime
    rw [State.counted, hfailures]
    exact h.counted subject time htime
  case locked =>
    intro subject front fifth back hsplit hfive hbefore
    rw [State.LockedUntil, hlocks]
    exact h.locked subject front fifth back hsplit hfive hbefore
  case bounded => exact h.bounded

theorem Held.prune (h : Held log state now) : Held log (state.prune now) now := by
  constructor
  case past => exact h.past
  case ordered => exact h.ordered
  case counted =>
    intro subject time htime
    rw [counted_prune htime]
    exact h.counted subject time htime
  case locked =>
    intro subject front fifth back hsplit hfive hbefore
    exact lockedUntil_prune (h.locked subject front fifth back hsplit hfive hbefore) hbefore
  case bounded => exact h.bounded

theorem Held.few (h : Held log state now)
    (hfree : ∀ time, now < time → ¬state.LockedUntil subject time) :
    (log subject).countP (counts now) ≤ 4 := by
  by_contra hmany
  rw [not_le] at hmany
  rcases List.eq_nil_or_concat (log subject) with hnil | ⟨front, last, hlast⟩
  · rw [hnil] at hmany
    cases hmany
  · rw [List.concat_eq_append] at hlast
    have hpast := h.past subject
    have hordered := h.ordered subject
    rw [hlast] at hmany hpast hordered
    -- One of the five counts now, and the last failure is not older.
    obtain ⟨counted, hcounted, hcounts⟩ := List.countP_pos_iff.mp (Nat.zero_lt_of_lt hmany)
    have hlater : counted ≤ last := by
      rw [List.mem_append, List.mem_singleton] at hcounted
      rcases hcounted with hfront | rfl
      · exact (List.pairwise_append.mp hordered).2.2 counted hfront last
          (List.mem_singleton_self _)
      · exact le_rfl
    have hlastnow : last ≤ now := hpast last (List.mem_append_right _ (List.mem_singleton_self _))
    rw [counts, decide_eq_true_eq] at hcounts
    have hsince : (front ++ [last]).countP (counts now) ≤ (front ++ [last]).countP (counts last) := by
      apply List.countP_mono_left
      intro time _ htime
      rw [counts, decide_eq_true_eq] at htime ⊢
      linarith
    have hbefore : now < last + 900 := by linarith
    exact hfree (last + 900) hbefore
      (h.locked subject front last [] hlast (Nat.le_trans hmany hsince) hbefore)

def logged (log : String → List ℚ) (subjects : List String) (now : ℚ) (subject : String) : List ℚ :=
  log subject ++ if subjects.contains subject then [now] else []

theorem Held.failed (h : Held log state now) {subjects : List String} {locked : Bool}
    (hpruned : ∀ subject, state.failureCount subject = state.counted now subject)
    (hfree : ∀ subject ∈ subjects, ∀ time, now < time → ¬state.LockedUntil subject time) :
    Held (logged log subjects now) (subjects.foldl (recordFailure now) (state, locked)).1 now := by
  have hself : counts now now = true := by
    rw [counts, decide_eq_true_eq]
    linarith
  constructor
  case past =>
    intro subject time htime
    rcases List.mem_append.mp htime with hold | hnew
    · exact h.past subject time hold
    · split_ifs at hnew with hsubject
      · exact (List.mem_singleton.mp hnew).le
      · cases hnew
  case ordered =>
    intro subject
    unfold logged
    split_ifs with hsubject
    · rw [List.pairwise_append]
      refine ⟨h.ordered subject, List.pairwise_singleton _ _, ?_⟩
      intro earlier hearlier later hlater
      rw [List.mem_singleton.mp hlater]
      exact h.past subject earlier hearlier
    · rw [List.append_nil]
      exact h.ordered subject
  case counted =>
    intro subject time htime
    have hold := h.counted subject time htime
    unfold logged State.counted at *
    rw [foldl_failures, List.countP_append, List.countP_append]
    apply Nat.add_le_add hold
    split_ifs with hsubject
    · rw [List.contains_iff_mem] at hsubject
      rw [List.countP_map, List.countP_singleton]
      split_ifs with hcounts
      · apply Nat.one_le_iff_ne_zero.mpr
        apply Nat.ne_of_gt
        rw [List.countP_pos_iff]
        refine ⟨subject, hsubject, ?_⟩
        simp [hcounts]
      · exact Nat.zero_le _
    · exact Nat.zero_le _
  case locked =>
    intro subject front fifth back hsplit hfive hbefore
    unfold logged at hsplit
    split_ifs at hsplit with hsubject
    · rw [List.contains_iff_mem] at hsubject
      rcases split_concat hsplit with ⟨rfl, rfl, rfl⟩ | ⟨rest, -, hentries⟩
      · apply lockedUntil_foldl_of_fifth hsubject
        have hcount := h.counted subject fifth le_rfl
        rw [List.countP_append, List.countP_singleton, hself, if_pos rfl] at hfive
        rw [hpruned]
        omega
      · exact absurd (h.locked subject front fifth rest hentries hfive hbefore)
          (hfree subject hsubject _ hbefore)
    · rw [List.append_nil] at hsplit
      have hlocked := h.locked subject front fifth back hsplit hfive hbefore
      apply lockedUntil_foldl hlocked
      have hpast := h.past subject fifth (by
        rw [hsplit]
        exact List.mem_append_right _ List.mem_cons_self)
      linarith
  case bounded =>
    intro subject
    unfold logged
    split_ifs with hsubject
    · apply (h.bounded subject).concat
      rw [List.countP_append, List.countP_singleton, hself, if_pos rfl]
      exact Nat.succ_le_succ (h.few (hfree subject (List.contains_iff_mem.mp hsubject)))
    · rw [List.append_nil]
      exact h.bounded subject

variable {attempt : Attempt}

theorem verified_free (hstart : 0 ≤ attempt.now) (hverified : verifies rules state attempt = true)
    (hsubject : subject ∈ subjects rules attempt.role attempt.ip)
    (htime : attempt.now < time) : ¬state.LockedUntil subject time := by
  intro hlocked
  obtain ⟨error, herror⟩ := verified_of_lockedUntil hstart hsubject hlocked htime
  rw [verifies, herror] at hverified
  cases hverified

theorem verifies_of_fails (h : fails rules state attempt = true) :
    verifies rules state attempt = true := by
  unfold fails at h
  unfold verifies
  cases hverified : verified rules state attempt with
  | ok account => rfl
  | error error =>
    rw [hverified] at h
    cases h

theorem tables_of_fails (h : fails rules state attempt = true) :
    (login rules state attempt).2.failures =
        (recordFailures rules (state.prune attempt.now) attempt).1.failures ∧
      (login rules state attempt).2.locks =
        (recordFailures rules (state.prune attempt.now) attempt).1.locks := by
  unfold fails at h
  unfold login
  cases hverified : verified rules state attempt with
  | error error =>
    rw [hverified] at h
    cases h
  | ok account =>
    simp only [hverified, Option.isNone_iff_eq_none] at h
    simp only [conclude, h]
    split_ifs <;> exact ⟨rfl, rfl⟩

theorem tables_of_not_fails (h : fails rules state attempt = false) :
    ((login rules state attempt).2.failures = (state.prune attempt.now).failures ∧
      (login rules state attempt).2.locks = (state.prune attempt.now).locks) ∨
    (login rules state attempt).2 = state := by
  unfold fails at h
  unfold login
  cases hverified : verified rules state attempt with
  | error error =>
    cases error with
    | passwordLocked retryAfter => exact Or.inl ⟨rfl, rfl⟩
    | roleInvalid | read error | passwordInvalid | integrity => exact Or.inr rfl
  | ok account =>
    rw [hverified] at h
    cases haccepted : accepted rules (state.prune attempt.now) attempt account with
    | none =>
      simp only [haccepted, Option.isNone_none] at h
      cases h
    | some found =>
      simp only [conclude, haccepted]
      cases hopened : openSession rules (state.prune attempt.now) attempt found with
      | error error => exact Or.inr rfl
      | ok opened =>
        left
        replace hopened := rest_ok hopened
        cases pure_ok hopened
        exact ⟨rfl, rfl⟩

/-- One call keeps the log of the failures. -/
theorem Held.step {call : Call} (h : Held log state now)
    (hclock : ∀ time ∈ call.time, 0 ≤ time ∧ now ≤ time) :
    Held (fun subject => log subject ++ failedBy rules subject state call) (next rules state call)
      (call.time.getD now) := by
  have hsame : (fun subject => log subject ++ []) = log := by
    funext subject
    exact List.append_nil _
  cases call with
  | change sessions accessSessions memberships accounts =>
    show Held (fun subject => log subject ++ []) _ now
    rw [hsame]
    exact h.of_tables rfl rfl
  | maintain time auditDays =>
    show Held (fun subject => log subject ++ []) _ time
    rw [hsame]
    have hlater := (h.later (hclock time rfl).2).prune
    exact hlater.of_tables rfl rfl
  | login attempt =>
    obtain ⟨hstart, hlater⟩ := hclock attempt.now rfl
    have hheld := h.later hlater
    unfold failedBy
    cases hfails : fails rules state attempt with
    | true =>
      have hverifies := verifies_of_fails hfails
      have hfree : ∀ subject ∈ subjects rules attempt.role attempt.ip, ∀ time,
          attempt.now < time → ¬(state.prune attempt.now).LockedUntil subject time := by
        intro subject hsubject time htime hlocked
        apply verified_free hstart hverifies hsubject htime
        obtain ⟨lock, hlock, hname, hle⟩ := hlocked
        exact ⟨lock, (List.mem_filter.mp hlock).1, hname, hle⟩
      have hrecorded : Held (logged log (subjects rules attempt.role attempt.ip) attempt.now)
          (recordFailures rules (state.prune attempt.now) attempt).1 attempt.now :=
        hheld.prune.failed (fun subject => failureCount_prune) hfree
      obtain ⟨hfailures, hlocks⟩ := tables_of_fails hfails
      simp only [hfails, true_and]
      exact hrecorded.of_tables hfailures hlocks
    | false =>
      simp only [hfails, Bool.false_eq_true, false_and, if_false]
      rw [hsame]
      rcases tables_of_not_fails hfails with ⟨hfailures, hlocks⟩ | hstate
      · exact hheld.prune.of_tables hfailures hlocks
      · show Held log (login rules state attempt).2 attempt.now
        rw [hstate]
        exact hheld

theorem counting_kept {call : Call} (htime : call.time = some time) :
    (state.failures.filter fun failure => counts time failure.attempted).Sublist
      (next rules state call).failures := by
  have hprune : (state.prune time).failures =
      state.failures.filter fun failure => counts time failure.attempted := by
    apply List.filter_congr
    intro failure _
    rw [counts, ← decide_not, decide_eq_decide, not_le]
  cases call with
  | change sessions accessSessions memberships accounts => cases htime
  | maintain now auditDays =>
    cases htime
    rw [← hprune]
    exact List.Sublist.refl _
  | login attempt =>
    cases htime
    rw [← hprune]
    show (state.prune attempt.now).failures.Sublist (login rules state attempt).2.failures
    cases hfails : fails rules state attempt with
    | true =>
      rw [(tables_of_fails hfails).1, recordFailures, foldl_failures]
      exact List.sublist_append_left _ _
    | false =>
      rcases tables_of_not_fails hfails with ⟨hfailures, -⟩ | hstate
      · rw [hfailures]
      · rw [hstate]
        exact List.filter_sublist

/-! ### Runs -/

theorem Held.run (h : Held log state now) {calls : List Call}
    (hclock : ∀ time ∈ calls.filterMap Call.time, 0 ≤ time ∧ now ≤ time)
    (hordered : (calls.filterMap Call.time).Pairwise (· ≤ ·)) :
    ∃ last, Held (fun subject => log subject ++ failedAt rules subject state calls)
        (after (next rules) state calls) last ∧
      (last = now ∨ last ∈ calls.filterMap Call.time) := by
  induction calls generalizing state now log with
  | nil =>
    refine ⟨now, ?_, Or.inl rfl⟩
    have hsame : (fun subject => log subject ++ failedAt rules subject state []) = log := by
      funext subject
      exact List.append_nil _
    rw [hsame]
    exact h
  | cons call calls ih =>
    have hcall : ∀ time ∈ call.time, 0 ≤ time ∧ now ≤ time := by
      intro time htime
      apply hclock
      rw [List.mem_filterMap]
      exact ⟨call, List.mem_cons_self, htime⟩
    have hnext : ∀ time ∈ calls.filterMap Call.time, 0 ≤ time ∧ call.time.getD now ≤ time := by
      intro time htime
      cases hown : call.time with
      | none =>
        rw [List.filterMap_cons_none hown] at hclock
        exact hclock time htime
      | some own =>
        rw [List.filterMap_cons_some hown] at hclock hordered
        exact ⟨(hclock time (List.mem_cons_of_mem _ htime)).1,
          List.rel_of_pairwise_cons hordered htime⟩
    have hrest : (calls.filterMap Call.time).Pairwise (· ≤ ·) := by
      cases hown : call.time with
      | none => rwa [List.filterMap_cons_none hown] at hordered
      | some own =>
        rw [List.filterMap_cons_some hown] at hordered
        exact hordered.of_cons
    obtain ⟨last, hheld, hlast⟩ := ih (h.step hcall) hnext hrest
    refine ⟨last, ?_, ?_⟩
    · simp only [List.append_assoc] at hheld
      exact hheld
    · cases hown : call.time with
      | none =>
        rw [List.filterMap_cons_none hown]
        rwa [hown] at hlast
      | some own =>
        right
        rw [List.filterMap_cons_some hown, List.mem_cons]
        rwa [hown] at hlast

theorem held_after (start : State) {calls : List Call} (hclock : Chronological calls) :
    ∃ last, Held (fun subject => failedAt rules subject start calls)
        (after (next rules) start calls) last ∧
      (last = 0 ∨ last ∈ calls.filterMap Call.time) := by
  have hbefore : ∀ time ∈ calls.filterMap Call.time, 0 ≤ time ∧ 0 ≤ time :=
    fun time htime => ⟨hclock.1 time htime, hclock.1 time htime⟩
  have hrun := @Held.run rules _ _ _ (@held_empty start 0) calls hbefore hclock.2
  simpa only [List.nil_append] using hrun

theorem Chronological.front {front back : List Call} (h : Chronological (front ++ back)) :
    Chronological front := by
  unfold Chronological at *
  rw [List.filterMap_append] at h
  exact ⟨fun time htime => h.1 time (List.mem_append_left _ htime),
    (List.pairwise_append.mp h.2).1⟩

theorem failedBy_login (h : failedBy rules subject state (.login attempt) ≠ []) :
    failedBy rules subject state (.login attempt) = [attempt.now] := by
  simp only [failedBy] at *
  split_ifs at h ⊢ with hfails
  · rfl
  · exact absurd rfl h

theorem unverified_after_fifth {start : State} {front between back : List Call} {fifth : Attempt}
    (hclock : Chronological (front ++ .login fifth :: between ++ .login attempt :: back))
    (hfifth : failedBy rules subject (after (next rules) start front) (.login fifth) ≠ [])
    (hfive : (failedAt rules subject start (front ++ [.login fifth])).countP
      (counts fifth.now) = 5)
    (hsubject : subject ∈ subjects rules attempt.role attempt.ip)
    (hbefore : attempt.now < fifth.now + 900) :
    verifies rules (after (next rules) start (front ++ .login fifth :: between)) attempt =
      false := by
  obtain ⟨last, hheld, hlast⟩ := @held_after rules start _ hclock.front
  have htimes := hclock
  unfold Chronological at htimes
  have hcall : (Call.login attempt).time = some attempt.now := rfl
  rw [List.filterMap_append, List.filterMap_cons_some hcall] at htimes
  have hstart : 0 ≤ attempt.now :=
    htimes.1 _ (List.mem_append_right _ List.mem_cons_self)
  have hlater : last ≤ attempt.now := by
    rcases hlast with rfl | hlast
    · exact hstart
    · exact (List.pairwise_append.mp htimes.2).2.2 last hlast _ List.mem_cons_self
  have hfailed : failedAt rules subject start (front ++ [.login fifth]) =
      failedAt rules subject start front ++ [fifth.now] := by
    rw [failedAt_append, failedAt, failedBy_login hfifth]
    rfl
  have hsplit : failedAt rules subject start (front ++ .login fifth :: between) =
      failedAt rules subject start front ++ fifth.now ::
        failedAt rules subject (next rules (after (next rules) start front) (.login fifth))
          between := by
    rw [failedAt_append, failedAt, failedBy_login hfifth]
    rfl
  rw [hfailed] at hfive
  have hlocked := (hheld.later hlater).locked subject _ _ _ hsplit hfive.ge hbefore
  obtain ⟨error, herror⟩ := verified_of_lockedUntil hstart hsubject hlocked hbefore
  rw [verifies, herror]
  rfl

/-- Every window of 600 seconds holds at most five failed verifications of a subject, after the
fifth its password is not verified for 900 seconds, and no call removes what still counts. -/
theorem login_lockout (rules : AccessRules) (start : State) (calls : List Call)
    (hclock : Chronological calls) :
    (∀ subject since,
      (failedAt rules subject start calls).countP (fun time => since ≤ time ∧ time < since + 600) ≤ 5 ∧
      (failedAt rules subject start calls).countP (fun time => since < time ∧ time ≤ since + 600) ≤ 5) ∧
    (∀ subject front fifth between attempt back,
      calls = front ++ .login fifth :: between ++ .login attempt :: back →
      failedBy rules subject (after (next rules) start front) (.login fifth) ≠ [] →
      (failedAt rules subject start (front ++ [.login fifth])).countP (counts fifth.now) = 5 →
      subject ∈ subjects rules attempt.role attempt.ip → attempt.now < fifth.now + 900 →
        verifies rules (after (next rules) start (front ++ .login fifth :: between)) attempt =
          false) ∧
    ∀ front call back time, calls = front ++ call :: back → call.time = some time →
      ((after (next rules) start front).failures.filter fun failure =>
        counts time failure.attempted).Sublist
          (next rules (after (next rules) start front) call).failures := by
  refine ⟨?_, ?_, ?_⟩
  · intro subject since
    obtain ⟨last, hheld, -⟩ := @held_after rules start _ hclock
    constructor
    · apply countP_window_le (hheld.bounded subject)
      intro last earlier hlast hearlier
      rw [decide_eq_true_eq] at hlast hearlier
      rw [counts, decide_eq_true_eq]
      linarith
    · apply countP_window_le (hheld.bounded subject)
      intro last earlier hlast hearlier
      rw [decide_eq_true_eq] at hlast hearlier
      rw [counts, decide_eq_true_eq]
      linarith
  · rintro subject front fifth between attempt back rfl hfifth hfive hsubject hbefore
    exact unverified_after_fifth hclock hfifth hfive hsubject hbefore
  · rintro front call back time rfl htime
    exact counting_kept htime

def plainRules : AccessRules where
  userHash := id
  digest := fun text => "sha256:" ++ text
  csrfTokenFor := fun sid => "csrf:" ++ sid
  scrypt := fun password salt => salt ++ password.toUTF8.toList

def oneAccount : State where
  failures := []
  locks := []
  sessions := []
  accessSessions := []
  audit := []
  memberships := [⟨"tenant", "access-password:admin", "admin", "active"⟩]
  accounts := .ok [("admin", ⟨"tenant", 100000, true, [7], 7 :: "correct".toUTF8.toList, "epoch"⟩)]

def attemptAt (password : String) (now : ℚ) : Attempt :=
  ⟨"admin", password, "192.0.2.1", "sid", now⟩

def guesses : List Call :=
  [.login (attemptAt "guess" 1000), .login (attemptAt "guess" 1001),
    .login (attemptAt "guess" 1002), .login (attemptAt "guess" 1003)]

theorem login_lockout_guesses :
    verifies plainRules (after (next plainRules) oneAccount
      (guesses ++ [.login (attemptAt "guess" 1004)])) (attemptAt "correct" 1903) = false := by
  have hrun := login_lockout plainRules oneAccount
    (guesses ++ .login (attemptAt "guess" 1004) :: [] ++ .login (attemptAt "correct" 1903) :: [])
    ⟨by decide +kernel, by decide +kernel⟩
  exact hrun.2.1 "access-account:admin" guesses (attemptAt "guess" 1004) []
    (attemptAt "correct" 1903) [] rfl (by decide +kernel) (by decide +kernel) (by decide +kernel)
    (by decide +kernel)

end ProofOps.Api.HostedAccess
