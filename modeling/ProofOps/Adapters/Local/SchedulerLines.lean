import Mathlib.Data.List.Nodup
import Mathlib.Data.List.Perm.Basic
import ProofOps.Adapters.Local.ProviderScheduler
import ProofOps.Foundation.Overtaking

/-!
# The lines of the scheduler

What the calls of the scheduler do to the tickets alone: one comes, one leaves, or the next one is
served.  Within a role tickets are served in the order they came in, and none is passed by more later
tickets than the policy says (`LineStep.orderly`).
-/

namespace ProofOps.Adapters.Local.ProviderScheduler

open Foundation Overtaking

/-! ### Queues -/

section Queues

variable {queues : Queues} {role : Role} {ticket : Ticket}

theorem mem_roles (role : Role) : role ∈ roles := by
  cases role <;> decide

theorem Queues.mem_waiting : ticket ∈ queues.waiting ↔ ∃ role, ticket ∈ queues role := by
  unfold Queues.waiting
  rw [List.mem_flatMap]
  constructor
  · rintro ⟨role, -, hticket⟩
    exact ⟨role, hticket⟩
  · rintro ⟨role, hticket⟩
    exact ⟨role, mem_roles role, hticket⟩

@[simp]
theorem Queues.set_self (queues : Queues) (role : Role) (queue : List Ticket) :
    queues.set role queue role = queue :=
  if_pos rfl

theorem Queues.waiting_set_perm {queue : List Ticket} {extra : List Ticket}
    (h : queue.Perm (extra ++ queues role)) :
    (queues.set role queue).waiting.Perm (extra ++ queues.waiting) := by
  have hcount : ∀ other, (queue.count other) = extra.count other + (queues role).count other := by
    intro other
    rw [h.count_eq, List.count_append]
  rw [List.perm_iff_count]
  intro other
  have hother := hcount other
  cases role <;>
    simp only [Queues.waiting, roles, List.flatMap_cons, List.flatMap_nil, List.count_append,
      List.count_nil, Queues.set, reduceCtorEq, if_true, if_false] <;>
    omega

theorem Queues.waiting_remove_perm (h : ticket ∈ queues ticket.role) :
    queues.waiting.Perm (ticket :: (queues.remove ticket).waiting) := by
  have hback : ((queues.remove ticket).set ticket.role (queues ticket.role)) = queues := by
    funext role
    unfold Queues.remove Queues.set
    split_ifs with hrole
    · rw [hrole]
    · rfl
  have hqueue : (queues ticket.role).Perm ([ticket] ++ queues.remove ticket ticket.role) := by
    unfold Queues.remove
    rw [Queues.set_self]
    exact List.perm_cons_erase h
  have hperm := Queues.waiting_set_perm hqueue
  rw [hback] at hperm
  exact hperm

theorem Queues.waiting_dequeue :
    (queues.dequeue ticket).waiting = (queues.remove ticket).waiting.map Ticket.bypassed := by
  unfold Queues.waiting Queues.dequeue
  rw [List.map_flatMap]

theorem oldest_mem (best : Ticket) (tickets : List Ticket) :
    oldest best tickets ∈ best :: tickets := by
  induction tickets generalizing best with
  | nil => exact List.mem_cons_self
  | cons ticket tickets ih =>
    unfold oldest
    split_ifs
    · exact List.mem_cons_of_mem _ (ih ticket)
    · rcases List.mem_cons.mp (ih best) with hbest | hrest
      · rw [hbest]
        exact List.mem_cons_self
      · exact List.mem_cons_of_mem _ (List.mem_cons_of_mem _ hrest)

theorem oldest_le (best : Ticket) (tickets : List Ticket) :
    ∀ ticket ∈ best :: tickets, (oldest best tickets).key ≤ ticket.key := by
  induction tickets generalizing best with
  | nil =>
    intro ticket hticket
    rw [List.mem_singleton.mp hticket]
    exact le_refl _
  | cons first tickets ih =>
    have hle : ∀ better : Ticket, better.key ≤ best.key → better.key ≤ first.key →
        ∀ ticket ∈ best :: first :: tickets, (oldest better tickets).key ≤ ticket.key := by
      intro better hbest hfirst ticket hticket
      have hbetter := ih better better List.mem_cons_self
      rcases List.mem_cons.mp hticket with rfl | hticket
      · exact hbetter.trans hbest
      · rcases List.mem_cons.mp hticket with rfl | hticket
        · exact hbetter.trans hfirst
        · exact ih better ticket (List.mem_cons_of_mem _ hticket)
    unfold oldest
    split_ifs with hlt
    · exact hle first hlt.le (le_refl _)
    · exact hle best (le_refl _) (not_lt.mp hlt)

theorem mem_heads {head : Ticket} :
    head ∈ (roles.filterMap fun role => (queues role).head?) ↔ ∃ role, (queues role).head? = some head := by
  rw [List.mem_filterMap]
  constructor
  · rintro ⟨role, -, hhead⟩
    exact ⟨role, hhead⟩
  · rintro ⟨role, hhead⟩
    exact ⟨role, mem_roles role, hhead⟩

theorem Queues.nextTicket_spec {bound : Nat} (h : queues.nextTicket bound = some ticket) :
    (∃ role, (queues role).head? = some ticket) ∧
      ∃ first, (∃ role, (queues role).head? = some first) ∧
        (∀ role head, (queues role).head? = some head → first.key ≤ head.key) ∧
        (ticket = first ∨ first.bypass < bound) := by
  unfold Queues.nextTicket at h
  cases hheads : roles.filterMap fun role => (queues role).head? with
  | nil =>
    rw [hheads] at h
    cases h
  | cons head heads =>
    rw [hheads] at h
    dsimp only at h
    have hmem : ∀ {other}, other ∈ head :: heads → ∃ role, (queues role).head? = some other := by
      intro other hother
      rw [← hheads] at hother
      exact mem_heads.mp hother
    have hleast : ∀ role other, (queues role).head? = some other →
        (oldest head heads).key ≤ other.key := by
      intro role other hother
      apply oldest_le
      rw [← hheads]
      exact mem_heads.mpr ⟨role, hother⟩
    have holdest := hmem (oldest_mem head heads)
    split_ifs at h with hbypass
    · cases h
      exact ⟨holdest, _, holdest, hleast, Or.inl rfl⟩
    · cases h
      exact ⟨hmem List.mem_cons_self, _, holdest, hleast, Or.inr (Nat.not_le.mp hbypass)⟩

end Queues

/-! ### Lines -/

structure Line where
  queues : Queues
  sequence : Nat
  now : ℚ
  (admitted withdrawn : List Ticket)

def Line.arrive (line : Line) (role : Role) : Line :=
  { line with
    sequence := line.sequence + 1
    queues := line.queues.set role (line.queues role ++ [⟨role, line.now, 0, line.sequence + 1⟩]) }

def Line.leave (line : Line) (ticket : Ticket) : Line :=
  { line with
    queues := line.queues.remove ticket
    withdrawn := line.withdrawn ++ [ticket] }

def Line.serve (line : Line) (ticket : Ticket) : Line :=
  { line with
    queues := line.queues.dequeue ticket
    admitted := line.admitted ++ [ticket] }

inductive LineStep (bound : Nat) (line : Line) : Line → Prop where
  | pass {time : ℚ} (le : line.now ≤ time) : LineStep bound line { line with now := time }
  | arrive (role : Role) : LineStep bound line (line.arrive role)
  | leave {ticket : Ticket} (waits : ticket ∈ line.queues.waiting) :
      LineStep bound line (line.leave ticket)
  | serve {ticket : Ticket} (next : line.queues.nextTicket bound = some ticket) :
      LineStep bound line (line.serve ticket)

def Line.all (line : Line) : List Ticket :=
  line.queues.waiting ++ (line.admitted ++ line.withdrawn)

/-- What holds of a line whenever its lock is free. -/
structure Orderly (bound : Nat) (line : Line) : Prop where
  numbers : (line.all.map Ticket.sequence).Perm (List.range' 1 line.sequence)
  role_eq : ∀ role, ∀ ticket ∈ line.queues role, ticket.role = role
  ordered : ∀ role, (line.queues role).Pairwise fun first second => first.sequence < second.sequence
  queued_le : ∀ ticket ∈ line.queues.waiting, ticket.queued ≤ line.now
  times : ∀ first ∈ line.queues.waiting, ∀ second ∈ line.queues.waiting,
    first.sequence ≤ second.sequence → first.queued ≤ second.queued
  fair : Fair Ticket.sequence Ticket.bypass bound line.queues.waiting
    (line.admitted.map Ticket.sequence)
  fifo : ∀ served ∈ line.admitted, ∀ ticket ∈ line.queues.waiting, served.role = ticket.role →
    served.sequence < ticket.sequence
  servedInOrder : line.admitted.Pairwise fun first second =>
    first.role = second.role → first.sequence < second.sequence
  overtaken : ∀ front ticket back, line.admitted = front ++ ticket :: back →
    overtakers (front.map Ticket.sequence) ticket.sequence ≤ bound

section Steps

variable {bound : Nat} {line : Line} {ticket : Ticket}

theorem Orderly.sequence_le (h : Orderly bound line) (hticket : ticket ∈ line.all) :
    ticket.sequence ≤ line.sequence := by
  have hmem : ticket.sequence ∈ List.range' 1 line.sequence :=
    h.numbers.mem_iff.mp (List.mem_map_of_mem hticket)
  rw [List.mem_range'_1] at hmem
  omega

theorem Orderly.eq_of_sequence (h : Orderly bound line) {first second : Ticket}
    (hfirst : first ∈ line.all) (hsecond : second ∈ line.all)
    (heq : first.sequence = second.sequence) : first = second := by
  have hnodup : (line.all.map Ticket.sequence).Nodup :=
    h.numbers.nodup_iff.mpr List.nodup_range'
  exact List.inj_on_of_nodup_map hnodup hfirst hsecond heq

theorem Line.waiting_all (h : ticket ∈ line.queues.waiting) : ticket ∈ line.all :=
  List.mem_append_left _ h

theorem Line.admitted_all (h : ticket ∈ line.admitted) : ticket ∈ line.all :=
  List.mem_append_right _ (List.mem_append_left _ h)

theorem Orderly.mem_queue (h : Orderly bound line) (hticket : ticket ∈ line.queues.waiting) :
    ticket ∈ line.queues ticket.role := by
  obtain ⟨role, hrole⟩ := Queues.mem_waiting.mp hticket
  rw [h.role_eq role ticket hrole]
  exact hrole

theorem Orderly.pass (h : Orderly bound line) {time : ℚ} (hle : line.now ≤ time) :
    Orderly bound { line with now := time } :=
  { h with queued_le := fun ticket hticket => (h.queued_le ticket hticket).trans hle }

theorem Orderly.arrive (h : Orderly bound line) (role : Role) : Orderly bound (line.arrive role) := by
  have hperm : (line.arrive role).queues.waiting.Perm
      ([⟨role, line.now, 0, line.sequence + 1⟩] ++ line.queues.waiting) :=
    Queues.waiting_set_perm List.perm_append_comm
  have hmem : ∀ ticket ∈ (line.arrive role).queues.waiting,
      ticket ∈ line.queues.waiting ∨ ticket = ⟨role, line.now, 0, line.sequence + 1⟩ := by
    intro ticket hticket
    rcases List.mem_cons.mp (hperm.mem_iff.mp hticket) with hnew | hold
    · exact Or.inr hnew
    · exact Or.inl hold
  have hlt : ∀ ticket ∈ line.all, ticket.sequence < line.sequence + 1 := fun ticket hticket =>
    Nat.lt_succ_of_le (h.sequence_le hticket)
  constructor
  · have hall : (line.arrive role).all.Perm (line.all ++ [⟨role, line.now, 0, line.sequence + 1⟩]) := by
      refine (hperm.append_right _).trans ?_
      rw [List.append_assoc]
      exact List.perm_append_comm
    show List.Perm _ (List.range' 1 (line.sequence + 1))
    rw [List.range'_concat, Nat.one_mul, Nat.add_comm 1]
    refine (hall.map Ticket.sequence).trans ?_
    rw [List.map_append]
    exact h.numbers.append_right _
  · intro other ticket hticket
    unfold Line.arrive Queues.set at hticket
    dsimp only at hticket
    split_ifs at hticket with hother
    · rcases List.mem_append.mp hticket with hold | hnew
      · rw [hother]
        exact h.role_eq role ticket hold
      · rw [List.mem_singleton.mp hnew, hother]
    · exact h.role_eq other ticket hticket
  · intro other
    unfold Line.arrive Queues.set
    dsimp only
    split_ifs with hother
    · rw [List.pairwise_append]
      refine ⟨h.ordered role, List.pairwise_singleton _ _, ?_⟩
      intro ticket hticket last hlast
      rw [List.mem_singleton.mp hlast]
      exact hlt ticket (Line.waiting_all (Queues.mem_waiting.mpr ⟨role, hticket⟩))
    · exact h.ordered other
  · intro ticket hticket
    rcases hmem ticket hticket with hold | rfl
    · exact h.queued_le ticket hold
    · exact le_refl _
  · intro first hfirst second hsecond hle
    rcases hmem second hsecond with hold | rfl
    · rcases hmem first hfirst with hearlier | rfl
      · exact h.times first hearlier second hold hle
      · exact absurd (hlt second (Line.waiting_all hold)) (Nat.not_lt.mpr hle)
    · rcases hmem first hfirst with hearlier | rfl
      · exact h.queued_le first hearlier
      · exact le_refl _
  · refine @Fair.arrive _ _ _ _ _ _ _ h.fair ⟨role, line.now, 0, line.sequence + 1⟩ rfl ?_ ?_ hmem
    · intro other hother
      obtain ⟨ticket, hticket, rfl⟩ := List.mem_map.mp hother
      exact (hlt ticket (Line.admitted_all hticket)).le
    · exact fun ticket hticket => hlt ticket (Line.waiting_all hticket)
  · intro served hserved ticket hticket hrole
    rcases hmem ticket hticket with hold | rfl
    · exact h.fifo served hserved ticket hold hrole
    · exact hlt served (Line.admitted_all hserved)
  · exact h.servedInOrder
  · exact h.overtaken

variable {role : Role}

theorem mem_of_mem_remove {queues : Queues} {gone : Ticket} (h : ticket ∈ queues.remove gone role) :
    ticket ∈ queues role := by
  unfold Queues.remove Queues.set at h
  split_ifs at h with hrole
  · rw [hrole]
    exact List.mem_of_mem_erase h
  · exact h

theorem pairwise_remove {queues : Queues} {gone : Ticket} {rel : Ticket → Ticket → Prop}
    (h : (queues role).Pairwise rel) : (queues.remove gone role).Pairwise rel := by
  unfold Queues.remove Queues.set
  split_ifs with hrole
  · rw [hrole] at h
    exact h.sublist (List.erase_sublist)
  · exact h

theorem Orderly.leave (h : Orderly bound line) (hticket : ticket ∈ line.queues.waiting) :
    Orderly bound (line.leave ticket) := by
  have hsub : ∀ other ∈ (line.leave ticket).queues.waiting, other ∈ line.queues.waiting := by
    intro other hother
    obtain ⟨role, hrole⟩ := Queues.mem_waiting.mp hother
    exact Queues.mem_waiting.mpr ⟨role, mem_of_mem_remove hrole⟩
  constructor
  · have hwaiting := Queues.waiting_remove_perm (h.mem_queue hticket)
    have hall : (line.leave ticket).all.Perm line.all := by
      show List.Perm ((line.queues.remove ticket).waiting ++
        (line.admitted ++ (line.withdrawn ++ [ticket]))) _
      refine List.Perm.trans ?_ (hwaiting.symm.append_right _)
      rw [← List.append_assoc line.admitted, ← List.append_assoc]
      refine List.perm_append_comm.trans ?_
      exact List.Perm.refl _
    exact (hall.map _).trans h.numbers
  · exact fun role other hother => h.role_eq role other (mem_of_mem_remove hother)
  · exact fun role => pairwise_remove (h.ordered role)
  · exact fun other hother => h.queued_le other (hsub other hother)
  · exact fun first hfirst second hsecond => h.times first (hsub first hfirst) second (hsub second hsecond)
  · exact h.fair.leave hsub
  · exact fun served hserved other hother => h.fifo served hserved other (hsub other hother)
  · exact h.servedInOrder
  · exact h.overtaken

theorem Orderly.head_le (h : Orderly bound line) {head : Ticket}
    (hhead : (line.queues role).head? = some head) (hticket : ticket ∈ line.queues role) :
    head.sequence ≤ ticket.sequence := by
  have hordered := h.ordered role
  cases hqueue : line.queues role with
  | nil =>
    rw [hqueue] at hhead
    cases hhead
  | cons first rest =>
    rw [hqueue] at hhead hticket hordered
    cases hhead
    rcases List.mem_cons.mp hticket with rfl | hrest
    · exact le_refl _
    · exact ((List.pairwise_cons.mp hordered).1 ticket hrest).le

theorem mem_of_head? {head : Ticket} (h : (line.queues role).head? = some head) :
    head ∈ line.queues.waiting :=
  Queues.mem_waiting.mpr ⟨role, List.mem_of_head? h⟩

theorem Orderly.front (h : Orderly bound line) {first : Ticket}
    (hfirst : (line.queues role).head? = some first)
    (hleast : ∀ role head, (line.queues role).head? = some head → first.key ≤ head.key) :
    ∀ ticket ∈ line.queues.waiting, first.sequence ≤ ticket.sequence := by
  intro ticket hticket
  obtain ⟨other, hother⟩ := Queues.mem_waiting.mp hticket
  cases hhead : (line.queues other).head? with
  | none =>
    rw [List.head?_eq_none_iff] at hhead
    rw [hhead] at hother
    cases hother
  | some head =>
    refine le_trans ?_ (h.head_le hhead hother)
    by_contra hlt
    -- The head came first, so it was queued no later, and its key is less.
    have hlt := Nat.not_le.mp hlt
    have htimes := h.times head (mem_of_head? hhead) first (mem_of_head? hfirst) hlt.le
    have hkey := hleast other head hhead
    unfold Ticket.key at hkey
    rw [Prod.Lex.toLex_le_toLex] at hkey
    rcases hkey with hkey | ⟨-, hkey⟩
    · exact absurd htimes (not_le.mpr hkey)
    · omega

theorem Orderly.serve (h : Orderly bound line) (hnext : line.queues.nextTicket bound = some ticket) :
    Orderly bound (line.serve ticket) := by
  obtain ⟨⟨role, hhead⟩, first, ⟨other, hfirst⟩, hleast, hturn⟩ := Queues.nextTicket_spec hnext
  have hticket := mem_of_head? hhead
  have hrole : role = ticket.role := (h.role_eq role ticket (List.mem_of_head? hhead)).symm
  rw [hrole] at hhead
  have hbefore : ∀ later role, later ∈ (line.serve ticket).queues role →
      ∃ before ∈ line.queues role, before ≠ ticket ∧ later = before.bypassed := by
    intro later role hlater
    obtain ⟨before, hmem, rfl⟩ := List.mem_map.mp hlater
    refine ⟨before, mem_of_mem_remove hmem, ?_, rfl⟩
    rintro rfl
    unfold Queues.remove Queues.set at hmem
    split_ifs at hmem with hsame
    · have hnodup : (line.queues before.role).Nodup := by
        refine List.Pairwise.imp ?_ (h.ordered before.role)
        rintro a b hlt rfl
        exact lt_irrefl _ hlt
      exact absurd hmem (hnodup.not_mem_erase)
    · exact hsame (h.role_eq role before hmem).symm
  have hwaiting : ∀ later ∈ (line.serve ticket).queues.waiting,
      ∃ before ∈ line.queues.waiting, before ≠ ticket ∧ later = before.bypassed := by
    intro later hlater
    obtain ⟨role, hmem⟩ := Queues.mem_waiting.mp hlater
    obtain ⟨before, hbefore, hne, heq⟩ := hbefore later role hmem
    exact ⟨before, Queues.mem_waiting.mpr ⟨role, hbefore⟩, hne, heq⟩
  have hlast : ∀ served ∈ line.admitted, served.role = ticket.role →
      served.sequence < ticket.sequence := fun served hserved => h.fifo served hserved ticket hticket
  constructor
  · have hremove := Queues.waiting_remove_perm (h.mem_queue hticket)
    have hmap : (line.serve ticket).queues.waiting.map Ticket.sequence =
        (line.queues.remove ticket).waiting.map Ticket.sequence := by
      show ((line.queues.dequeue ticket).waiting).map Ticket.sequence = _
      rw [Queues.waiting_dequeue, List.map_map]
      rfl
    refine List.Perm.trans ?_ h.numbers
    show List.Perm (((line.serve ticket).queues.waiting ++
      ((line.admitted ++ [ticket]) ++ line.withdrawn)).map Ticket.sequence) _
    rw [List.map_append, hmap, ← List.map_append]
    apply List.Perm.map
    refine List.Perm.trans ?_ (hremove.symm.append_right _)
    rw [List.append_assoc line.admitted, List.singleton_append, List.cons_append]
    refine List.Perm.trans (List.Perm.append_left _ List.perm_middle) ?_
    exact List.perm_middle
  · intro role later hlater
    obtain ⟨before, hmem, -, rfl⟩ := hbefore later role hlater
    exact h.role_eq role before hmem
  · intro role
    show ((line.queues.remove ticket role).map Ticket.bypassed).Pairwise _
    rw [List.pairwise_map]
    exact pairwise_remove (h.ordered role)
  · intro later hlater
    obtain ⟨before, hmem, -, rfl⟩ := hwaiting later hlater
    exact h.queued_le before hmem
  · intro later hlater other hother hle
    obtain ⟨before, hmem, -, rfl⟩ := hwaiting later hlater
    obtain ⟨before', hmem', -, rfl⟩ := hwaiting other hother
    exact h.times before hmem before' hmem' hle
  · show Fair _ _ _ _ ((line.admitted ++ [ticket]).map Ticket.sequence)
    rw [List.map_append]
    refine h.fair.serve (mem_of_head? hfirst) (h.front hfirst hleast) ?_ ?_
    · rcases hturn with rfl | hturn
      · exact Or.inl rfl
      · exact Or.inr hturn
    · intro later hlater
      obtain ⟨before, hmem, -, rfl⟩ := hwaiting later hlater
      exact ⟨before, hmem, rfl, rfl⟩
  · intro served hserved later hlater hsame
    obtain ⟨before, hmem, hne, rfl⟩ := hwaiting later hlater
    rcases List.mem_append.mp hserved with hold | hnew
    · exact h.fifo served hold before hmem hsame
    · rw [List.mem_singleton.mp hnew] at hsame ⊢
      have hqueue := h.mem_queue hmem
      have hle : ticket.sequence ≤ before.sequence := by
        apply h.head_le hhead
        rw [hsame]
        exact hqueue
      refine lt_of_le_of_ne hle ?_
      intro heq
      exact hne (h.eq_of_sequence (Line.waiting_all hmem) (Line.waiting_all hticket) heq.symm)
  · show (line.admitted ++ [ticket]).Pairwise _
    rw [List.pairwise_append]
    refine ⟨h.servedInOrder, List.pairwise_singleton _ _, ?_⟩
    intro served hserved last hlater hsame
    rw [List.mem_singleton.mp hlater] at hsame ⊢
    exact hlast served hserved hsame
  · intro front chosen back hsplit
    rcases List.eq_nil_or_concat back with rfl | ⟨back, last, rfl⟩
    · -- The one that is served now.
      obtain ⟨hfront, hchosen⟩ := List.append_inj' hsplit rfl
      cases hchosen
      rw [← hfront]
      exact h.fair.bounded ticket hticket
    · rw [List.concat_eq_append, ← List.cons_append, ← List.append_assoc] at hsplit
      obtain ⟨hfront, -⟩ := List.append_inj' hsplit rfl
      exact h.overtaken front chosen back hfront

theorem LineStep.orderly {line' : Line} (hstep : LineStep bound line line')
    (h : Orderly bound line) : Orderly bound line' := by
  cases hstep with
  | pass hle => exact h.pass hle
  | arrive role => exact h.arrive role
  | leave hwaits => exact h.leave hwaits
  | serve hnext => exact h.serve hnext

/-- An empty line is in order. -/
theorem orderly_empty (bound : Nat) (now : ℚ) :
    Orderly bound ⟨fun _ => [], 0, now, [], []⟩ := by
  have hnone : ∀ ticket, ticket ∉ Queues.waiting fun _ => [] := by
    intro ticket hticket
    obtain ⟨role, hrole⟩ := Queues.mem_waiting.mp hticket
    cases hrole
  constructor
  · exact List.Perm.refl _
  · exact fun role ticket hticket => absurd hticket List.not_mem_nil
  · exact fun role => List.Pairwise.nil
  · exact fun ticket hticket => absurd hticket (hnone ticket)
  · exact fun ticket hticket => absurd hticket (hnone ticket)
  · exact Fair.nil _ _ _ _
  · exact fun served hserved => absurd hserved List.not_mem_nil
  · exact List.Pairwise.nil
  · intro front ticket back hsplit
    exact absurd hsplit.symm (List.append_ne_nil_of_right_ne_nil _ (List.cons_ne_nil _ _))

end Steps

end ProofOps.Adapters.Local.ProviderScheduler
