/-
**A queue of uploads, step by step.**

Those who submit atlases, those who hold tickets and the owner all work at the same time.  What one
of them does at once is small: an atlas enters the queue or leaves it, it is uploaded, its outcome
is left for the holder of its ticket, an outcome is asked for.  The owner uploads what waits, one
atlas after the other, and others may act between any two of its steps: while it uploads what is
pending, further atlases arrive and are uploaded as well.  A holder who waits is held up until there
is an outcome or there can be none; one who throws a ticket away does nothing that anyone could see.

Main definitions:

* `Handoff.Work`, `Handoff.Hand`, `Handoff.Moment` — what the owner is at, the task in its hands,
  and the whole situation;
* `Handoff.Event`, `Handoff.Step`, `Handoff.Steps` — what can happen, and when;
* `Handoff.Moment.openTickets`, `Handoff.Moment.Consistent` — the tickets without an outcome, and
  the invariant that these are the ones whose tasks are still there;
* `Handoff.Life`, `Handoff.Flow` — what an event means to a single ticket, and to the queue.

Main results:

* `Handoff.Step.consistent` — every step keeps the invariant;
* `Handoff.Step.life` — **the life of a ticket**: given out, answered or lost, and taken once;
* `Handoff.Step.flow` — **the flow of tasks**: they leave in the order in which they came;
* `Handoff.processPending_steps`, `Handoff.run_steps`, `Handoff.upload_steps` — what is done at once
  is the same as what is done step by step while nobody else does anything.
-/
import Mathlib.Data.List.Basic
import VoxelBake.Handoff

set_option relaxedAutoImplicit false
set_option autoImplicit false

namespace VoxelBake.Handoff

variable {σ β : Type}

/-! ### Situations -/

/-- What the owner is at. -/
inductive Work
  /-- Nothing. -/
  | idle
  /-- It uploads what is pending, and has uploaded so many. -/
  | pending (count : Nat)
  /-- It uploads until no sender is left. -/
  | serving

/-- So many more atlases uploaded. -/
def Work.add : Work → Nat → Work
  | idle, _ => idle
  | pending count, n => pending (count + n)
  | serving, _ => serving

/-- The task in the hands of the owner. -/
inductive Hand (β : Type)
  | empty
  /-- Taken out of the queue. -/
  | taken (ticket : Nat) (atlas : β)
  /-- Uploaded, its outcome not yet left. -/
  | uploaded (ticket : Nat) (outcome : Outcome)

/-- The queue, what the owner is at, and what it has in its hands. -/
structure Moment (σ β : Type) where
  handoff : Handoff σ β
  work : Work
  hand : Hand β

namespace Moment

/-- An owner who does nothing. -/
def resting (h : Handoff σ β) : Moment σ β := ⟨h, .idle, .empty⟩

/-- An owner with an empty queue and one sender. -/
def start (owner : σ) : Moment σ β := resting (Handoff.start owner)

end Moment

/-! ### Events -/

/-- What can happen.  Events carry the answers that were given. -/
inductive Event (σ β : Type)
  | submit (atlas : β) (answer : Except HandoffFault Nat)
  | addSender
  | dropSender
  | poll (ticket : Nat) (found : Option Outcome)
  | wait (ticket : Nat) (outcome : Outcome)
  | beginPending
  | endPending (count : Nat)
  | beginRun
  | endRun (owner : σ)
  | take (ticket : Nat) (atlas : β)
  | upload (ticket : Nat) (atlas : β) (outcome : Outcome)
  | reply (ticket : Nat) (outcome : Outcome)
  | dropOwner

/-- Somebody holds this ticket. -/
def Held (h : Handoff σ β) (ticket : Nat) : Prop :=
  ∃ reply, h.replies[ticket]? = some reply ∧ reply ≠ .returned

/-- One event, and when it can happen. -/
inductive Step (uploader : Uploader σ β) : Moment σ β → Event σ β → Moment σ β → Prop
  | submit {m : Moment σ β} (atlas : β) (hsender : 0 < m.handoff.senders) :
      Step uploader m (.submit atlas (m.handoff.submit atlas).1)
        { m with handoff := (m.handoff.submit atlas).2 }
  | addSender {m : Moment σ β} (hsender : 0 < m.handoff.senders) :
      Step uploader m .addSender { m with handoff := m.handoff.addSender }
  | dropSender {m : Moment σ β} (hsender : 0 < m.handoff.senders) :
      Step uploader m .dropSender { m with handoff := m.handoff.dropSender }
  | poll {m : Moment σ β} {ticket : Nat} (hheld : m.handoff.Held ticket) :
      Step uploader m (.poll ticket (m.handoff.poll ticket).1)
        { m with handoff := (m.handoff.poll ticket).2 }
  | wait {m : Moment σ β} {ticket : Nat} {outcome : Outcome}
      (hready : (m.handoff.wait ticket).1 = some outcome) :
      Step uploader m (.wait ticket outcome) { m with handoff := (m.handoff.wait ticket).2 }
  | beginPending {m : Moment σ β} (howner : m.handoff.owner.isSome = true)
      (hidle : m.work = .idle) :
      Step uploader m .beginPending { m with work := .pending 0 }
  | beginRun {m : Moment σ β} (howner : m.handoff.owner.isSome = true) (hidle : m.work = .idle) :
      Step uploader m .beginRun { m with work := .serving }
  | take {m : Moment σ β} {ticket : Nat} {atlas : β} {rest : List (Nat × β)}
      (hbusy : m.work ≠ .idle) (hhand : m.hand = .empty)
      (hwaiting : m.handoff.waiting = (ticket, atlas) :: rest) :
      Step uploader m (.take ticket atlas)
        { m with handoff := { m.handoff with waiting := rest }, hand := .taken ticket atlas }
  | upload {m : Moment σ β} {ticket : Nat} {atlas : β} {owner : σ}
      (howner : m.handoff.owner = some owner) (hhand : m.hand = .taken ticket atlas) :
      Step uploader m (.upload ticket atlas (uploader owner atlas).1)
        { m with
          handoff := { m.handoff with owner := some (uploader owner atlas).2 }
          hand := .uploaded ticket (uploader owner atlas).1 }
  | reply {m : Moment σ β} {ticket : Nat} {outcome : Outcome}
      (hhand : m.hand = .uploaded ticket outcome) :
      Step uploader m (.reply ticket outcome)
        { handoff :=
            { m.handoff with replies := m.handoff.replies.set ticket (.ready outcome) }
          work := m.work.add 1
          hand := .empty }
  | endPending {m : Moment σ β} {count : Nat} (hwork : m.work = .pending count)
      (hhand : m.hand = .empty) (hwaiting : m.handoff.waiting = []) :
      Step uploader m (.endPending count) { m with work := .idle }
  | endRun {m : Moment σ β} {owner : σ} (howner : m.handoff.owner = some owner)
      (hwork : m.work = .serving) (hhand : m.hand = .empty) (hwaiting : m.handoff.waiting = [])
      (hsenders : m.handoff.senders = 0) :
      Step uploader m (.endRun owner)
        { m with handoff := { m.handoff with owner := none }, work := .idle }
  | dropOwner {m : Moment σ β} (howner : m.handoff.owner.isSome = true) (hidle : m.work = .idle) :
      Step uploader m .dropOwner { m with handoff := m.handoff.dropOwner }

/-- One event after another. -/
inductive Steps (uploader : Uploader σ β) : Moment σ β → List (Event σ β) → Moment σ β → Prop
  | nil {m : Moment σ β} : Steps uploader m [] m
  | cons {m m' m'' : Moment σ β} {e : Event σ β} {es : List (Event σ β)}
      (hstep : Step uploader m e m') (hrest : Steps uploader m' es m'') :
      Steps uploader m (e :: es) m''

variable {uploader : Uploader σ β} {m m' m'' : Moment σ β} {e : Event σ β}
  {es fs : List (Event σ β)}

namespace Steps

theorem append (h : Steps uploader m es m') (h' : Steps uploader m' fs m'') :
    Steps uploader m (es ++ fs) m'' := by
  induction h with
  | nil => exact h'
  | cons hstep _ ih => exact .cons hstep (ih h')

/-- A history can be cut anywhere. -/
theorem append_iff :
    Steps uploader m (es ++ fs) m'' ↔ ∃ m', Steps uploader m es m' ∧ Steps uploader m' fs m'' := by
  constructor
  · intro h
    induction es generalizing m with
    | nil => exact ⟨m, .nil, h⟩
    | cons e es ih =>
        cases h with
        | cons hstep hrest =>
            obtain ⟨m', hes, hfs⟩ := ih hrest
            exact ⟨m', .cons hstep hes, hfs⟩
  · rintro ⟨m', hes, hfs⟩
    exact hes.append hfs

theorem cons_iff :
    Steps uploader m (e :: es) m'' ↔ ∃ m', Step uploader m e m' ∧ Steps uploader m' es m'' := by
  constructor
  · intro h
    cases h with
    | cons hstep hrest => exact ⟨_, hstep, hrest⟩
  · rintro ⟨m', hstep, hrest⟩
    exact .cons hstep hrest

theorem nil_iff : Steps uploader m [] m' ↔ m = m' := by
  constructor
  · intro h
    cases h
    rfl
  · rintro rfl
    exact .nil

theorem concat_iff :
    Steps uploader m (es ++ [e]) m'' ↔ ∃ m', Steps uploader m es m' ∧ Step uploader m' e m'' := by
  simp only [append_iff, cons_iff, nil_iff, exists_eq_right]

/-- A history cut at one of its events. -/
theorem cut (h : Steps uploader m (es ++ e :: fs) m') :
    ∃ m₁ m₂, Steps uploader m es m₁ ∧ Step uploader m₁ e m₂ ∧ Steps uploader m₂ fs m' := by
  obtain ⟨m₁, hes, hrest⟩ := append_iff.mp h
  obtain ⟨m₂, hstep, hfs⟩ := cons_iff.mp hrest
  exact ⟨m₁, m₂, hes, hstep, hfs⟩

/-- What one step keeps, all steps keep. -/
theorem invariant {P : Moment σ β → Prop}
    (hstep : ∀ {m e m'}, Step uploader m e m' → P m → P m') (h : Steps uploader m es m')
    (hm : P m) : P m' := by
  induction h with
  | nil => exact hm
  | cons hs _ ih => exact ih (hstep hs hm)

end Steps

/-! ### Open tickets -/

theorem getElem?_closeAll (replies : List Reply) (waiting : List (Nat × β)) (t : Nat) :
    (closeAll replies waiting)[t]? =
      if t ∈ waiting.map Prod.fst then replies[t]?.map fun _ => .closed else replies[t]? := by
  induction waiting generalizing replies with
  | nil => rfl
  | cons task rest ih =>
      have hcons : closeAll replies (task :: rest) = closeAll (replies.set task.1 .closed) rest :=
        rfl
      rw [hcons, ih, List.getElem?_set]
      by_cases hfirst : task.1 = t
      · subst hfirst
        by_cases hlt : task.1 < replies.length
        · simp [hlt]
        · simp [hlt]
      · have hmem : t ∈ (task :: rest).map Prod.fst ↔ t ∈ rest.map Prod.fst := by
          simp [Ne.symm hfirst]
        rw [if_neg hfirst]
        exact (if_congr hmem rfl rfl).symm

/-- The ticket of the task in hand. -/
def Hand.tickets : Hand β → List Nat
  | empty => []
  | taken ticket _ => [ticket]
  | uploaded ticket _ => [ticket]

/-- The tickets whose tasks are still there, the next one to be answered first. -/
def Moment.openTickets (m : Moment σ β) : List Nat :=
  m.hand.tickets ++ m.handoff.waiting.map Prod.fst

/-- What holds between any two steps. -/
structure Moment.Consistent (m : Moment σ β) : Prop where
  pending_iff : ∀ t, m.handoff.replies[t]? = some .pending ↔ t ∈ m.openTickets
  nodup : m.openTickets.Nodup
  hand_of_idle : m.work = .idle → m.hand = .empty
  idle_of_ownerless : m.handoff.owner = none → m.work = .idle
  waiting_of_ownerless : m.handoff.owner = none → m.handoff.waiting = []

/-- A ticket that is not open may get any other reply. -/
theorem pending_set_iff {replies : List Reply} {tickets : List Nat} {r : Reply}
    (h : ∀ t, replies[t]? = some .pending ↔ t ∈ tickets) {ticket : Nat} (hopen : ticket ∉ tickets)
    (hr : r ≠ .pending) (t : Nat) :
    (replies.set ticket r)[t]? = some .pending ↔ t ∈ tickets := by
  rw [List.getElem?_set]
  split
  · next heq =>
      subst heq
      simp [hopen, hr]
  · exact h t

namespace Moment.Consistent

theorem start (owner : σ) : (Moment.start owner : Moment σ β).Consistent where
  pending_iff t := by simp [Moment.start, resting, Handoff.start, openTickets, Hand.tickets]
  nodup := List.nodup_nil
  hand_of_idle _ := rfl
  idle_of_ownerless h := nomatch h
  waiting_of_ownerless h := nomatch h

theorem lt_of_open (h : m.Consistent) {t : Nat} (ht : t ∈ m.openTickets) :
    t < m.handoff.replies.length := by
  have hreply := (h.pending_iff t).mpr ht
  exact (List.getElem?_eq_some_iff.mp hreply).1

theorem eq_resting (h : m.Consistent) (hidle : m.work = .idle) : m = .resting m.handoff := by
  rw [Moment.resting, ← hidle, ← h.hand_of_idle hidle]

theorem openTickets_of_idle (h : m.Consistent) (hidle : m.work = .idle) :
    m.openTickets = m.handoff.waiting.map Prod.fst := by
  simp [openTickets, Hand.tickets, h.hand_of_idle hidle]

theorem openTickets_of_ownerless (h : m.Consistent) (howner : m.handoff.owner = none) :
    m.openTickets = [] := by
  rw [h.openTickets_of_idle (h.idle_of_ownerless howner), h.waiting_of_ownerless howner]
  rfl

theorem submit (h : m.Consistent) (atlas : β) :
    Moment.Consistent { m with handoff := (m.handoff.submit atlas).2 } := by
  cases howner : m.handoff.owner with
  | none => simpa [Handoff.submit, howner] using h
  | some owner =>
      have hopen : openTickets { m with handoff := (m.handoff.submit atlas).2 } =
          m.openTickets ++ [m.handoff.replies.length] := by
        simp [Handoff.submit, howner, openTickets]
      have hfresh : m.handoff.replies.length ∉ m.openTickets :=
        fun hmem => Nat.lt_irrefl _ (h.lt_of_open hmem)
      constructor
      · intro t
        rw [hopen]
        simp only [Handoff.submit, howner, List.mem_append, List.mem_singleton]
        rcases Nat.lt_trichotomy t m.handoff.replies.length with hlt | heq | hgt
        · have hne : t ≠ m.handoff.replies.length := by omega
          rw [List.getElem?_append_left hlt, h.pending_iff t]
          simp [hne]
        · simp [heq]
        · have hclosed : t ∉ m.openTickets := fun hmem => by
            have := h.lt_of_open hmem
            omega
          have hne : t ≠ m.handoff.replies.length := by omega
          rw [List.getElem?_eq_none (by simp; omega)]
          simp [hclosed, hne]
      · rw [hopen]
        refine List.nodup_append.mpr ⟨h.nodup, by simp, ?_⟩
        rintro t ht _ hlast rfl
        rw [List.mem_singleton] at hlast
        exact hfresh (hlast ▸ ht)
      · exact h.hand_of_idle
      · intro hnone
        simp [Handoff.submit, howner] at hnone
      · intro hnone
        simp [Handoff.submit, howner] at hnone

/-- A reply that was there is replaced by another one. -/
theorem set (h : m.Consistent) {ticket : Nat} {old r : Reply}
    (hold : m.handoff.replies[ticket]? = some old) (hwas : old ≠ .pending) (hr : r ≠ .pending) :
    Moment.Consistent
      { m with handoff := { m.handoff with replies := m.handoff.replies.set ticket r } } where
  pending_iff := by
    refine pending_set_iff h.pending_iff ?_ hr
    intro hopen
    rw [(h.pending_iff ticket).mpr hopen] at hold
    exact hwas (Option.some.inj hold).symm
  nodup := h.nodup
  hand_of_idle := h.hand_of_idle
  idle_of_ownerless := h.idle_of_ownerless
  waiting_of_ownerless := h.waiting_of_ownerless

theorem reply (h : m.Consistent) {ticket : Nat} {outcome : Outcome}
    (hhand : m.hand = .uploaded ticket outcome) :
    Moment.Consistent
      { handoff := { m.handoff with replies := m.handoff.replies.set ticket (.ready outcome) }
        work := m.work.add 1
        hand := .empty } := by
  have hopen : m.openTickets = ticket :: m.handoff.waiting.map Prod.fst := by
    simp [openTickets, Hand.tickets, hhand]
  have hnodup := h.nodup
  rw [hopen, List.nodup_cons] at hnodup
  have hlt : ticket < m.handoff.replies.length := h.lt_of_open (by simp [hopen])
  constructor
  · intro t
    have hpending := h.pending_iff t
    rw [hopen, List.mem_cons] at hpending
    change (m.handoff.replies.set ticket (.ready outcome))[t]? = some .pending ↔
      t ∈ m.handoff.waiting.map Prod.fst
    by_cases heq : t = ticket
    · subst heq
      rw [List.getElem?_set_self hlt]
      simp only [Option.some.injEq, reduceCtorEq, false_iff]
      exact hnodup.1
    · rw [List.getElem?_set_ne (Ne.symm heq), hpending]
      simp only [heq, false_or]
  · exact hnodup.2
  · intro _
    rfl
  · intro hnone
    simp [h.hand_of_idle (h.idle_of_ownerless hnone)] at hhand
  · exact h.waiting_of_ownerless

theorem dropOwner (h : m.Consistent) (hidle : m.work = .idle) :
    Moment.Consistent { m with handoff := m.handoff.dropOwner } := by
  have hempty : openTickets { m with handoff := m.handoff.dropOwner } = [] := by
    simp [openTickets, Hand.tickets, h.hand_of_idle hidle, Handoff.dropOwner]
  refine ⟨?_, ?_, fun _ => h.hand_of_idle hidle, fun _ => hidle, fun _ => rfl⟩
  · intro t
    rw [hempty]
    simp only [Handoff.dropOwner, getElem?_closeAll, ← h.openTickets_of_idle hidle]
    by_cases ht : t ∈ m.openTickets
    · simp [ht]
    · simp [ht, h.pending_iff]
  · rw [hempty]
    exact List.nodup_nil

end Moment.Consistent

/-- **The open tickets stay the pending ones**, whatever happens. -/
theorem Step.consistent (hstep : Step uploader m e m') (h : m.Consistent) : m'.Consistent := by
  cases hstep with
  | submit atlas _ => exact h.submit atlas
  | addSender _ => exact { h with }
  | dropSender _ => exact { h with }
  | poll _ =>
      unfold Handoff.poll
      split
      · next hready => exact h.set hready (by simp) (by simp)
      · exact h
  | wait _ =>
      unfold Handoff.wait
      split
      · next hreply => exact h.set hreply (by simp) (by simp)
      · next hreply => exact h.set hreply (by simp) (by simp)
      · exact h
  | beginPending howner _ =>
      refine { h with hand_of_idle := nofun, idle_of_ownerless := ?_ }
      intro hnone
      simp [show m.handoff.owner = none from hnone] at howner
  | beginRun howner _ =>
      refine { h with hand_of_idle := nofun, idle_of_ownerless := ?_ }
      intro hnone
      simp [show m.handoff.owner = none from hnone] at howner
  | @take ticket _ rest hbusy hhand hwaiting =>
      have hopen : m.openTickets = ticket :: rest.map Prod.fst := by
        simp [Moment.openTickets, Hand.tickets, hhand, hwaiting]
      have hnodup := h.nodup
      rw [hopen] at hnodup
      refine ⟨fun t => (h.pending_iff t).trans (by rw [hopen]; rfl), hnodup, ?_,
        h.idle_of_ownerless, ?_⟩
      · intro hidle
        exact absurd hidle hbusy
      · intro hnone
        simp [h.waiting_of_ownerless hnone] at hwaiting
  | @upload ticket _ _ howner hhand =>
      have hopen : m.openTickets = ticket :: m.handoff.waiting.map Prod.fst := by
        simp [Moment.openTickets, Hand.tickets, hhand]
      have hnodup := h.nodup
      rw [hopen] at hnodup
      refine ⟨fun t => (h.pending_iff t).trans (by rw [hopen]; rfl), hnodup, ?_, nofun, nofun⟩
      intro hidle
      simp [h.hand_of_idle hidle] at hhand
  | reply hhand => exact h.reply hhand
  | endPending _ hhand hwaiting =>
      exact { h with
        hand_of_idle := fun _ => hhand
        idle_of_ownerless := fun _ => rfl }
  | endRun _ _ hhand hwaiting _ =>
      exact { h with
        hand_of_idle := fun _ => hhand
        idle_of_ownerless := fun _ => rfl
        waiting_of_ownerless := fun _ => hwaiting }
  | dropOwner _ hidle => exact h.dropOwner hidle

theorem Steps.consistent (h : Steps uploader m es m') (hm : m.Consistent) : m'.Consistent :=
  h.invariant Step.consistent hm

/-! ### The life of a ticket -/

theorem getElem?_submit_of_ne (h : Handoff σ β) (atlas : β) {t : Nat}
    (hne : t ≠ h.replies.length) : (h.submit atlas).2.replies[t]? = h.replies[t]? := by
  unfold Handoff.submit
  split
  · rfl
  · rcases Nat.lt_or_gt_of_ne hne with hlt | hgt
    · exact List.getElem?_append_left hlt
    · change (h.replies ++ [.pending])[t]? = h.replies[t]?
      rw [List.getElem?_eq_none (by simp; omega), List.getElem?_eq_none (by omega)]

theorem getElem?_poll_of_ne (h : Handoff σ β) {ticket t : Nat} (hne : ticket ≠ t) :
    (h.poll ticket).2.replies[t]? = h.replies[t]? := by
  unfold Handoff.poll
  split
  · exact List.getElem?_set_ne hne
  · rfl

theorem getElem?_wait_of_ne (h : Handoff σ β) {ticket t : Nat} (hne : ticket ≠ t) :
    (h.wait ticket).2.replies[t]? = h.replies[t]? := by
  unfold Handoff.wait
  split
  · exact List.getElem?_set_ne hne
  · exact List.getElem?_set_ne hne
  · rfl

/-- The ticket whose reply an event reads or changes. -/
def Event.ticket? : Event σ β → Option Nat
  | submit _ (.ok ticket) => some ticket
  | poll ticket _ => some ticket
  | wait ticket _ => some ticket
  | reply ticket _ => some ticket
  | _ => none

/-- What one event does to the reply of a ticket. -/
inductive Life (t : Nat) : Option Reply → Event σ β → Option Reply → Prop
  | given (atlas : β) : Life t none (.submit atlas (.ok t)) (some .pending)
  | answered (outcome : Outcome) :
      Life t (some .pending) (.reply t outcome) (some (.ready outcome))
  | lost : Life t (some .pending) .dropOwner (some .closed)
  | taken (outcome : Outcome) :
      Life t (some (.ready outcome)) (.poll t (some outcome)) (some .closed)
  | refused {r : Reply} (hr : r = .pending ∨ r = .closed) :
      Life t (some r) (.poll t none) (some r)
  | collected (outcome : Outcome) :
      Life t (some (.ready outcome)) (.wait t outcome) (some .returned)
  | disappointed : Life t (some .closed) (.wait t (.error .dropped)) (some .returned)
  | elsewhere {r : Option Reply} {e : Event σ β} (hticket : e.ticket? ≠ some t)
      (hlost : e = .dropOwner → r ≠ some .pending) : Life t r e r

/-- **Every ticket lives its life**, whatever happens. -/
theorem Step.life (hstep : Step uploader m e m') (h : m.Consistent) (t : Nat) :
    Life t m.handoff.replies[t]? e m'.handoff.replies[t]? := by
  cases hstep with
  | submit atlas _ =>
      by_cases heq : t = m.handoff.replies.length
      · cases howner : m.handoff.owner with
        | none =>
            simp only [Handoff.submit, howner]
            exact .elsewhere nofun nofun
        | some owner =>
            simp only [Handoff.submit, howner, heq, List.getElem?_concat_length]
            rw [List.getElem?_eq_none (Nat.le_refl _)]
            exact .given atlas
      · rw [getElem?_submit_of_ne _ _ heq]
        refine .elsewhere ?_ nofun
        unfold Handoff.submit
        split
        · nofun
        · exact fun h => heq (Option.some.inj h).symm
  | @poll ticket hheld =>
      by_cases heq : ticket = t
      · subst heq
        obtain ⟨reply, hreply, hheld⟩ := hheld
        unfold Handoff.poll
        split
        · next outcome hready =>
            have hlt := (List.getElem?_eq_some_iff.mp hready).1
            rw [hready, List.getElem?_set_self hlt]
            exact .taken outcome
        · next hother =>
            rw [hreply] at hother ⊢
            cases reply with
            | pending => exact .refused (.inl rfl)
            | closed => exact .refused (.inr rfl)
            | ready outcome => exact absurd rfl (hother outcome)
            | returned => exact absurd rfl hheld
      · rw [getElem?_poll_of_ne _ heq]
        exact .elsewhere (fun h => heq (Option.some.inj h)) nofun
  | @wait ticket outcome hready =>
      by_cases heq : ticket = t
      · subst heq
        unfold Handoff.wait at hready ⊢
        split at hready
        · next hreply =>
            obtain rfl := Option.some.inj hready
            have hlt := (List.getElem?_eq_some_iff.mp hreply).1
            simp only [hreply, List.getElem?_set_self hlt]
            exact .collected _
        · next hreply =>
            obtain rfl := Option.some.inj hready
            have hlt := (List.getElem?_eq_some_iff.mp hreply).1
            simp only [hreply, List.getElem?_set_self hlt]
            exact .disappointed
        · nomatch hready
      · rw [getElem?_wait_of_ne _ heq]
        exact .elsewhere (fun h => heq (Option.some.inj h)) nofun
  | @reply ticket outcome hhand =>
      by_cases heq : ticket = t
      · subst heq
        have hpending : m.handoff.replies[ticket]? = some .pending :=
          (h.pending_iff ticket).mpr (by simp [Moment.openTickets, Hand.tickets, hhand])
        have hlt := (List.getElem?_eq_some_iff.mp hpending).1
        simp only [hpending, List.getElem?_set_self hlt]
        exact .answered outcome
      · simp only [List.getElem?_set_ne heq]
        exact .elsewhere (fun h => heq (Option.some.inj h)) nofun
  | dropOwner _ hidle =>
      simp only [Handoff.dropOwner, getElem?_closeAll, ← h.openTickets_of_idle hidle]
      by_cases ht : t ∈ m.openTickets
      · rw [if_pos ht, (h.pending_iff t).mpr ht]
        exact .lost
      · rw [if_neg ht]
        exact .elsewhere nofun fun _ hpending => ht ((h.pending_iff t).mp hpending)
  | addSender _ => exact .elsewhere nofun nofun
  | dropSender _ => exact .elsewhere nofun nofun
  | beginPending _ _ => exact .elsewhere nofun nofun
  | beginRun _ _ => exact .elsewhere nofun nofun
  | take _ _ _ => exact .elsewhere nofun nofun
  | upload _ _ => exact .elsewhere nofun nofun
  | endPending _ _ _ => exact .elsewhere nofun nofun
  | endRun _ _ _ _ _ => exact .elsewhere nofun nofun

/-! ### The flow of tasks -/

/-- The task in the hands of the owner, as long as it is not uploaded. -/
def Hand.tasks : Hand β → List (Nat × β)
  | taken ticket atlas => [(ticket, atlas)]
  | _ => []

/-- The tasks still to be uploaded, the next one first. -/
def Moment.tasks (m : Moment σ β) : List (Nat × β) := m.hand.tasks ++ m.handoff.waiting

/-- Nothing about tasks and owner. -/
def Event.Quiet : Event σ β → Prop
  | submit _ _ => False
  | upload _ _ _ => False
  | endRun _ => False
  | dropOwner => False
  | _ => True

/-- What one event does to the owner, the tasks to be uploaded and the number of tickets. -/
inductive Flow (uploader : Uploader σ β) :
    Option σ → List (Nat × β) → Nat → Event σ β → Option σ → List (Nat × β) → Nat → Prop
  | accepted {owner : σ} {tasks : List (Nat × β)} {n : Nat} (atlas : β) :
      Flow uploader (some owner) tasks n (.submit atlas (.ok n))
        (some owner) (tasks ++ [(n, atlas)]) (n + 1)
  | refused {n : Nat} (atlas : β) :
      Flow uploader none [] n (.submit atlas (.error .ownerGone)) none [] n
  | uploaded {owner : σ} {tasks : List (Nat × β)} {n : Nat} (ticket : Nat) (atlas : β) :
      Flow uploader (some owner) ((ticket, atlas) :: tasks) n
        (.upload ticket atlas (uploader owner atlas).1) (some (uploader owner atlas).2) tasks n
  | finished {owner : σ} {n : Nat} :
      Flow uploader (some owner) [] n (.endRun owner) none [] n
  | dropped {owner : σ} {tasks : List (Nat × β)} {n : Nat} :
      Flow uploader (some owner) tasks n .dropOwner none [] n
  | quiet {owner : Option σ} {tasks : List (Nat × β)} {n : Nat} {e : Event σ β}
      (hquiet : e.Quiet) : Flow uploader owner tasks n e owner tasks n

theorem Moment.Consistent.tasks_of_ownerless (h : m.Consistent)
    (howner : m.handoff.owner = none) : m.tasks = [] := by
  simp [Moment.tasks, Hand.tasks, h.hand_of_idle (h.idle_of_ownerless howner),
    h.waiting_of_ownerless howner]

theorem poll_spec (h : Handoff σ β) (ticket : Nat) :
    ∃ replies, (h.poll ticket).2 = { h with replies := replies } ∧
      replies.length = h.replies.length := by
  unfold Handoff.poll
  split
  · exact ⟨_, rfl, List.length_set⟩
  · exact ⟨_, rfl, rfl⟩

theorem wait_spec (h : Handoff σ β) (ticket : Nat) :
    ∃ replies, (h.wait ticket).2 = { h with replies := replies } ∧
      replies.length = h.replies.length := by
  unfold Handoff.wait
  split
  · exact ⟨_, rfl, List.length_set⟩
  · exact ⟨_, rfl, List.length_set⟩
  · exact ⟨_, rfl, rfl⟩

theorem length_closeAll (replies : List Reply) (waiting : List (Nat × β)) :
    (closeAll replies waiting).length = replies.length := by
  induction waiting generalizing replies with
  | nil => rfl
  | cons task rest ih => exact (ih (replies.set task.1 .closed)).trans List.length_set

/-- **Tasks leave in the order in which they came**, whatever happens. -/
theorem Step.flow (hstep : Step uploader m e m') (h : m.Consistent) :
    Flow uploader m.handoff.owner m.tasks m.handoff.replies.length e
      m'.handoff.owner m'.tasks m'.handoff.replies.length := by
  cases hstep with
  | submit atlas _ =>
      cases howner : m.handoff.owner with
      | none =>
          have htasks := h.tasks_of_ownerless howner
          simp only [Handoff.submit, howner, Moment.tasks] at htasks ⊢
          rw [htasks]
          exact .refused atlas
      | some owner =>
          simp only [Handoff.submit, howner, Moment.tasks, List.length_append, ← List.append_assoc]
          exact .accepted atlas
  | @poll ticket _ =>
      obtain ⟨replies, hpoll, hlen⟩ := poll_spec m.handoff ticket
      simp only [hpoll, hlen]
      exact .quiet trivial
  | @wait ticket _ _ =>
      obtain ⟨replies, hwait, hlen⟩ := wait_spec m.handoff ticket
      simp only [hwait, hlen]
      exact .quiet trivial
  | @take ticket atlas rest _ hhand hwaiting =>
      have htasks : m.tasks = (ticket, atlas) :: rest := by
        simp [Moment.tasks, Hand.tasks, hhand, hwaiting]
      rw [htasks]
      exact .quiet trivial
  | @upload ticket atlas owner howner hhand =>
      have htasks : m.tasks = (ticket, atlas) :: m.handoff.waiting := by
        simp [Moment.tasks, Hand.tasks, hhand]
      rw [htasks, howner]
      exact .uploaded ticket atlas
  | reply hhand =>
      have htasks : m.tasks = m.handoff.waiting := by
        simp [Moment.tasks, Hand.tasks, hhand]
      simp only [htasks, List.length_set]
      exact .quiet trivial
  | endRun howner _ hhand hwaiting _ =>
      have htasks : m.tasks = [] := by
        simp [Moment.tasks, Hand.tasks, hhand, hwaiting]
      rw [howner]
      simp only [Moment.tasks] at htasks ⊢
      rw [htasks]
      exact .finished
  | dropOwner howner hidle =>
      obtain ⟨owner, howner⟩ := Option.isSome_iff_exists.mp howner
      simp only [Moment.tasks, Hand.tasks, h.hand_of_idle hidle, Handoff.dropOwner, howner,
        length_closeAll]
      exact .dropped
  | addSender _ => exact .quiet trivial
  | dropSender _ => exact .quiet trivial
  | beginPending _ _ => exact .quiet trivial
  | beginRun _ _ => exact .quiet trivial
  | endPending _ _ _ => exact .quiet trivial

/-! ### Uploading without a break -/

/-- What the owner does while nobody disturbs it. -/
def serveEvents (uploader : Uploader σ β) : σ → List (Nat × β) → List (Event σ β)
  | _, [] => []
  | owner, (ticket, atlas) :: rest =>
      .take ticket atlas :: .upload ticket atlas (uploader owner atlas).1 ::
        .reply ticket (uploader owner atlas).1 :: serveEvents uploader (uploader owner atlas).2 rest

theorem Work.add_ne_idle {work : Work} (h : work ≠ .idle) (n : Nat) : work.add n ≠ .idle := by
  cases work with
  | idle => exact absurd rfl h
  | pending count => nofun
  | serving => nofun

theorem Work.add_zero (work : Work) : work.add 0 = work := by cases work <;> rfl

theorem Work.add_succ (work : Work) (n : Nat) : work.add (n + 1) = (work.add 1).add n := by
  cases work with
  | idle => rfl
  | pending count => simp only [Work.add, Nat.add_comm n 1, Nat.add_assoc]
  | serving => rfl

theorem serve_steps (owner : σ) (senders : Nat) (waiting : List (Nat × β)) (replies : List Reply)
    {work : Work} (hbusy : work ≠ .idle) :
    Steps uploader ⟨⟨some owner, senders, waiting, replies⟩, work, .empty⟩
      (serveEvents uploader owner waiting)
      ⟨⟨some (serve uploader owner replies waiting).1, senders, [],
        (serve uploader owner replies waiting).2⟩, work.add waiting.length, .empty⟩ := by
  induction waiting generalizing owner replies work with
  | nil =>
      rw [List.length_nil, Work.add_zero]
      exact .nil
  | cons task rest ih =>
      obtain ⟨ticket, atlas⟩ := task
      rw [List.length_cons, Work.add_succ]
      refine .cons (.take hbusy rfl rfl) (.cons (.upload rfl rfl) (.cons (.reply rfl) ?_))
      exact ih _ _ (Work.add_ne_idle hbusy 1)

/-- **Uploading what is pending** is this, when nobody else does anything meanwhile. -/
theorem processPending_steps (uploader : Uploader σ β) {h : Handoff σ β} {owner : σ}
    (howner : h.owner = some owner) :
    (h.processPending uploader).1 = some h.waiting.length ∧
      Steps uploader (.resting h)
        (.beginPending :: (serveEvents uploader owner h.waiting ++ [.endPending h.waiting.length]))
        (.resting (h.processPending uploader).2) := by
  obtain ⟨_, senders, waiting, replies⟩ := h
  subst howner
  have hbusy : Work.pending 0 ≠ .idle := nofun
  refine ⟨rfl, .cons (.beginPending rfl rfl) ?_⟩
  refine (serve_steps owner senders waiting replies hbusy).append ?_
  rw [Work.add, Nat.zero_add]
  exact .cons (.endPending rfl rfl rfl) .nil

/-- **Uploading until no sender is left** is this, when none is left from the beginning. -/
theorem run_steps (uploader : Uploader σ β) {h : Handoff σ β} {owner : σ}
    (howner : h.owner = some owner) (hsenders : h.senders = 0) :
    ∃ last, (h.run uploader).1 = some last ∧
      Steps uploader (.resting h)
        (.beginRun :: (serveEvents uploader owner h.waiting ++ [.endRun last]))
        (.resting (h.run uploader).2) := by
  obtain ⟨_, _, waiting, replies⟩ := h
  subst howner hsenders
  have hbusy : Work.serving ≠ .idle := nofun
  refine ⟨_, rfl, .cons (.beginRun rfl rfl) ?_⟩
  refine (serve_steps owner 0 waiting replies hbusy).append ?_
  exact .cons (.endRun rfl rfl rfl rfl rfl) .nil

theorem serve_concat (owner : σ) (replies : List Reply) (waiting : List (Nat × β))
    (ticket : Nat) (atlas : β) :
    serve uploader owner replies (waiting ++ [(ticket, atlas)]) =
      ((uploader (serve uploader owner replies waiting).1 atlas).2,
        (serve uploader owner replies waiting).2.set ticket
          (.ready (uploader (serve uploader owner replies waiting).1 atlas).1)) := by
  induction waiting generalizing owner replies with
  | nil => rfl
  | cons task rest ih => exact ih (uploader owner task.2).2 _

theorem length_serve (uploader : Uploader σ β) (owner : σ) (replies : List Reply)
    (waiting : List (Nat × β)) :
    (serve uploader owner replies waiting).2.length = replies.length := by
  induction waiting generalizing owner replies with
  | nil => rfl
  | cons task rest ih => exact (ih _ _).trans List.length_set

/-- What was submitted last has its outcome once everything is uploaded. -/
theorem exists_wait_processPending (uploader : Uploader σ β) {h : Handoff σ β} {owner : σ}
    (howner : h.owner = some owner) (atlas : β) :
    ∃ outcome, (((h.submit atlas).2.processPending uploader).2.wait h.replies.length).1 =
      some outcome := by
  obtain ⟨_, senders, waiting, replies⟩ := h
  subst howner
  have hlength := length_serve uploader owner (replies ++ [.pending]) waiting
  simp only [submit, processPending, serve_concat, wait]
  rw [List.getElem?_set_self (by rw [hlength]; simp)]
  exact ⟨_, rfl⟩

/-- **Handing over an atlas and waiting for it** is this, when nobody else does anything
meanwhile. -/
theorem upload_steps (uploader : Uploader σ β) {h : Handoff σ β} {owner : σ}
    (howner : h.owner = some owner) (hsenders : 0 < h.senders) (atlas : β) :
    Steps uploader (.resting h)
      (.submit atlas (.ok h.replies.length) :: .beginPending ::
        (serveEvents uploader owner (h.waiting ++ [(h.replies.length, atlas)]) ++
          [.endPending (h.waiting.length + 1),
            .wait h.replies.length (h.upload uploader atlas).1]))
      (.resting (h.upload uploader atlas).2) := by
  obtain ⟨outcome, hready⟩ := exists_wait_processPending uploader howner atlas
  have hupload : h.upload uploader atlas =
      (outcome, (((h.submit atlas).2.processPending uploader).2.wait h.replies.length).2) := by
    have hsubmit : h.submit atlas = (.ok h.replies.length, (h.submit atlas).2) := by
      rw [submit, howner]
    rw [upload, hsubmit]
    simp only
    rw [← Prod.eta (wait _ _), hready]
  rw [hupload]
  obtain ⟨_, senders, waiting, replies⟩ := h
  subst howner
  obtain ⟨-, hpending⟩ := processPending_steps uploader
    (h := ⟨some owner, senders, waiting ++ [(replies.length, atlas)], replies ++ [.pending]⟩) rfl
  rw [List.length_append, List.length_singleton] at hpending
  refine .cons (.submit atlas hsenders) ?_
  have hwait := hpending.append (.cons (.wait hready) .nil)
  rw [List.cons_append, List.append_assoc] at hwait
  exact hwait

end VoxelBake.Handoff
